import HtmlTemplate.Proofs.Tree.Relinking

/-!
# Copies

A copy is made of new nodes only: the nodes that were there before stay as they are, and the copy has no
parent. The bound on the depth of a copy is never reached, so the recursion is that of the whole subtree.
-/

namespace HtmlTemplate
namespace Tree

/-- A copy of the child is made and added to the copy of its parent. -/
def copyChild (budget : Nat) (copy : NodeId) (tree : Tree) (child : NodeId) : Tree :=
  let made := cloneWithin budget child tree
  (made.2.setParent (some copy) made.1).update copy fun node =>
    { node with children := node.children ++ [made.1] }

theorem cloneWithin_zero (id : NodeId) (tree : Tree) :
    cloneWithin 0 id tree = tree.push (tree.node id).bare := rfl

theorem cloneWithin_succ (budget : Nat) (id : NodeId) (tree : Tree) :
    cloneWithin (budget + 1) id tree =
      (⟨tree.size⟩, (tree.children id).foldl (copyChild budget ⟨tree.size⟩)
        (tree.push (tree.node id).bare).2) := rfl

/-! ## What stays -/

/-- The later tree has all nodes of the earlier one, unchanged, and new nodes that are unvisited. -/
structure Extends (before after : Tree) : Prop where
  file : after.file = before.file
  size_le : before.size ≤ after.size
  node_of_has : ∀ id, before.Has id → after.node id = before.node id
  unvisited : ∀ id, ¬before.Has id → (after.node id).state = .unvisited

theorem Extends.refl (tree : Tree) : tree.Extends tree :=
  ⟨rfl, Nat.le_refl _, fun _ _ => rfl, fun _ absent => state_of_not_has absent⟩

theorem Extends.has {before after : Tree} (extension : before.Extends after) {id : NodeId}
    (present : before.Has id) : after.Has id :=
  Nat.lt_of_lt_of_le present extension.size_le

/-- What is above an old node is old. -/
theorem Extends.has_of_onPath {before after : Tree} (extension : before.Extends after) (wellFormed : before.WellFormed)
    {top id : NodeId} (present : before.Has id) (onPath : after.OnPath top id) : before.Has top := by
  induction onPath with
  | self => exact present
  | @step id parent linked _ hypothesis =>
      rw [Tree.parent, extension.node_of_has id present, ← Tree.parent] at linked
      exact hypothesis (wellFormed.has_parent linked)

theorem Extends.trans {first second third : Tree} (left : first.Extends second)
    (right : second.Extends third) : first.Extends third where
  file := right.file.trans left.file
  size_le := Nat.le_trans left.size_le right.size_le
  node_of_has id present := (right.node_of_has id (left.has present)).trans (left.node_of_has id present)
  unvisited id absent := by
    by_cases present : second.Has id
    · rw [right.node_of_has id present]
      exact left.unvisited id absent
    · exact right.unvisited id present

theorem extends_push (tree : Tree) {new : Node} (fresh : new.state = .unvisited) :
    tree.Extends (tree.push new).2 where
  file := rfl
  size_le := by simp
  node_of_has _ present := node_push_of_has new present
  unvisited id absent := by
    by_cases made : id = ⟨tree.size⟩
    · rw [made, node_push_self, fresh]
    · refine state_of_not_has fun grown => ?_
      exact ((has_push new).1 grown).elim absent made

/-- A change of a node that is not in the earlier tree, and that keeps its state, goes unnoticed there. -/
theorem Extends.update {before after : Tree} (extension : before.Extends after) {id : NodeId}
    (absent : ¬before.Has id) {change : Node → Node}
    (keeps : ∀ node, (change node).state = node.state) : before.Extends (after.update id change) where
  file := extension.file
  size_le := by simpa using extension.size_le
  node_of_has other present := by
    rw [node_update_of_ne (fun equal : other = id => absent (equal ▸ present)),
      extension.node_of_has other present]
  unvisited other missing := by
    rw [field_update after id other Node.state keeps]
    exact extension.unvisited other missing

/-- A copy of a child is added without a change to nodes that were there before the copying began. -/
theorem extends_copyChild {budget : Nat} {copy child : NodeId} {tree built : Tree}
    (absent : ¬tree.Has (cloneWithin budget child built).1) (fresh : ¬tree.Has copy)
    (extension : tree.Extends (cloneWithin budget child built).2) :
    tree.Extends (copyChild budget copy built child) := by
  have linked : tree.Extends
      ((cloneWithin budget child built).2.setParent (some copy) (cloneWithin budget child built).1) :=
    extension.update absent (by intro; rfl)
  exact linked.update fresh (by intro; rfl)

/-- What a copy of a child changes beside the list of children of its parent is a parent link. -/
theorem field_copyChild {β : Type} (budget : Nat) (copy child other : NodeId) (tree : Tree)
    (field : Node → β) (keeps : ∀ node children, field { node with children } = field node) :
    field ((copyChild budget copy tree child).node other) =
      field (((cloneWithin budget child tree).2.setParent (some copy)
        (cloneWithin budget child tree).1).node other) :=
  field_update _ _ _ field (by intro; exact keeps _ _)

theorem cloneWithin_fst (budget : Nat) (id : NodeId) (tree : Tree) :
    (cloneWithin budget id tree).1 = ⟨tree.size⟩ := by
  cases budget <;> rfl

theorem extends_cloneWithin (budget : Nat) (id : NodeId) (tree : Tree) :
    tree.Extends (cloneWithin budget id tree).2 ∧ (cloneWithin budget id tree).2.Has ⟨tree.size⟩ := by
  induction budget generalizing id tree with
  | zero => exact ⟨extends_push tree rfl, (has_push _).2 (.inr rfl)⟩
  | succ budget hypothesis =>
      rw [cloneWithin_succ]
      refine List.foldlRecOn (tree.children id) (copyChild budget ⟨tree.size⟩)
        (motive := fun after => tree.Extends after ∧ after.Has ⟨tree.size⟩)
        ⟨extends_push tree rfl, (has_push _).2 (.inr rfl)⟩ ?_
      rintro after ⟨extension, present⟩ child -
      have step := (hypothesis child after).1
      have absent : ¬tree.Has (cloneWithin budget child after).1 := by
        rw [cloneWithin_fst]
        exact Nat.not_lt.2 extension.size_le
      refine ⟨extends_copyChild absent not_has_size (extension.trans step), ?_⟩
      simpa [copyChild] using step.has present

/-! ## Copies hold what the originals hold -/

/-- Every node of the later tree holds the same as some node of the earlier one. -/
def Repeats (before after : Tree) : Prop :=
  ∀ id, ∃ source, after.kind id = before.kind source ∧ (after.node id).attributes = (before.node source).attributes

theorem Repeats.trans {before middle after : Tree} (first : before.Repeats middle)
    (second : middle.Repeats after) : before.Repeats after := by
  intro id
  obtain ⟨between, kind, attributes⟩ := second id
  obtain ⟨source, kindBefore, attributesBefore⟩ := first between
  exact ⟨source, kind.trans kindBefore, attributes.trans attributesBefore⟩

theorem repeats_push (tree : Tree) (id : NodeId) : tree.Repeats (tree.push (tree.node id).bare).2 := by
  intro other
  by_cases new : other = ⟨tree.size⟩
  · subst new
    refine ⟨id, ?_⟩
    rw [Tree.kind, node_push_self]
    exact ⟨rfl, rfl⟩
  · refine ⟨other, ?_⟩
    rw [Tree.kind, node_push_of_ne new]
    exact ⟨rfl, rfl⟩

theorem repeats_cloneWithin (budget : Nat) (id : NodeId) (tree : Tree) : tree.Repeats (cloneWithin budget id tree).2 := by
  induction budget generalizing id tree with
  | zero => exact repeats_push tree id
  | succ budget hypothesis =>
      rw [cloneWithin_succ]
      refine List.foldlRecOn (tree.children id) (copyChild budget ⟨tree.size⟩) (repeats_push tree id)
        fun built repeated child _ => (repeated.trans (hypothesis child built)).trans fun other => ⟨other, ?_, ?_⟩
      · exact (field_copyChild budget _ child other built Node.kind fun _ _ => rfl).trans
          (field_update _ _ other Node.kind fun _ => rfl)
      · exact (field_copyChild budget _ child other built Node.attributes fun _ _ => rfl).trans
          (field_update _ _ other Node.attributes fun _ => rfl)

/-! ## The copy is well formed -/

theorem parent_cloneWithin (budget : Nat) (id : NodeId) (tree : Tree) :
    (cloneWithin budget id tree).2.parent ⟨tree.size⟩ = none := by
  cases budget with
  | zero =>
      rw [cloneWithin_zero, Tree.parent, node_push_self]
      rfl
  | succ budget =>
      rw [cloneWithin_succ]
      refine (List.foldlRecOn (tree.children id) (copyChild budget ⟨tree.size⟩)
        (motive := fun after => after.parent ⟨tree.size⟩ = none ∧ tree.size < after.size)
        ⟨?_, ?_⟩ ?_).1
      · rw [Tree.parent, node_push_self]
        rfl
      · rw [size_push]
        exact Nat.lt_succ_self _
      · rintro after ⟨detached, larger⟩ child -
        have present : after.Has ⟨tree.size⟩ := larger
        obtain ⟨extension, -⟩ := extends_cloneWithin budget child after
        have apart : (⟨tree.size⟩ : NodeId) ≠ (cloneWithin budget child after).1 := by
          rw [cloneWithin_fst]
          exact ne_size_of_has present
        constructor
        · refine (field_copyChild _ _ _ _ _ Node.parent fun _ _ => rfl).trans ?_
          refine (parent_setParent_of_ne _ apart).trans ?_
          rw [Tree.parent, extension.node_of_has _ present]
          exact detached
        · simpa [copyChild] using Nat.lt_of_lt_of_le present extension.size_le

/-- A copy of a child becomes the last child of the copy of its parent. -/
theorem adopts_copyChild (budget : Nat) (child : NodeId) {copy : NodeId} {tree : Tree}
    (present : tree.Has copy) :
    (cloneWithin budget child tree).2.Adopts copy [⟨tree.size⟩] (copyChild budget copy tree child) := by
  obtain ⟨extension, made⟩ := extends_cloneWithin budget child tree
  have remains := extension.has present
  constructor
  · intro id
    refine (field_copyChild _ _ _ _ _ Node.kind fun _ _ => rfl).trans ?_
    exact kind_setParent _ _ _ _
  · intro id member
    obtain rfl := List.mem_singleton.1 member
    refine (field_copyChild _ _ _ _ _ Node.parent fun _ _ => rfl).trans ?_
    rw [cloneWithin_fst]
    exact parent_setParent_self _ made
  · intro id outside
    refine (field_copyChild _ _ _ _ _ Node.parent fun _ _ => rfl).trans ?_
    rw [cloneWithin_fst]
    exact parent_setParent_of_ne _ (List.ne_of_not_mem_cons outside)
  · have children_eq : (copyChild budget copy tree child).children copy =
        (cloneWithin budget child tree).2.children copy ++ [⟨tree.size⟩] := by
      rw [copyChild, children, node_update_self (by simpa using remains), cloneWithin_fst]
      exact congrArg (· ++ [_]) (children_setParent _ _ _ _)
    rw [children_eq]
    exact List.perm_append_comm
  · intro id different
    rw [copyChild, children, node_update_of_ne different]
    exact children_setParent _ _ _ _

theorem WellFormed.cloneWithin {tree : Tree} (wellFormed : tree.WellFormed) (budget : Nat) (id : NodeId) :
    (cloneWithin budget id tree).2.WellFormed := by
  induction budget generalizing id tree with
  | zero =>
      rw [cloneWithin_zero]
      exact wellFormed.push rfl rfl
  | succ budget hypothesis =>
      rw [cloneWithin_succ]
      -- the copy stays without a parent while copies of the children are added to it
      refine (List.foldlRecOn (tree.children id) (copyChild budget ⟨tree.size⟩)
        (motive := fun after => after.WellFormed ∧ after.Has ⟨tree.size⟩ ∧
          after.parent ⟨tree.size⟩ = none ∧ after.kind ⟨tree.size⟩ = tree.kind id)
        ⟨?_, (has_push _).2 (.inr rfl), ?_, ?_⟩ ?_).1
      · exact wellFormed.push rfl rfl
      · rw [Tree.parent, node_push_self]
        rfl
      · rw [kind, node_push_self]
        rfl
      · rintro after ⟨afterFormed, present, detached, sameKind⟩ child listed
        obtain ⟨extension, made⟩ := extends_cloneWithin budget child after
        have adopts := adopts_copyChild budget child present
        have copyDetached : (Tree.cloneWithin budget child after).2.parent ⟨tree.size⟩ = none := by
          rw [Tree.parent, extension.node_of_has _ present]
          exact detached
        have copyKind : (Tree.cloneWithin budget child after).2.kind ⟨tree.size⟩ = tree.kind id := by
          rw [kind, extension.node_of_has _ present]
          exact sameKind
        have apart : (⟨tree.size⟩ : NodeId) ≠ ⟨after.size⟩ := ne_size_of_has present
        refine ⟨(hypothesis afterFormed child).adopts adopts (List.nodup_singleton _) ?_ ?_ ?_, ?_, ?_, ?_⟩
        · intro other member
          obtain rfl := List.mem_singleton.1 member
          exact parent_cloneWithin budget child after
        · intro other member onPath
          obtain rfl := List.mem_singleton.1 member
          exact apart (onPath_of_root copyDetached onPath).symm
        · intro _
          rw [copyKind]
          exact wellFormed.contained id (List.ne_nil_of_mem listed)
        · simpa [copyChild] using extension.has present
        · rw [adopts.parent_of_notMem _ (by simpa using apart), copyDetached]
        · rw [adopts.kind, copyKind]

theorem WellFormed.clone {tree : Tree} (wellFormed : tree.WellFormed) (id : NodeId) (deep : Bool) :
    (tree.clone id deep).2.WellFormed :=
  wellFormed.cloneWithin _ id

/-! ## The bound on the depth -/

/-- A node as deep as the tree is large has no children. -/
theorem WellFormed.children_eq_nil_of_deep {tree : Tree} (wellFormed : tree.WellFormed) {id : NodeId} {depth : Nat}
    (grounded : tree.Depth id depth) (deep : tree.size ≤ depth + 1) : tree.children id = [] := by
  refine List.eq_nil_iff_forall_not_mem.2 fun child listed => ?_
  have below := Depth.child ((wellFormed.linked id child).1 listed) grounded
  have := wellFormed.depth_lt_size (wellFormed.has_child listed) below
  omega

/-- Any two budgets that reach the deepest nodes of the tree give the same copy. -/
theorem cloneWithin_eq {tree : Tree} (wellFormed : tree.WellFormed) {id : NodeId} {depth : Nat}
    (present : tree.Has id) (grounded : tree.Depth id depth) {first second : Nat}
    (left : tree.size ≤ first + depth + 1) (right : tree.size ≤ second + depth + 1) {after : Tree}
    (extension : tree.Extends after) : cloneWithin first id after = cloneWithin second id after := by
  have childless_of_deep : tree.size ≤ depth + 1 → after.children id = [] := by
    intro deep
    rw [children, extension.node_of_has id present]
    exact wellFormed.children_eq_nil_of_deep grounded deep
  induction first generalizing id depth second after with
  | zero =>
      cases second with
      | zero => rfl
      | succ second =>
          rw [cloneWithin_zero, cloneWithin_succ, childless_of_deep (by omega)]
          rfl
  | succ first hypothesis =>
      cases second with
      | zero =>
          rw [cloneWithin_zero, cloneWithin_succ, childless_of_deep (by omega)]
          rfl
      | succ second =>
          rw [cloneWithin_succ, cloneWithin_succ]
          refine congrArg (Prod.mk _) ?_
          have children_eq : after.children id = tree.children id := by
            rw [children, extension.node_of_has id present, children]
          -- both folds run over the same children; what they have built so far extends the tree
          have agree : ∀ list : List NodeId, list ⊆ tree.children id → ∀ built : Tree,
              tree.Extends built → ¬tree.Has ⟨after.size⟩ →
              list.foldl (copyChild first ⟨after.size⟩) built =
                list.foldl (copyChild second ⟨after.size⟩) built := by
            intro list
            induction list with
            | nil => exact fun _ _ _ _ => rfl
            | cons child list rest =>
                intro subset built extended fresh
                have listed := subset List.mem_cons_self
                have linked := (wellFormed.linked id child).1 listed
                have same : cloneWithin first child built = cloneWithin second child built := by
                  refine hypothesis (wellFormed.has_child listed) (.child linked grounded) (by omega)
                    (by omega) extended ?_
                  intro deep
                  rw [children, extended.node_of_has child (wellFormed.has_child listed)]
                  exact wellFormed.children_eq_nil_of_deep (.child linked grounded) deep
                have step : copyChild first ⟨after.size⟩ built child =
                    copyChild second ⟨after.size⟩ built child := by
                  rw [copyChild, copyChild, same]
                rw [List.foldl_cons, List.foldl_cons, step]
                refine rest (fun _ member => subset (List.mem_cons_of_mem _ member)) _ ?_ fresh
                refine extends_copyChild ?_ fresh (extended.trans (extends_cloneWithin second child built).1)
                rw [cloneWithin_fst]
                exact Nat.not_lt.2 extended.size_le
          rw [children_eq]
          exact agree _ (fun _ member => member) _
            (extension.trans (extends_push after rfl)) (Nat.not_lt.2 extension.size_le)

/-- Copying ends by itself: a larger budget does not change what is copied. -/
theorem WellFormed.cloneWithin_eq_clone {tree : Tree} (wellFormed : tree.WellFormed) (id : NodeId)
    {budget : Nat} (enough : tree.size ≤ budget) : Tree.cloneWithin budget id tree = tree.clone id true := by
  obtain ⟨depth, grounded⟩ := wellFormed.grounded id
  by_cases present : tree.Has id
  · exact Tree.cloneWithin_eq wellFormed present grounded (by omega)
      (by simp only [depthBound, if_true]; omega) (Extends.refl tree)
  · have leaf : tree.children id = [] := by
      rw [children, node_of_not_has present]
      rfl
    cases budget with
    | zero => rw [Tree.clone, if_pos rfl, depthBound, cloneWithin_zero, cloneWithin_succ, leaf]; rfl
    | succ budget =>
        rw [Tree.clone, if_pos rfl, depthBound, cloneWithin_succ, cloneWithin_succ, leaf]
        rfl

end Tree
end HtmlTemplate
