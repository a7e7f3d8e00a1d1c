import HtmlTemplate.Proofs.Tree.Editing
import HtmlTemplate.Proofs.Tree.Relinking

/-!
# Copies and originals

A deep copy has one new node for each node of the subtree, made in the order of the subtree from the top down and
linked as the originals are. From then on the two go separate ways: edits of one of them and of nodes that are made
later do not change the other one.
-/

namespace HtmlTemplate
namespace Tree

/-! ## Numbers of copies -/

/-- The copies of the nodes are numbered one after the other. -/
def Numbers (copy : NodeId → NodeId) (start : Nat) (ids : List NodeId) : Prop :=
  ids.map copy = (List.range' start ids.length).map NodeId.mk

variable {copy : NodeId → NodeId} {start : Nat} {id : NodeId} {ids others : List NodeId}

theorem numbers_cons : Numbers copy start (id :: ids) ↔ copy id = ⟨start⟩ ∧ Numbers copy (start + 1) ids := by
  unfold Numbers
  rw [List.length_cons, List.range'_succ, List.map_cons, List.map_cons, List.cons.injEq]

theorem numbers_append :
    Numbers copy start (ids ++ others) ↔ Numbers copy start ids ∧ Numbers copy (start + ids.length) others := by
  induction ids generalizing start with
  | nil => simp [Numbers]
  | cons id ids hypothesis =>
      rw [List.cons_append, numbers_cons, numbers_cons, hypothesis, and_assoc, List.length_cons, Nat.add_assoc,
        Nat.add_comm 1]

/-- The copies of nodes that are numbered from some number on have that number or a larger one. -/
theorem Numbers.bounds (numbers : Numbers copy start ids) (member : id ∈ ids) :
    start ≤ (copy id).index ∧ (copy id).index < start + ids.length := by
  have numbered : copy id ∈ (List.range' start ids.length).map NodeId.mk := numbers ▸ List.mem_map_of_mem member
  obtain ⟨index, inside, same⟩ := List.mem_map.1 numbered
  rw [← same]
  simpa using inside

theorem Numbers.copy_getElem (numbers : Numbers copy start ids) {index : Nat} (inside : index < ids.length) :
    copy ids[index] = ⟨start + index⟩ := by
  have same := List.getElem_of_eq numbers (i := index) (by simpa using inside)
  simpa using same

/-- Nodes can be numbered in an order that names none of them twice. -/
theorem exists_numbers (start : Nat) (distinct : ids.Nodup) : ∃ copy, Numbers copy start ids := by
  refine ⟨fun id => ⟨start + ids.idxOf id⟩, List.ext_getElem (by simp) fun index inside _ => ?_⟩
  simp [distinct.idxOf_getElem index (by simpa using inside)]

/-! ## Copying node by node -/

/-- The node with copies of its neighbours in their place. -/
def copyNode (tree : Tree) (copy : NodeId → NodeId) (id : NodeId) : Node :=
  { (tree.node id).bare with children := (tree.children id).map copy, parent := (tree.parent id).map copy }

/-- Behind the nodes of a tree there is a copy of the node and of all that is below some of its children. -/
structure Copying (tree : Tree) (copy : NodeId → NodeId) (top : NodeId) (before : Tree) (done : List NodeId)
    (after : Tree) : Prop where
  kept : before.Extends after
  size : after.size = before.size + 1 + (done.flatMap tree.preorder).length
  root : after.node (copy top) = { (tree.node top).bare with children := done.map copy }
  below : ∀ id ∈ done.flatMap tree.preorder, after.node (copy id) = tree.copyNode copy id

variable {tree before after : Tree} {top child : NodeId} {done rest : List NodeId}

theorem copying_push (same : before.node top = tree.node top) (number : copy top = ⟨before.size⟩) :
    tree.Copying copy top before [] (before.push (before.node top).bare).2 where
  kept := extends_push before rfl
  size := size_push _ _
  root := by
    rw [number, node_push_self, same]
    rfl
  below _ impossible := absurd impossible List.not_mem_nil

theorem size_copyChild (budget : Nat) (top child : NodeId) (tree : Tree) :
    (copyChild budget top tree child).size = (cloneWithin budget child tree).2.size := by
  simp [Tree.copyChild]

/-- Of the nodes that there are when a child was copied, only its copy and the parent of that get other links. -/
theorem node_copyChild_of_ne {budget : Nat} (notTop : id ≠ top) (notChild : id ≠ ⟨tree.size⟩) :
    (copyChild budget top tree child).node id = (cloneWithin budget child tree).2.node id := by
  rw [copyChild, node_update_of_ne notTop, cloneWithin_fst, setParent, node_update_of_ne notChild]

/-- One child more is copied, and its copy becomes the last child of the copy of its parent. -/
theorem Copying.copyChild {budget : Nat} (copying : tree.Copying copy top before done after)
    (made : tree.Copying copy child after (tree.children child) (cloneWithin budget child after).2)
    (linked : tree.parent child = some top) (root : copy top = ⟨before.size⟩)
    (numbers : Numbers copy (before.size + 1) (done.flatMap tree.preorder))
    (childNumbers : Numbers copy after.size (child :: (tree.children child).flatMap tree.preorder))
    (order : tree.preorder child = child :: (tree.children child).flatMap tree.preorder) :
    tree.Copying copy top before (done ++ [child]) (copyChild budget (copy top) after child) := by
  obtain ⟨number, deeper⟩ := numbers_cons.1 childNumbers
  have started : before.size < after.size := by
    rw [copying.size]
    omega
  have hasTop : after.Has (copy top) := by
    rw [root]
    exact started
  have different : copy top ≠ copy child := by
    rw [number]
    exact ne_size_of_has hasTop
  have remains : ∀ id, after.Has id → (cloneWithin budget child after).2.node id = after.node id :=
    made.kept.node_of_has
  have hasCopy : (cloneWithin budget child after).2.Has (copy child) := by
    rw [number]
    exact (extends_cloneWithin budget child after).2
  refine ⟨?_, ?_, ?_, ?_⟩
  · refine extends_copyChild ?_ ?_ (copying.kept.trans made.kept)
    · rw [cloneWithin_fst]
      exact Nat.not_lt.2 copying.kept.size_le
    · rw [root]
      exact not_has_size
  · rw [size_copyChild, made.size, copying.size, List.flatMap_append, List.length_append, List.flatMap_singleton, order,
      List.length_cons]
    omega
  · have present : ((cloneWithin budget child after).2.setParent (some (copy top))
        (cloneWithin budget child after).1).Has (copy top) := by
      rw [has_setParent]
      exact made.kept.has hasTop
    rw [Tree.copyChild, node_update_self present, cloneWithin_fst, setParent,
      node_update_of_ne (number ▸ different), remains _ hasTop, copying.root, ← number, List.map_append]
    rfl
  · intro id member
    rw [List.flatMap_append, List.flatMap_singleton, List.mem_append, order, List.mem_cons] at member
    rcases member with earlier | rfl | later
    · have bounds := numbers.bounds earlier
      have known : after.Has (copy id) := by
        rw [Has, copying.size]
        exact bounds.2
      rw [node_copyChild_of_ne ?_ (ne_size_of_has known), remains _ known, copying.below id earlier]
      rintro equal
      rw [equal, root] at bounds
      exact absurd bounds.1 (Nat.not_succ_le_self _)
    · rw [Tree.copyChild, node_update_of_ne different.symm, cloneWithin_fst, ← number, setParent,
        node_update_self hasCopy, made.root, copyNode, linked]
      rfl
    · have bounds := deeper.bounds later
      rw [node_copyChild_of_ne ?_ ?_, made.below id later]
      · rintro equal
        rw [equal, root] at bounds
        exact absurd (Nat.lt_of_lt_of_le started (Nat.le_of_succ_le bounds.1)) (Nat.lt_irrefl _)
      · rintro equal
        rw [equal] at bounds
        exact absurd bounds.1 (Nat.not_succ_le_self _)

/-- What is below all children is copied one after the other. -/
theorem WellFormed.copying_foldl (wellFormed : tree.WellFormed) {budget : Nat}
    (copies : ∀ {child built}, child ∈ tree.children top → tree.Extends built →
      Numbers copy built.size (tree.preorder child) →
      tree.Copying copy child built (tree.children child) (Tree.cloneWithin budget child built).2)
    (extension : tree.Extends before) (root : copy top = ⟨before.size⟩)
    (numbers : Numbers copy (before.size + 1) ((tree.children top).flatMap tree.preorder))
    (listed : tree.children top = done ++ rest) (copying : tree.Copying copy top before done after) :
    tree.Copying copy top before (tree.children top) (rest.foldl (Tree.copyChild budget ⟨before.size⟩) after) := by
  induction rest generalizing done after with
  | nil =>
      rw [listed, List.append_nil]
      exact copying
  | cons child rest hypothesis =>
      have member : child ∈ tree.children top := by
        rw [listed]
        simp
      have numbered := numbers
      rw [listed, List.flatMap_append, List.flatMap_cons, numbers_append, numbers_append, ← copying.size] at numbered
      obtain ⟨earlier, own, -⟩ := numbered
      have made := copies member (extension.trans copying.kept) own
      have step := copying.copyChild made ((wellFormed.linked top child).1 member) root earlier
        (wellFormed.preorder_eq child ▸ own) (wellFormed.preorder_eq child)
      rw [List.foldl_cons, ← root]
      rw [← root] at hypothesis
      exact hypothesis (by rw [listed, List.append_assoc, List.singleton_append]) step

/-- A copy that reaches to the bottom of the tree is a copy of all that is below the node. -/
theorem WellFormed.copying_cloneWithin (wellFormed : tree.WellFormed) {budget depth : Nat} (present : tree.Has top)
    (grounded : tree.Depth top depth) (enough : tree.size ≤ budget + depth + 1) (extension : tree.Extends before)
    (numbers : Numbers copy before.size (tree.preorder top)) :
    tree.Copying copy top before (tree.children top) (Tree.cloneWithin budget top before).2 := by
  induction budget generalizing top depth before with
  | zero =>
      have leaf := wellFormed.children_eq_nil_of_deep grounded (by omega)
      rw [wellFormed.preorder_eq, numbers_cons] at numbers
      rw [leaf, cloneWithin_zero]
      exact copying_push (extension.node_of_has top present) numbers.1
  | succ budget hypothesis =>
      rw [wellFormed.preorder_eq, numbers_cons] at numbers
      have same : before.children top = tree.children top := by
        rw [children, extension.node_of_has top present, children]
      rw [cloneWithin_succ, same]
      refine wellFormed.copying_foldl ?_ extension numbers.1 numbers.2 (List.nil_append _).symm
        (copying_push (extension.node_of_has top present) numbers.1)
      intro child built member extended own
      have lower := Depth.child ((wellFormed.linked top child).1 member) grounded
      exact hypothesis (wellFormed.has_child member) lower (by omega) extended own

/-! ## Copies are independent -/

/-- The copy of a node is new. -/
theorem Copying.isNew (copying : tree.Copying copy top tree (tree.children top) after)
    (numbers : Numbers copy tree.size (tree.preorder top)) (member : id ∈ tree.preorder top)
    (wellFormed : tree.WellFormed) : ¬tree.Has (copy id) ∧ after.Has (copy id) := by
  have bounds := numbers.bounds member
  refine ⟨Nat.not_lt.2 bounds.1, ?_⟩
  rw [wellFormed.preorder_eq, List.length_cons] at bounds
  rw [Has, copying.size]
  omega

/-- What a copy holds, and how it is linked. -/
theorem Copying.node_copy (copying : tree.Copying copy top tree (tree.children top) after)
    (wellFormed : tree.WellFormed) (member : id ∈ tree.preorder top) :
    after.node (copy id) =
      { (tree.node id).bare with
        children := (tree.children id).map copy
        parent := if id = top then none else (tree.parent id).map copy } := by
  rw [wellFormed.preorder_eq, List.mem_cons] at member
  rcases member with rfl | lower
  · rw [copying.root, if_pos rfl]
    rfl
  · have different : id ≠ top := by
      rintro rfl
      obtain ⟨child, listed, inside⟩ := List.mem_flatMap.1 lower
      obtain ⟨depth, grounded⟩ := wellFormed.grounded child
      exact not_onPath_parent grounded ((wellFormed.linked id child).1 listed)
        (wellFormed.mem_preorder_iff.1 inside)
    rw [copying.below id lower, if_neg different]
    rfl

/-- The neighbours of a copy are copies. -/
theorem Copying.aloof (copying : tree.Copying copy top tree (tree.children top) after)
    (wellFormed : tree.WellFormed) (member : id ∈ tree.preorder top) {reach : NodeId → Prop}
    (apart : ∀ other ∈ tree.preorder top, ¬reach (copy other)) : after.Aloof reach (copy id) := by
  have node := copying.node_copy wellFormed member
  refine ⟨apart id member, fun parent linked => ?_, fun child listed => ?_⟩
  · rw [Tree.parent, node] at linked
    dsimp only at linked
    split at linked
    · cases linked
    · next different =>
        obtain ⟨original, above, rfl⟩ := Option.map_eq_some_iff.1 linked
        refine apart original (wellFormed.mem_preorder ?_)
        rcases onPath_iff.1 (wellFormed.mem_preorder_iff.1 member) with same | ⟨other, link, onPath⟩
        · exact absurd same.symm different
        · exact Option.some.inj (link.symm.trans above) ▸ onPath
  · rw [children, node] at listed
    obtain ⟨original, below, rfl⟩ := List.mem_map.1 listed
    refine apart original (wellFormed.mem_preorder ?_)
    exact .step ((wellFormed.linked id original).1 below) (wellFormed.mem_preorder_iff.1 member)

/-- Edits of nodes that are no copies leave the copies as they are. -/
theorem Copying.copy_remains (copying : tree.Copying copy top tree (tree.children top) after)
    (numbers : Numbers copy tree.size (tree.preorder top)) (wellFormed : tree.WellFormed) (formed : after.WellFormed)
    {edits : List Edit} (within : ∀ edit ∈ edits, ∀ id ∈ edit.operands, tree.Has id ∨ ¬after.Has id)
    (member : id ∈ tree.preorder top) : (after.afterEdits edits).node (copy id) = after.node (copy id) := by
  refine formed.node_afterEdits within (copying.isNew numbers member wellFormed).2
    (copying.aloof wellFormed member fun other inside reached => ?_)
  obtain ⟨isNew, known⟩ := copying.isNew numbers inside wellFormed
  exact reached.elim isNew (absurd known)

/-- Edits of later nodes leave the nodes of a tree as they are. -/
theorem Extends.original_remains (extension : tree.Extends after) (wellFormed : tree.WellFormed)
    (formed : after.WellFormed) {edits : List Edit} (within : ∀ edit ∈ edits, ∀ id ∈ edit.operands, ¬tree.Has id)
    (present : tree.Has id) : (after.afterEdits edits).node id = after.node id := by
  have same := extension.node_of_has id present
  refine formed.node_afterEdits within (extension.has present)
    ⟨not_not_intro present, fun parent linked => not_not_intro ?_, fun child listed => not_not_intro ?_⟩
  · rw [Tree.parent, same] at linked
    exact wellFormed.has_parent linked
  · rw [children, same] at listed
    exact wellFormed.has_child listed

/-- A deep copy of a node has the subtree of the node once more, as the next nodes in the order of the subtree, under
no parent. No older node is changed, neither by the copying nor by any later edits of copies and of nodes made later
on, and edits of older nodes and of nodes made later on do not change the copy. -/
theorem clone_copies (file : String) (edits : List Edit) (top : NodeId)
    (present : (({ file } : Tree).afterEdits edits).Has top) :
    let tree := ({ file } : Tree).afterEdits edits
    let after := (tree.clone top true).2
    ((tree.preorder top).Nodup ∧ ∀ id, id ∈ tree.preorder top ↔ tree.OnPath top id) ∧
      after.size = tree.size + (tree.preorder top).length ∧
      ∃ copy : NodeId → NodeId,
        (tree.clone top true).1 = copy top ∧
        (∀ index (inside : index < (tree.preorder top).length), copy (tree.preorder top)[index] = ⟨tree.size + index⟩) ∧
        (∀ id, tree.OnPath top id →
          after.node (copy id) =
            { kind := tree.kind id
              attributes := (tree.node id).attributes
              children := (tree.children id).map copy
              parent := if id = top then none else (tree.parent id).map copy
              position := (tree.node id).position
              preserve := (tree.node id).preserve
              state := .unvisited }) ∧
        (∀ id, tree.Has id → after.node id = tree.node id) ∧
        (∀ later : List Edit, (∀ edit ∈ later, ∀ id ∈ edit.operands, tree.Has id ∨ ¬after.Has id) →
          ∀ id, tree.OnPath top id → (after.afterEdits later).node (copy id) = after.node (copy id)) ∧
        (∀ later : List Edit, (∀ edit ∈ later, ∀ id ∈ edit.operands, ¬tree.Has id) →
          ∀ id, tree.Has id → (after.afterEdits later).node id = after.node id) := by
  intro tree after
  have wellFormed : tree.WellFormed := wellFormed_afterEdits file edits
  have formed : after.WellFormed := wellFormed.clone top true
  have extension : tree.Extends after := (extends_cloneWithin _ top tree).1
  obtain ⟨copy, numbers⟩ := exists_numbers tree.size (wellFormed.nodup_preorder top)
  obtain ⟨depth, grounded⟩ := wellFormed.grounded top
  have copying : tree.Copying copy top tree (tree.children top) after :=
    wellFormed.copying_cloneWithin present grounded (by simp only [depthBound, if_true]; omega) (.refl tree) numbers
  have order := wellFormed.preorder_eq top
  have first : copy top = ⟨tree.size⟩ := (numbers_cons.1 (order ▸ numbers)).1
  refine ⟨⟨wellFormed.nodup_preorder top, fun id => wellFormed.mem_preorder_iff⟩, ?_, copy, ?_, ?_, ?_, ?_, ?_, ?_⟩
  · rw [copying.size, order, List.length_cons, Nat.add_assoc, Nat.add_comm 1]
  · exact (cloneWithin_fst _ top tree).trans first.symm
  · exact fun index inside => numbers.copy_getElem inside
  · exact fun id below => copying.node_copy wellFormed (wellFormed.mem_preorder below)
  · exact fun id known => extension.node_of_has id known
  · exact fun later within id below => copying.copy_remains numbers wellFormed formed within (wellFormed.mem_preorder below)
  · exact fun later within id known => extension.original_remains wellFormed formed within known

/-- The copy of a paragraph keeps its text when the text is taken out of the original. -/
theorem clone_copies_paragraph :
    let edits : List Edit :=
      [.create {} (.text "a") [] [], .create {} (.element "p") [("class", "x")] [⟨0⟩]]
    let tree := ({ file := "page.html" } : Tree).afterEdits edits
    tree.Has ⟨1⟩ ∧ ((tree.clone ⟨1⟩ true).2.afterEdits [.takeChildren ⟨1⟩]).children ⟨2⟩ = [⟨3⟩] := by
  intro edits tree
  have present : tree.Has ⟨1⟩ := by decide +kernel
  have order : tree.preorder ⟨1⟩ = [⟨1⟩, ⟨0⟩] := by decide +kernel
  have listed : tree.children ⟨1⟩ = [⟨0⟩] := by decide +kernel
  have size : tree.size = 2 := by decide +kernel
  obtain ⟨-, -, copy, -, numbered, nodes, -, remains, -⟩ := clone_copies "page.html" edits ⟨1⟩ present
  change ∀ index (inside : index < (tree.preorder ⟨1⟩).length), copy (tree.preorder ⟨1⟩)[index] = ⟨tree.size + index⟩
    at numbered
  have root : copy ⟨1⟩ = ⟨2⟩ := by simpa [order, size] using numbered 0
  have text : copy ⟨0⟩ = ⟨3⟩ := by simpa [order, size] using numbered 1
  have kept := remains [.takeChildren ⟨1⟩] (by simpa [Edit.operands] using .inl present) ⟨1⟩ .self
  refine ⟨present, ?_⟩
  rw [children, ← root, kept, nodes ⟨1⟩ .self]
  exact (congrArg (List.map copy) listed).trans (congrArg (· :: []) text)

end Tree
end HtmlTemplate
