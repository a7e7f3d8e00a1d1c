import HtmlTemplate.Proofs.Tree.Success
import HtmlTemplate.Tree.Traversal

/-!
# Links set and cut

Every structural edit sets links between a node and others that had no parent, or cuts links between a
node and some of its children, or does one after the other. Both keep a tree well formed: links that are
set lead away from the path of the new parent, and links that are cut only shorten paths.
-/

namespace HtmlTemplate

namespace Tree

/-- The later tree has the nodes as children of the parent beside those it had, and is else the same. -/
structure Adopts (before : Tree) (parent : NodeId) (ids : List NodeId) (after : Tree) : Prop where
  kind : ∀ id, after.kind id = before.kind id
  parent_of_mem : ∀ id ∈ ids, after.parent id = some parent
  parent_of_notMem : ∀ id ∉ ids, after.parent id = before.parent id
  children_self : (after.children parent).Perm (ids ++ before.children parent)
  children_of_ne : ∀ id ≠ parent, after.children id = before.children id

/-- In the later tree the nodes are no children of the parent any more; else it is the same. -/
structure Releases (before : Tree) (parent : NodeId) (ids : List NodeId) (after : Tree) : Prop where
  kind : ∀ id, after.kind id = before.kind id
  parent_of_mem : ∀ id ∈ ids, after.parent id = none
  parent_of_notMem : ∀ id ∉ ids, after.parent id = before.parent id
  children_self : (before.children parent).Perm (ids ++ after.children parent)
  children_of_ne : ∀ id ≠ parent, after.children id = before.children id

variable {before after : Tree} {parent : NodeId} {ids : List NodeId}

/-! ## Links set -/

theorem Adopts.mem_children (adopts : before.Adopts parent ids after) (id child : NodeId) :
    child ∈ after.children id ↔ (id = parent ∧ child ∈ ids) ∨ child ∈ before.children id := by
  by_cases same : id = parent
  · subst same
    rw [adopts.children_self.mem_iff, List.mem_append]
    simp
  · rw [adopts.children_of_ne id same]
    simp [same]

/-- A path that does not meet the adopted nodes stays as it is. -/
theorem Adopts.depth (adopts : before.Adopts parent ids after) {id : NodeId} {depth : Nat}
    (grounded : before.Depth id depth) (apart : ∀ other ∈ ids, ¬before.OnPath other id) :
    after.Depth id depth := by
  induction grounded with
  | @root id root =>
      refine .root ?_
      rw [adopts.parent_of_notMem id fun member => apart id member .self, root]
  | @child id upper depth linked _ hypothesis =>
      have kept : after.parent id = some upper := by
        rw [adopts.parent_of_notMem id fun member => apart id member .self, linked]
      exact .child kept (hypothesis fun other member onPath => apart other member (.step linked onPath))

theorem WellFormed.adopts (wellFormed : before.WellFormed) (adopts : before.Adopts parent ids after)
    (distinct : ids.Nodup) (detached : ∀ id ∈ ids, before.parent id = none)
    (apart : ∀ id ∈ ids, ¬before.OnPath id parent)
    (container : ids ≠ [] → (before.kind parent).isContainer = true) : after.WellFormed where
  linked id child := by
    rw [adopts.mem_children, wellFormed.linked]
    by_cases member : child ∈ ids
    · simp [member, adopts.parent_of_mem child member, detached child member, eq_comm]
    · simp [member, adopts.parent_of_notMem child member]
  nodup id := by
    by_cases same : id = parent
    · subst same
      rw [adopts.children_self.nodup_iff]
      refine List.Nodup.append distinct (wellFormed.nodup id) fun child member listed => ?_
      rw [wellFormed.linked, detached child member] at listed
      cases listed
    · rw [adopts.children_of_ne id same]
      exact wellFormed.nodup id
  grounded id := by
    obtain ⟨parentDepth, parentGrounded⟩ := wellFormed.grounded parent
    have above := adopts.depth parentGrounded apart
    obtain ⟨depth, grounded⟩ := wellFormed.grounded id
    -- a path that ended in an adopted node goes on along the path of the new parent
    induction grounded with
    | @root id root =>
        by_cases member : id ∈ ids
        · exact ⟨parentDepth + 1, .child (adopts.parent_of_mem id member) above⟩
        · exact ⟨0, .root ((adopts.parent_of_notMem id member).trans root)⟩
    | @child id upper depth linked _ hypothesis =>
        obtain ⟨longer, grounded⟩ := hypothesis
        have notMember : id ∉ ids := fun member => by
          rw [detached id member] at linked
          cases linked
        exact ⟨longer + 1, .child ((adopts.parent_of_notMem id notMember).trans linked) grounded⟩
  contained id nonempty := by
    rw [adopts.kind]
    by_cases old : before.children id = []
    · have same : id = parent := by
        by_contra different
        exact nonempty ((adopts.children_of_ne id different).trans old)
      subst same
      refine container fun none => nonempty ?_
      simpa [none, old] using adopts.children_self
    · exact wellFormed.contained id old

/-! ## Links cut -/

theorem Releases.mem_children (releases : before.Releases parent ids after)
    (wellFormed : before.WellFormed) (id child : NodeId) :
    child ∈ after.children id ↔ child ∉ ids ∧ child ∈ before.children id := by
  by_cases same : id = parent
  · subst same
    have distinct := (releases.children_self.nodup_iff).1 (wellFormed.nodup id)
    rw [releases.children_self.mem_iff, List.mem_append]
    have apart := List.disjoint_of_nodup_append distinct
    constructor
    · intro member
      exact ⟨fun cut => apart cut member, .inr member⟩
    · rintro ⟨kept, cut | member⟩
      · exact absurd cut kept
      · exact member
  · rw [releases.children_of_ne id same]
    refine ⟨fun member => ⟨fun cut => same ?_, member⟩, And.right⟩
    have listed : child ∈ before.children parent :=
      releases.children_self.mem_iff.2 (List.mem_append_left _ cut)
    rw [wellFormed.linked] at member listed
    exact Option.some.inj (member.symm.trans listed)

/-- Links that are cut only shorten paths. -/
theorem Releases.onPath (releases : before.Releases parent ids after) {top id : NodeId}
    (onPath : after.OnPath top id) : before.OnPath top id := by
  induction onPath with
  | self => exact .self
  | @step id upper linked _ hypothesis =>
      have kept : id ∉ ids := fun member => by
        rw [releases.parent_of_mem id member] at linked
        cases linked
      exact .step ((releases.parent_of_notMem id kept).symm.trans linked) hypothesis

theorem WellFormed.releases (wellFormed : before.WellFormed)
    (releases : before.Releases parent ids after) : after.WellFormed where
  linked id child := by
    rw [releases.mem_children wellFormed, wellFormed.linked]
    by_cases member : child ∈ ids
    · simp [member, releases.parent_of_mem child member]
    · simp [member, releases.parent_of_notMem child member]
  nodup id := by
    by_cases same : id = parent
    · subst same
      exact ((releases.children_self.nodup_iff).1 (wellFormed.nodup id)).of_append_right
    · rw [releases.children_of_ne id same]
      exact wellFormed.nodup id
  grounded id := by
    obtain ⟨depth, grounded⟩ := wellFormed.grounded id
    induction grounded with
    | @root id root =>
        by_cases member : id ∈ ids
        · exact ⟨0, .root (releases.parent_of_mem id member)⟩
        · exact ⟨0, .root ((releases.parent_of_notMem id member).trans root)⟩
    | @child id upper depth linked _ hypothesis =>
        obtain ⟨shorter, grounded⟩ := hypothesis
        by_cases member : id ∈ ids
        · exact ⟨0, .root (releases.parent_of_mem id member)⟩
        · exact ⟨shorter + 1, .child ((releases.parent_of_notMem id member).trans linked) grounded⟩
  contained id nonempty := by
    rw [releases.kind]
    refine wellFormed.contained id fun empty => nonempty ?_
    rw [List.eq_nil_iff_forall_not_mem]
    intro child member
    have listed := ((releases.mem_children wellFormed id child).1 member).2
    rw [empty] at listed
    cases listed

/-! ## Trees with a node more -/

section push

variable {tree : Tree} {new : Node}

theorem node_push_of_ne {id : NodeId} (different : id ≠ ⟨tree.size⟩) :
    (tree.push new).2.node id = tree.node id := by
  by_cases present : tree.Has id
  · exact node_push_of_has new present
  · rw [node_of_not_has present, node_of_not_has]
    exact fun grown => ((has_push new).1 grown).elim present different

theorem children_push (childless : new.children = []) (id : NodeId) :
    (tree.push new).2.children id = tree.children id := by
  by_cases fresh : id = ⟨tree.size⟩
  · subst fresh
    rw [children, children, node_push_self, childless, node_of_not_has not_has_size]
    rfl
  · rw [children, node_push_of_ne fresh, children]

theorem parent_push (detached : new.parent = none) (id : NodeId) :
    (tree.push new).2.parent id = tree.parent id := by
  by_cases fresh : id = ⟨tree.size⟩
  · subst fresh
    rw [Tree.parent, Tree.parent, node_push_self, detached, node_of_not_has not_has_size]
    rfl
  · rw [Tree.parent, node_push_of_ne fresh, Tree.parent]

/-- A node more, without links, keeps a tree well formed. -/
theorem WellFormed.push (wellFormed : tree.WellFormed) (childless : new.children = [])
    (detached : new.parent = none) : (tree.push new).2.WellFormed where
  linked id child := by
    rw [children_push childless, parent_push detached, wellFormed.linked]
  nodup id := by
    rw [children_push childless]
    exact wellFormed.nodup id
  grounded id := by
    obtain ⟨depth, grounded⟩ := wellFormed.grounded id
    refine ⟨depth, ?_⟩
    induction grounded with
    | root root => exact .root ((parent_push detached _).trans root)
    | child linked _ hypothesis => exact .child ((parent_push detached _).trans linked) hypothesis
  contained id nonempty := by
    rw [children_push childless] at nonempty
    have different : id ≠ ⟨tree.size⟩ := by
      rintro rfl
      rw [children, node_of_not_has not_has_size] at nonempty
      exact nonempty rfl
    rw [kind, node_push_of_ne different]
    exact wellFormed.contained id nonempty

end push

end Tree

/-!
## Siblings and owners

On well-formed trees the node behind and the node before are inverse to each other, a node can always be
taken from its parent, and the check of owners finds nothing to report, whatever node it starts at.
-/

namespace Tree

variable {tree : Tree}

/-! ### Siblings -/

theorem WellFormed.nextSibling?_eq_some_iff (wellFormed : tree.WellFormed) {id next : NodeId} :
    tree.nextSibling? id = some next ↔
      ∃ parent index, (tree.children parent)[index]? = some id ∧
        (tree.children parent)[index + 1]? = some next := by
  simp only [nextSibling?, Option.bind_eq_bind, Option.bind_eq_some_iff]
  constructor
  · rintro ⟨parent, -, index, found, behind⟩
    exact ⟨parent, index, getElem?_of_indexOf? found, behind⟩
  · rintro ⟨parent, index, stands, behind⟩
    have linked := (wellFormed.linked parent id).1 (List.mem_of_getElem? stands)
    exact ⟨parent, linked, index, wellFormed.indexOf?_eq_some_iff.2 stands, behind⟩

theorem WellFormed.previousSibling?_eq_some_iff (wellFormed : tree.WellFormed) {id previous : NodeId} :
    tree.previousSibling? id = some previous ↔
      ∃ parent index, (tree.children parent)[index]? = some previous ∧
        (tree.children parent)[index + 1]? = some id := by
  simp only [previousSibling?, Option.bind_eq_bind, Option.bind_eq_some_iff]
  constructor
  · rintro ⟨parent, -, place, found, before⟩
    cases place with
    | zero => cases before
    | succ index => exact ⟨parent, index, before, getElem?_of_indexOf? found⟩
  · rintro ⟨parent, index, before, stands⟩
    have linked := (wellFormed.linked parent id).1 (List.mem_of_getElem? stands)
    exact ⟨parent, linked, index + 1, wellFormed.indexOf?_eq_some_iff.2 stands, before⟩

/-- One node is behind another one exactly when that one is before it. -/
theorem WellFormed.nextSibling?_iff_previousSibling? (wellFormed : tree.WellFormed) {first second : NodeId} :
    tree.nextSibling? first = some second ↔ tree.previousSibling? second = some first := by
  rw [wellFormed.nextSibling?_eq_some_iff, wellFormed.previousSibling?_eq_some_iff]

/-- Taking a node from its parent is never refused. -/
theorem WellFormed.detach_isOk (wellFormed : tree.WellFormed) (id : NodeId) :
    ∃ after, tree.detach id = .ok after := by
  cases linked : tree.parent id with
  | none => exact ⟨tree, by simp only [detach, linked]⟩
  | some parent =>
      obtain ⟨index, found⟩ := indexOf?_isSome_iff.2 ((wellFormed.linked parent id).2 linked)
      simp only [detach, linked]
      exact ⟨_, remove_eq_ok_iff.2 ⟨index, found, rfl⟩⟩

/-! ### Apart from each other -/

/-- Of two nodes on one path, one is above the other. -/
theorem OnPath.comparable {first second id : NodeId} (left : tree.OnPath first id)
    (right : tree.OnPath second id) : tree.OnPath first second ∨ tree.OnPath second first := by
  induction left with
  | self => exact .inr right
  | step linked upper hypothesis =>
      rcases onPath_iff.1 right with rfl | ⟨parent, other, above⟩
      · exact .inl (.step linked upper)
      · obtain rfl := Option.some.inj (linked.symm.trans other)
        exact hypothesis above

/-- What is below one child is not below another one. -/
theorem WellFormed.eq_of_onPath_of_siblings (wellFormed : tree.WellFormed) {parent first second id : NodeId}
    (left : tree.parent first = some parent) (right : tree.parent second = some parent)
    (above : tree.OnPath first id) (other : tree.OnPath second id) : first = second := by
  -- A child above its sibling would be above the parent of both.
  have lower : ∀ {upper lower : NodeId}, tree.parent upper = some parent → tree.parent lower = some parent →
      tree.OnPath upper lower → upper = lower := by
    intro upper lower upperLinked lowerLinked onPath
    rcases onPath_iff.1 onPath with equal | ⟨between, linked, onParent⟩
    · exact equal
    · obtain rfl := Option.some.inj (lowerLinked.symm.trans linked)
      obtain ⟨depth, grounded⟩ := wellFormed.grounded upper
      exact absurd onParent (not_onPath_parent grounded upperLinked)
  rcases above.comparable other with onPath | onPath
  · exact lower left right onPath
  · exact (lower right left onPath).symm

/-- No node comes up twice in a preorder. -/
theorem WellFormed.nodup_preorder (wellFormed : tree.WellFormed) (top : NodeId) : (tree.preorder top).Nodup := by
  induction top using wellFormed.below_induction with
  | step id hypothesis =>
      rw [wellFormed.preorder_eq id]
      refine List.nodup_cons.2 ⟨fun member => ?_, List.nodup_flatMap.2 ⟨hypothesis, ?_⟩⟩
      · obtain ⟨child, listed, inside⟩ := List.mem_flatMap.1 member
        obtain ⟨depth, grounded⟩ := wellFormed.grounded child
        exact not_onPath_parent grounded ((wellFormed.linked id child).1 listed) (wellFormed.mem_preorder_iff.1 inside)
      · refine (wellFormed.nodup id).imp_of_mem fun left right different other first second => different ?_
        exact wellFormed.eq_of_onPath_of_siblings ((wellFormed.linked id _).1 left) ((wellFormed.linked id _).1 right)
          (wellFormed.mem_preorder_iff.1 first) (wellFormed.mem_preorder_iff.1 second)

/-! ### The check of owners -/

/-- A check of siblings passes when the check of each one does, since nothing is below two of them. -/
theorem foldlM_checkBelow_eq_ok {budget : Nat} {parent : NodeId} (wellFormed : tree.WellFormed)
    (passes : ∀ (seen : List NodeId) (id : NodeId), (∀ node, tree.OnPath id node → node ∉ seen) →
      ∃ after, tree.checkBelow budget seen id = .ok after ∧
        ∀ node ∈ after, node ∈ seen ∨ tree.OnPath id node)
    {children seen : List NodeId} (distinct : children.Nodup)
    (linked : ∀ child ∈ children, tree.parent child = some parent)
    (unseen : ∀ child ∈ children, ∀ node, tree.OnPath child node → node ∉ seen) :
    ∃ after, children.foldlM (tree.checkBelow budget) seen = .ok after ∧
      ∀ node ∈ after, node ∈ seen ∨ ∃ child ∈ children, tree.OnPath child node := by
  induction children generalizing seen with
  | nil => exact ⟨seen, rfl, fun node member => .inl member⟩
  | cons child children hypothesis =>
      obtain ⟨middle, checked, added⟩ := passes seen child (unseen child List.mem_cons_self)
      have apart : ∀ other ∈ children, ∀ node, tree.OnPath other node → node ∉ middle := by
        intro other member node below inside
        rcases added node inside with old | above
        · exact unseen other (List.mem_cons_of_mem _ member) node below old
        · have same := wellFormed.eq_of_onPath_of_siblings (linked child List.mem_cons_self)
            (linked other (List.mem_cons_of_mem _ member)) above below
          exact (List.nodup_cons.1 distinct).1 (same ▸ member)
      obtain ⟨after, rest, restAdded⟩ := hypothesis (List.nodup_cons.1 distinct).2
        (fun other member => linked other (List.mem_cons_of_mem _ member)) apart
      refine ⟨after, ?_, ?_⟩
      · rw [List.foldlM_cons, checked]
        exact rest
      · intro node member
        rcases restAdded node member with inside | ⟨other, among, above⟩
        · rcases added node inside with old | above
          · exact .inl old
          · exact .inr ⟨child, List.mem_cons_self, above⟩
        · exact .inr ⟨other, List.mem_cons_of_mem _ among, above⟩

/-- The check passes below a node none of whose subtree was seen, and adds only nodes of that subtree. -/
theorem WellFormed.checkBelow_eq_ok (wellFormed : tree.WellFormed) (budget : Nat) {seen : List NodeId}
    {id : NodeId} (unseen : ∀ node, tree.OnPath id node → node ∉ seen) :
    ∃ after, tree.checkBelow budget seen id = .ok after ∧
      ∀ node ∈ after, node ∈ seen ∨ tree.OnPath id node := by
  induction budget generalizing seen id with
  | zero => exact ⟨seen, rfl, fun node member => .inl member⟩
  | succ budget hypothesis =>
      have fresh : seen.contains id = false := by
        rw [Bool.eq_false_iff]
        intro contained
        exact unseen id .self (List.contains_iff_mem.1 contained)
      have links : ∀ child ∈ tree.children id, tree.parent child = some id := fun child member =>
        (wellFormed.linked id child).1 member
      have agreed : ((tree.children id).find? fun child => tree.parent child != some id) = none := by
        rw [List.find?_eq_none]
        intro child member
        simp [links child member]
      have apart : ∀ child ∈ tree.children id, ∀ node, tree.OnPath child node → node ∉ id :: seen := by
        intro child member node below inside
        rcases List.mem_cons.1 inside with rfl | inside
        · obtain ⟨depth, grounded⟩ := wellFormed.grounded child
          exact not_onPath_parent grounded (links child member) below
        · exact unseen node (OnPath.trans (.step (links child member) .self) below) inside
      obtain ⟨after, checked, added⟩ := foldlM_checkBelow_eq_ok wellFormed
        (fun seen id unseen => hypothesis unseen) (wellFormed.nodup id) links apart
      refine ⟨after, ?_, ?_⟩
      · simp only [checkBelow, fresh, agreed]
        exact checked
      · intro node member
        rcases added node member with inside | ⟨child, among, below⟩
        · rcases List.mem_cons.1 inside with rfl | old
          · exact .inr .self
          · exact .inl old
        · exact .inr (OnPath.trans (.step (links child among) .self) below)

/-- The check of owners passes at every node of a well-formed tree. -/
theorem WellFormed.checkOwnership_eq_ok (wellFormed : tree.WellFormed) (root : NodeId) :
    tree.checkOwnership root = .ok () := by
  have unseen : ∀ node, tree.OnPath root node → node ∉ ([] : List NodeId) := fun _ _ => List.not_mem_nil
  obtain ⟨after, checked, -⟩ := wellFormed.checkBelow_eq_ok (tree.depthBound + 1) unseen
  rw [checkOwnership, checked]
  rfl

end Tree

end HtmlTemplate
