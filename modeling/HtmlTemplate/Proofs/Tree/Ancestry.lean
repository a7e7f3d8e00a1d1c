import HtmlTemplate.Proofs.Tree.Access
import HtmlTemplate.Tree.Traversal
import Mathlib.Data.List.Nodup
import Mathlib.Data.List.Perm.Subperm

/-!
# Ancestors and well-formed trees

A tree is well formed when lists of children and parent links agree, no list names a node twice, every
path of parent links ends, and only containers have children. On well-formed trees a path is no longer
than there are nodes, so the bounded search for an ancestor is a search of the whole path. In a tree that was
made from the top down every node has a larger number than its parent. Such trees are easily seen to be well
formed: it is enough to look at each node and its children once.
-/

namespace HtmlTemplate
namespace Tree

/-- The candidate is the node or stands on the path of parent links that starts there. -/
inductive OnPath (tree : Tree) (candidate : NodeId) : NodeId → Prop
  | self : OnPath tree candidate candidate
  | step {id parent : NodeId} :
      tree.parent id = some parent → OnPath tree candidate parent → OnPath tree candidate id

/-- The path of parent links that starts at the node ends after so many links. -/
inductive Depth (tree : Tree) : NodeId → Nat → Prop
  | root {id : NodeId} : tree.parent id = none → Depth tree id 0
  | child {id parent : NodeId} {depth : Nat} :
      tree.parent id = some parent → Depth tree parent depth → Depth tree id (depth + 1)

/-- Links in both directions agree and have the shape of a forest of containers. -/
structure WellFormed (tree : Tree) : Prop where
  /-- A node is listed under another one exactly when that one is its parent. -/
  linked : ∀ parent child, child ∈ tree.children parent ↔ tree.parent child = some parent
  /-- No node is listed twice under another one. -/
  nodup : ∀ id, (tree.children id).Nodup
  /-- The path of parent links ends, whatever node it starts at. -/
  grounded : ∀ id, ∃ depth, tree.Depth id depth
  /-- Only containers have children. -/
  contained : ∀ id, tree.children id ≠ [] → (tree.kind id).isContainer = true

variable {tree : Tree}

/-! ## Paths -/

theorem OnPath.trans {top middle id : NodeId} (upper : tree.OnPath top middle)
    (lower : tree.OnPath middle id) : tree.OnPath top id := by
  induction lower with
  | self => exact upper
  | step linked _ hypothesis => exact .step linked hypothesis

/-- Above a node there is nothing but its parent and what is above that one. -/
theorem onPath_iff {candidate id : NodeId} :
    tree.OnPath candidate id ↔
      candidate = id ∨ ∃ parent, tree.parent id = some parent ∧ tree.OnPath candidate parent := by
  constructor
  · intro onPath
    cases onPath with
    | self => exact .inl rfl
    | step linked upper => exact .inr ⟨_, linked, upper⟩
  · rintro (rfl | ⟨parent, linked, upper⟩)
    · exact .self
    · exact .step linked upper

/-- All that is below a node is below one of its children, but for the node itself. -/
theorem onPath_iff_below {top id : NodeId} :
    tree.OnPath top id ↔ id = top ∨ ∃ child, tree.parent child = some top ∧ tree.OnPath child id := by
  constructor
  · intro onPath
    induction onPath with
    | self => exact .inl rfl
    | @step id parent linked _ hypothesis =>
        rcases hypothesis with rfl | ⟨child, above, onPath⟩
        · exact .inr ⟨id, linked, .self⟩
        · exact .inr ⟨child, above, .step linked onPath⟩
  · rintro (rfl | ⟨child, linked, lower⟩)
    · exact .self
    · exact .trans (.step linked .self) lower

theorem onPath_of_root {candidate id : NodeId} (root : tree.parent id = none)
    (onPath : tree.OnPath candidate id) : candidate = id := by
  rcases onPath_iff.1 onPath with equal | ⟨parent, linked, -⟩
  · exact equal
  · rw [root] at linked
    cases linked

theorem Depth.unique {id : NodeId} {first second : Nat} (left : tree.Depth id first)
    (right : tree.Depth id second) : first = second := by
  induction left generalizing second with
  | root root =>
      cases right with
      | root _ => rfl
      | child linked _ => rw [root] at linked; cases linked
  | child linked _ hypothesis =>
      cases right with
      | root root => rw [root] at linked; cases linked
      | child other upper =>
          obtain rfl := Option.some.inj (linked.symm.trans other)
          rw [hypothesis upper]

/-- Nodes on the path of a node are at smaller depths, the node itself apart. -/
theorem OnPath.depth_le {top id : NodeId} {upper lower : Nat} (onPath : tree.OnPath top id)
    (topDepth : tree.Depth top upper) (depth : tree.Depth id lower) :
    upper ≤ lower ∧ (upper = lower → top = id) := by
  induction onPath generalizing lower with
  | self => exact ⟨Nat.le_of_eq (topDepth.unique depth), fun _ => rfl⟩
  | step linked _ hypothesis =>
      cases depth with
      | root root => rw [root] at linked; cases linked
      | child other parentDepth =>
          obtain rfl := Option.some.inj (linked.symm.trans other)
          have bound := (hypothesis parentDepth).1
          exact ⟨by omega, by omega⟩

/-- No node is above its own parent. -/
theorem not_onPath_parent {id parent : NodeId} {depth : Nat} (grounded : tree.Depth id depth)
    (linked : tree.parent id = some parent) : ¬tree.OnPath id parent := by
  intro onPath
  cases grounded with
  | root root => rw [root] at linked; cases linked
  | child other parentDepth =>
      obtain rfl := Option.some.inj (linked.symm.trans other)
      have := (onPath.depth_le (.child linked parentDepth) parentDepth).1
      omega

theorem OnPath.antisymm {first second : NodeId} {depth : Nat} (grounded : tree.Depth first depth)
    (upper : tree.OnPath first second) (lower : tree.OnPath second first) : first = second := by
  rcases onPath_iff.1 lower with equal | ⟨parent, linked, above⟩
  · exact equal.symm
  · exact absurd (upper.trans above) (not_onPath_parent grounded linked)

/-- The path of a node, as a list without repetitions. -/
theorem Depth.exists_path {id : NodeId} {depth : Nat} (grounded : tree.Depth id depth) :
    ∃ path : List NodeId, path.length = depth + 1 ∧ path.Nodup ∧ ∀ step ∈ path, tree.OnPath step id := by
  induction grounded with
  | @root id root => exact ⟨[id], rfl, List.nodup_singleton id, by simp [OnPath.self]⟩
  | @child id parent depth linked upper hypothesis =>
      obtain ⟨path, length, distinct, above⟩ := hypothesis
      refine ⟨id :: path, by simp [length], List.nodup_cons.2 ⟨?_, distinct⟩, ?_⟩
      · intro member
        exact not_onPath_parent (.child linked upper) linked (above id member)
      · intro step member
        rcases List.mem_cons.1 member with rfl | member
        · exact .self
        · exact .step linked (above step member)

/-! ## Depths in well-formed trees -/

namespace WellFormed

theorem has_parent (wellFormed : tree.WellFormed) {id parent : NodeId}
    (linked : tree.parent id = some parent) : tree.Has parent :=
  has_of_mem_children ((wellFormed.linked parent id).2 linked)

theorem has_child (wellFormed : tree.WellFormed) {parent child : NodeId}
    (member : child ∈ tree.children parent) : tree.Has child :=
  has_of_parent ((wellFormed.linked parent child).1 member)

theorem has_of_onPath (wellFormed : tree.WellFormed) {top id : NodeId} (onPath : tree.OnPath top id)
    (present : tree.Has id) : tree.Has top := by
  induction onPath with
  | self => exact present
  | step linked _ hypothesis => exact hypothesis (wellFormed.has_parent linked)

/-- A path visits each node at most once. -/
theorem depth_lt_size (wellFormed : tree.WellFormed) {id : NodeId} {depth : Nat} (present : tree.Has id)
    (grounded : tree.Depth id depth) : depth < tree.size := by
  obtain ⟨path, length, distinct, above⟩ := grounded.exists_path
  have indices : (path.map NodeId.index).Nodup := by
    refine List.Nodup.map ?_ distinct
    rintro ⟨left⟩ ⟨right⟩ equal
    exact congrArg NodeId.mk equal
  have subset : path.map NodeId.index ⊆ List.range tree.size := by
    intro index member
    obtain ⟨step, inPath, rfl⟩ := List.mem_map.1 member
    exact List.mem_range.2 (wellFormed.has_of_onPath (above step inPath) present)
  have bound := (List.subperm_of_subset indices subset).length_le
  simp only [List.length_map, List.length_range] at bound
  omega

theorem depth_le_size (wellFormed : tree.WellFormed) {id : NodeId} {depth : Nat}
    (grounded : tree.Depth id depth) : depth ≤ tree.size := by
  by_cases present : tree.Has id
  · exact Nat.le_of_lt (wellFormed.depth_lt_size present grounded)
  · cases grounded with
    | root _ => exact Nat.zero_le _
    | child linked _ => exact absurd (has_of_parent linked) present

end WellFormed

/-! ## From the leaves up -/

/-- What holds of a node if it holds of its children holds of every node. -/
theorem WellFormed.below_induction (wellFormed : tree.WellFormed) {motive : NodeId → Prop}
    (step : ∀ id, (∀ child ∈ tree.children id, motive child) → motive id) (id : NodeId) : motive id := by
  obtain ⟨depth, grounded⟩ := wellFormed.grounded id
  induction height : tree.size - depth using Nat.strongRecOn generalizing id depth with
  | ind height hypothesis =>
      refine step id fun child member => ?_
      have lower := Depth.child ((wellFormed.linked id child).1 member) grounded
      have within := wellFormed.depth_lt_size (wellFormed.has_child member) lower
      exact hypothesis _ (by omega) child _ lower rfl

/-! ## The bounded search for an ancestor -/

/-- A budget above the depth of a node is enough to search its whole path. -/
theorem isOnPath_iff {candidate id : NodeId} {depth budget : Nat} (grounded : tree.Depth id depth)
    (enough : depth < budget) : tree.isOnPath candidate budget id = true ↔ tree.OnPath candidate id := by
  induction grounded generalizing budget with
  | @root id root =>
      obtain ⟨budget, rfl⟩ := Nat.exists_eq_succ_of_ne_zero (Nat.ne_of_gt enough)
      simp only [isOnPath, root, Bool.or_false, beq_iff_eq]
      exact ⟨fun equal => equal ▸ .self, fun onPath => (onPath_of_root root onPath).symm⟩
  | @child id parent depth linked _ hypothesis =>
      obtain ⟨budget, rfl⟩ := Nat.exists_eq_succ_of_ne_zero (Nat.ne_of_gt (Nat.zero_lt_of_lt enough))
      rw [onPath_iff]
      simp only [isOnPath, linked, Bool.or_eq_true, beq_iff_eq, Option.some.injEq, exists_eq_left',
        hypothesis (Nat.lt_of_succ_lt_succ enough), eq_comm (a := candidate)]

theorem WellFormed.isSelfOrAncestor_iff (wellFormed : tree.WellFormed) {candidate id : NodeId} :
    tree.isSelfOrAncestor candidate id = true ↔ tree.OnPath candidate id := by
  obtain ⟨depth, grounded⟩ := wellFormed.grounded id
  exact isOnPath_iff grounded (Nat.lt_succ_of_le (wellFormed.depth_le_size grounded))

/-! ## Preorder -/

theorem mem_preorderWithin_self (tree : Tree) (budget : Nat) (id : NodeId) :
    id ∈ tree.preorderWithin budget id := by
  cases budget with
  | zero => exact List.mem_singleton_self id
  | succ budget => exact List.mem_cons_self

theorem mem_preorderWithin_child {budget : Nat} {top id child : NodeId}
    (member : id ∈ tree.preorderWithin budget top) (listed : child ∈ tree.children id) :
    child ∈ tree.preorderWithin (budget + 1) top := by
  induction budget generalizing top with
  | zero =>
      obtain rfl := List.mem_singleton.1 member
      refine List.mem_cons_of_mem _ (List.mem_flatMap.2 ⟨child, listed, ?_⟩)
      exact mem_preorderWithin_self tree 0 child
  | succ budget hypothesis =>
      rcases List.mem_cons.1 member with rfl | below
      · refine List.mem_cons_of_mem _ (List.mem_flatMap.2 ⟨child, listed, ?_⟩)
        exact mem_preorderWithin_self tree (budget + 1) child
      · obtain ⟨between, among, inside⟩ := List.mem_flatMap.1 below
        exact List.mem_cons_of_mem _ (List.mem_flatMap.2 ⟨between, among, hypothesis inside⟩)

/-- All that is below a node comes up in its preorder. -/
theorem WellFormed.mem_preorder (wellFormed : tree.WellFormed) {top id : NodeId} (onPath : tree.OnPath top id) :
    id ∈ tree.preorder top := by
  have within : ∀ {depth budget : Nat}, tree.Depth id depth → depth ≤ budget →
      id ∈ tree.preorderWithin budget top := by
    induction onPath with
    | self => exact fun _ _ => mem_preorderWithin_self tree _ top
    | step linked _ hypothesis =>
        intro depth budget grounded enough
        cases grounded with
        | root root => cases root.symm.trans linked
        | child other upper =>
            obtain rfl := Option.some.inj (linked.symm.trans other)
            obtain ⟨budget, rfl⟩ := Nat.exists_eq_succ_of_ne_zero (Nat.ne_of_gt (Nat.zero_lt_of_lt enough))
            refine mem_preorderWithin_child (hypothesis upper (Nat.le_of_succ_le_succ enough)) ?_
            exact (wellFormed.linked _ _).2 linked
  obtain ⟨depth, grounded⟩ := wellFormed.grounded id
  exact within grounded (Nat.le_succ_of_le (wellFormed.depth_le_size grounded))

/-- A budget that reaches to the bottom of the tree is as good as a larger one. -/
theorem WellFormed.preorderWithin_succ (wellFormed : tree.WellFormed) {budget depth : Nat} {id : NodeId}
    (grounded : tree.Depth id depth) (enough : tree.size < depth + budget) :
    tree.preorderWithin (budget + 1) id = tree.preorderWithin budget id := by
  induction budget generalizing id depth with
  | zero =>
      have bound := wellFormed.depth_le_size grounded
      omega
  | succ budget hypothesis =>
      rw [preorderWithin, preorderWithin]
      refine congrArg (id :: ·) (List.flatMap_congr fun child member => ?_)
      exact hypothesis (.child ((wellFormed.linked id child).1 member) grounded) (by omega)

/-- A node comes up first, and then what is below each of its children. -/
theorem WellFormed.preorder_eq (wellFormed : tree.WellFormed) (id : NodeId) :
    tree.preorder id = id :: (tree.children id).flatMap tree.preorder := by
  obtain ⟨depth, grounded⟩ := wellFormed.grounded id
  refine congrArg (id :: ·) (List.flatMap_congr fun child member => ?_)
  exact (wellFormed.preorderWithin_succ (.child ((wellFormed.linked id child).1 member) grounded)
    (by omega)).symm

/-- In the preorder of a node comes up what is below it, and nothing else. -/
theorem WellFormed.mem_preorder_iff (wellFormed : tree.WellFormed) {top id : NodeId} :
    id ∈ tree.preorder top ↔ tree.OnPath top id := by
  refine ⟨fun member => ?_, wellFormed.mem_preorder⟩
  induction top using wellFormed.below_induction with
  | step top hypothesis =>
      rw [wellFormed.preorder_eq] at member
      rcases List.mem_cons.1 member with rfl | below
      · exact .self
      · obtain ⟨child, listed, inside⟩ := List.mem_flatMap.1 below
        exact (OnPath.step ((wellFormed.linked top child).1 listed) .self).trans (hypothesis child listed inside)

/-! ## Trees in the order of their nodes -/

/-- Every node is listed once under its parent and has a larger number, and only containers list nodes. -/
def Ordered (tree : Tree) : Prop :=
  ∀ index < tree.size,
    (tree.children ⟨index⟩).Nodup ∧
      (∀ child ∈ tree.children ⟨index⟩, index < child.index ∧ tree.parent child = some ⟨index⟩) ∧
      (∀ parent ∈ tree.parent ⟨index⟩, ⟨index⟩ ∈ tree.children parent) ∧
      (tree.children ⟨index⟩ ≠ [] → (tree.kind ⟨index⟩).isContainer = true)

instance (tree : Tree) : Decidable tree.Ordered :=
  inferInstanceAs (Decidable (∀ index < tree.size, _))

theorem Ordered.wellFormed (ordered : tree.Ordered) : tree.WellFormed where
  linked parent child := by
    constructor
    · intro member
      exact ((ordered parent.index (has_of_mem_children member)).2.1 child member).2
    · intro linked
      exact (ordered child.index (has_of_parent linked)).2.2.1 parent linked
  nodup id := by
    by_cases present : tree.Has id
    · exact (ordered id.index present).1
    · rw [children, node_of_not_has present]
      exact List.nodup_nil
  grounded id := by
    obtain ⟨index⟩ := id
    induction index using Nat.strongRecOn with
    | ind index hypothesis =>
        cases linked : tree.parent ⟨index⟩ with
        | none => exact ⟨0, .root linked⟩
        | some parent =>
            have listed := (ordered index (has_of_parent linked)).2.2.1 parent linked
            have less := ((ordered parent.index (has_of_mem_children listed)).2.1 _ listed).1
            obtain ⟨depth, grounded⟩ := hypothesis parent.index less
            exact ⟨depth + 1, .child linked grounded⟩
  contained id nonempty := by
    by_cases present : tree.Has id
    · exact (ordered id.index present).2.2.2 nonempty
    · rw [children, node_of_not_has present] at nonempty
      exact absurd rfl nonempty

end Tree
end HtmlTemplate
