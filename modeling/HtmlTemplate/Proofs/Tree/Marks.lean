import HtmlTemplate.Proofs.Tree.Ancestry

/-!
# Marks of the walk

The walk itself edits no tree. It marks nodes with how far it has come, and text with what becomes of its
whitespace; links, kinds and attributes stay.
-/

namespace HtmlTemplate
namespace Tree

/-- The trees have the same nodes and links, the marks on the nodes apart. -/
structure SameShape (before after : Tree) : Prop where
  file : after.file = before.file
  size : after.size = before.size
  kind : ∀ id, after.kind id = before.kind id
  attributes : ∀ id, (after.node id).attributes = (before.node id).attributes
  position : ∀ id, (after.node id).position = (before.node id).position
  children : ∀ id, after.children id = before.children id
  parent : ∀ id, after.parent id = before.parent id

namespace SameShape

variable {before middle after : Tree}

theorem refl (tree : Tree) : tree.SameShape tree :=
  ⟨rfl, rfl, fun _ => rfl, fun _ => rfl, fun _ => rfl, fun _ => rfl, fun _ => rfl⟩

theorem trans (first : before.SameShape middle) (second : middle.SameShape after) :
    before.SameShape after where
  file := second.file.trans first.file
  size := second.size.trans first.size
  kind id := (second.kind id).trans (first.kind id)
  attributes id := (second.attributes id).trans (first.attributes id)
  position id := (second.position id).trans (first.position id)
  children id := (second.children id).trans (first.children id)
  parent id := (second.parent id).trans (first.parent id)

theorem symm (same : before.SameShape after) : after.SameShape before where
  file := same.file.symm
  size := same.size.symm
  kind id := (same.kind id).symm
  attributes id := (same.attributes id).symm
  position id := (same.position id).symm
  children id := (same.children id).symm
  parent id := (same.parent id).symm

theorem has_iff (same : before.SameShape after) {id : NodeId} : after.Has id ↔ before.Has id := by
  unfold Has
  rw [same.size]

theorem onPath (same : before.SameShape after) {top id : NodeId} (onPath : before.OnPath top id) :
    after.OnPath top id := by
  induction onPath with
  | self => exact .self
  | step linked _ hypothesis => exact .step ((same.parent _).trans linked) hypothesis

theorem onPath_iff (same : before.SameShape after) {top id : NodeId} :
    after.OnPath top id ↔ before.OnPath top id :=
  ⟨same.symm.onPath, same.onPath⟩

theorem depth (same : before.SameShape after) {id : NodeId} {depth : Nat} (grounded : before.Depth id depth) :
    after.Depth id depth := by
  induction grounded with
  | root root => exact .root ((same.parent _).trans root)
  | child linked _ hypothesis => exact .child ((same.parent _).trans linked) hypothesis

theorem wellFormed (same : before.SameShape after) (wellFormed : before.WellFormed) : after.WellFormed where
  linked parent child := by
    rw [same.children, same.parent, wellFormed.linked]
  nodup id := by
    rw [same.children]
    exact wellFormed.nodup id
  grounded id := by
    obtain ⟨depth, grounded⟩ := wellFormed.grounded id
    exact ⟨depth, same.depth grounded⟩
  contained id nonempty := by
    rw [same.children] at nonempty
    rw [same.kind]
    exact wellFormed.contained id nonempty

end SameShape

/-! ## How far the walk has come -/

variable {tree : Tree} {id other : NodeId} {mark : WalkState}

/-- A change that gives nodes a mark, or the marker that their text is kept, leaves the shape of the tree as it is. -/
theorem sameShape_update (tree : Tree) (id : NodeId) {change : Node → Node}
    (keeps : ∀ node, change node = { node with state := (change node).state, preserve := (change node).preserve }) :
    tree.SameShape (tree.update id change) where
  file := rfl
  size := size_update _ _ _
  kind other := field_update tree id other Node.kind fun node => by rw [keeps]
  attributes other := field_update tree id other Node.attributes fun node => by rw [keeps]
  position other := field_update tree id other Node.position fun node => by rw [keeps]
  children other := field_update tree id other Node.children fun node => by rw [keeps]
  parent other := field_update tree id other Node.parent fun node => by rw [keeps]

theorem sameShape_setState (tree : Tree) (id : NodeId) (mark : WalkState) :
    tree.SameShape (tree.setState id mark) :=
  sameShape_update tree id fun _ => rfl

theorem state_setState_self (present : tree.Has id) : ((tree.setState id mark).node id).state = mark := by
  rw [setState, node_update_self present]

theorem state_setState_of_ne (different : other ≠ id) :
    ((tree.setState id mark).node other).state = (tree.node other).state := by
  rw [setState, node_update_of_ne different]

theorem sameShape_setPreserve (tree : Tree) (id : NodeId) (preserve : Bool) :
    tree.SameShape (tree.setPreserve id preserve) :=
  sameShape_update tree id fun _ => rfl

theorem state_setPreserve {preserve : Bool} :
    ((tree.setPreserve id preserve).node other).state = (tree.node other).state :=
  field_update tree id other Node.state (by intro; rfl)

end Tree
end HtmlTemplate
