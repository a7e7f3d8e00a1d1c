import HtmlTemplate.Tree.Edit
import Mathlib.Data.List.GetD
import Mathlib.Tactic.Common

/-!
# Reading changed trees

Every edit is made of a few basic changes: a node more, another parent link, another list of children.
The lemmas of this module say what each of them does to the node under a number, field by field, so that
later modules need not look into the list of nodes.
-/

namespace HtmlTemplate
namespace Tree

/-- The number was given out to a node. -/
def Has (tree : Tree) (id : NodeId) : Prop :=
  id.index < tree.size

instance (tree : Tree) (id : NodeId) : Decidable (tree.Has id) :=
  inferInstanceAs (Decidable (id.index < tree.size))

/-! ## Numbers that were not given out -/

theorem node_of_not_has {tree : Tree} {id : NodeId} (absent : ¬tree.Has id) :
    tree.node id = default := by
  unfold Has size at absent
  rw [node, List.getD_eq_default _ _ (Nat.le_of_not_lt absent)]

theorem has_of_parent {tree : Tree} {id parent : NodeId} (linked : tree.parent id = some parent) :
    tree.Has id := by
  by_contra absent
  rw [Tree.parent, node_of_not_has absent] at linked
  change none = some parent at linked
  cases linked

theorem has_of_mem_children {tree : Tree} {parent child : NodeId}
    (member : child ∈ tree.children parent) : tree.Has parent := by
  by_contra absent
  rw [children, node_of_not_has absent] at member
  exact absurd member (List.not_mem_nil)

theorem state_of_not_has {tree : Tree} {id : NodeId} (absent : ¬tree.Has id) :
    (tree.node id).state = .unvisited := by
  rw [node_of_not_has absent]
  rfl

theorem kind_of_not_has {tree : Tree} {id : NodeId} (absent : ¬tree.Has id) :
    tree.kind id = .document := by
  rw [kind, node_of_not_has absent]
  rfl

/-! ## One node changed -/

@[simp] theorem size_update (tree : Tree) (id : NodeId) (change : Node → Node) :
    (tree.update id change).size = tree.size := by
  simp [update, size]

@[simp] theorem has_update (tree : Tree) (id other : NodeId) (change : Node → Node) :
    (tree.update id change).Has other ↔ tree.Has other := by
  simp [Has]

@[simp] theorem file_update (tree : Tree) (id : NodeId) (change : Node → Node) :
    (tree.update id change).file = tree.file := rfl

theorem node_update_self {tree : Tree} {id : NodeId} (present : tree.Has id) (change : Node → Node) :
    (tree.update id change).node id = change (tree.node id) := by
  unfold Has size at present
  simp [update, node, present]

theorem node_update_of_ne {tree : Tree} {id other : NodeId} (different : other ≠ id)
    (change : Node → Node) : (tree.update id change).node other = tree.node other := by
  have apart : id.index ≠ other.index := by
    intro equal
    apply different
    cases id
    cases other
    simpa using equal.symm
  simp [update, node, apart]

/-- A change of one node keeps whatever it keeps of that node. -/
theorem field_update {β : Type} (tree : Tree) (id other : NodeId) {change : Node → Node} (field : Node → β)
    (keeps : ∀ node, field (change node) = field node) :
    field ((tree.update id change).node other) = field (tree.node other) := by
  by_cases different : other = id
  · subst different
    by_cases present : tree.Has other
    · rw [node_update_self present, keeps]
    · rw [node_of_not_has present, node_of_not_has (by simpa using present)]
  · rw [node_update_of_ne different]

/-! ## A parent link set -/

section setParent

variable (tree : Tree) (parent : Option NodeId) (id other : NodeId)

@[simp] theorem size_setParent : (tree.setParent parent id).size = tree.size :=
  size_update _ _ _

@[simp] theorem has_setParent : (tree.setParent parent id).Has other ↔ tree.Has other :=
  has_update _ _ _ _

@[simp] theorem file_setParent : (tree.setParent parent id).file = tree.file := rfl

@[simp] theorem kind_setParent : (tree.setParent parent id).kind other = tree.kind other :=
  field_update tree id other Node.kind fun _ => rfl

@[simp] theorem children_setParent : (tree.setParent parent id).children other = tree.children other :=
  field_update tree id other Node.children fun _ => rfl

@[simp] theorem state_setParent :
    ((tree.setParent parent id).node other).state = (tree.node other).state :=
  field_update tree id other Node.state fun _ => rfl

@[simp] theorem attributes_setParent :
    ((tree.setParent parent id).node other).attributes = (tree.node other).attributes :=
  field_update tree id other Node.attributes fun _ => rfl

@[simp] theorem position_setParent :
    ((tree.setParent parent id).node other).position = (tree.node other).position :=
  field_update tree id other Node.position fun _ => rfl

variable {tree id other}

theorem parent_setParent_self (present : tree.Has id) :
    (tree.setParent parent id).parent id = parent := by
  rw [Tree.parent, setParent, node_update_self present]

theorem parent_setParent_of_ne (different : other ≠ id) :
    (tree.setParent parent id).parent other = tree.parent other := by
  rw [Tree.parent, setParent, node_update_of_ne different]
  rfl

end setParent

/-! ## Several parent links set -/

section setParents

variable (tree : Tree) (parent : Option NodeId) (ids : List NodeId) (other : NodeId)

/-- What no single parent link changes, several do not change. -/
theorem setParents_induction {motive : Tree → Prop} (start : motive tree)
    (step : ∀ tree id, motive tree → motive (tree.setParent parent id)) :
    motive (tree.setParents parent ids) := by
  unfold setParents
  induction ids generalizing tree with
  | nil => exact start
  | cons id ids hypothesis => exact hypothesis _ (step tree id start)

@[simp] theorem size_setParents : (tree.setParents parent ids).size = tree.size :=
  setParents_induction (motive := fun after => after.size = tree.size) tree parent ids rfl
    fun _ _ same => (size_setParent _ _ _).trans same

@[simp] theorem has_setParents : (tree.setParents parent ids).Has other ↔ tree.Has other := by
  simp [Has]

@[simp] theorem file_setParents : (tree.setParents parent ids).file = tree.file :=
  setParents_induction (motive := fun after => after.file = tree.file) tree parent ids rfl
    fun _ _ same => same

@[simp] theorem kind_setParents : (tree.setParents parent ids).kind other = tree.kind other :=
  setParents_induction (motive := fun after => after.kind other = tree.kind other) tree parent ids rfl
    fun _ _ same => (kind_setParent _ _ _ _).trans same

@[simp] theorem children_setParents :
    (tree.setParents parent ids).children other = tree.children other :=
  setParents_induction (motive := fun after => after.children other = tree.children other) tree parent ids
    rfl fun _ _ same => (children_setParent _ _ _ _).trans same

@[simp] theorem state_setParents :
    ((tree.setParents parent ids).node other).state = (tree.node other).state :=
  setParents_induction (motive := fun after => (after.node other).state = (tree.node other).state) tree
    parent ids rfl fun _ _ same => (state_setParent _ _ _ _).trans same

@[simp] theorem attributes_setParents :
    ((tree.setParents parent ids).node other).attributes = (tree.node other).attributes :=
  setParents_induction (motive := fun after => (after.node other).attributes = (tree.node other).attributes)
    tree parent ids rfl fun _ _ same => (attributes_setParent _ _ _ _).trans same

@[simp] theorem position_setParents :
    ((tree.setParents parent ids).node other).position = (tree.node other).position :=
  setParents_induction (motive := fun after => (after.node other).position = (tree.node other).position)
    tree parent ids rfl fun _ _ same => (position_setParent _ _ _ _).trans same

variable {tree ids other}

theorem parent_setParents_of_notMem (outside : other ∉ ids) :
    (tree.setParents parent ids).parent other = tree.parent other := by
  unfold setParents
  induction ids generalizing tree with
  | nil => rfl
  | cons id ids hypothesis =>
      rw [List.foldl_cons, hypothesis (List.not_mem_of_not_mem_cons outside),
        parent_setParent_of_ne _ (List.ne_of_not_mem_cons outside)]

theorem parent_setParents_of_mem (inside : other ∈ ids) (present : tree.Has other) :
    (tree.setParents parent ids).parent other = parent := by
  induction ids generalizing tree with
  | nil => exact absurd inside List.not_mem_nil
  | cons id ids hypothesis =>
      change ((tree.setParent parent id).setParents parent ids).parent other = parent
      by_cases later : other ∈ ids
      · exact hypothesis later (by simpa using present)
      · obtain rfl : other = id := (List.mem_cons.1 inside).resolve_right later
        rw [parent_setParents_of_notMem parent later, parent_setParent_self parent present]

end setParents

/-! ## Another list of children -/

section setChildren

variable (tree : Tree) (id other : NodeId) (list : List NodeId)

@[simp] theorem size_setChildren : (tree.setChildren id list).size = tree.size :=
  size_update _ _ _

@[simp] theorem has_setChildren : (tree.setChildren id list).Has other ↔ tree.Has other :=
  has_update _ _ _ _

@[simp] theorem file_setChildren : (tree.setChildren id list).file = tree.file := rfl

@[simp] theorem kind_setChildren : (tree.setChildren id list).kind other = tree.kind other :=
  field_update tree id other Node.kind fun _ => rfl

@[simp] theorem parent_setChildren : (tree.setChildren id list).parent other = tree.parent other :=
  field_update tree id other Node.parent fun _ => rfl

@[simp] theorem state_setChildren :
    ((tree.setChildren id list).node other).state = (tree.node other).state :=
  field_update tree id other Node.state fun _ => rfl

@[simp] theorem attributes_setChildren :
    ((tree.setChildren id list).node other).attributes = (tree.node other).attributes :=
  field_update tree id other Node.attributes fun _ => rfl

@[simp] theorem position_setChildren :
    ((tree.setChildren id list).node other).position = (tree.node other).position :=
  field_update tree id other Node.position fun _ => rfl

variable {tree id other}

theorem children_setChildren_self (present : tree.Has id) :
    (tree.setChildren id list).children id = list := by
  rw [children, setChildren, node_update_self present]

theorem children_setChildren_of_ne (different : other ≠ id) :
    (tree.setChildren id list).children other = tree.children other := by
  rw [children, setChildren, node_update_of_ne different]
  rfl

end setChildren

/-! ## A node more -/

section push

variable (tree : Tree) (new : Node)

@[simp] theorem push_fst : (tree.push new).1 = ⟨tree.size⟩ := rfl

@[simp] theorem size_push : (tree.push new).2.size = tree.size + 1 := by
  simp [push, size]

@[simp] theorem file_push : (tree.push new).2.file = tree.file := rfl

theorem has_push {tree : Tree} {id : NodeId} :
    (tree.push new).2.Has id ↔ tree.Has id ∨ id = ⟨tree.size⟩ := by
  obtain ⟨index⟩ := id
  simp only [Has, size_push, NodeId.mk.injEq]
  omega

@[simp] theorem node_push_self : (tree.push new).2.node ⟨tree.size⟩ = new := by
  simp [push, node, size]

variable {tree}

theorem node_push_of_has {id : NodeId} (present : tree.Has id) :
    (tree.push new).2.node id = tree.node id := by
  unfold Has size at present
  simp [push, node, List.getElem?_append_left present]

theorem ne_size_of_has {id : NodeId} (present : tree.Has id) : id ≠ ⟨tree.size⟩ := by
  rintro rfl
  exact absurd present (Nat.lt_irrefl _)

theorem not_has_size : ¬tree.Has ⟨tree.size⟩ :=
  Nat.lt_irrefl _

end push

end Tree
end HtmlTemplate
