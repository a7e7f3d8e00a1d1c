import HtmlTemplate.Proofs.Tree.Ancestry
import Mathlib.Data.List.Forall2

/-!
# Forms

A form is what can be seen of a part of a tree: kinds, attributes and the order of children, without the
numbers of nodes. Only nodes that were there before a walk are told apart; they are the sources of forms.
-/

namespace HtmlTemplate

/-- A node with all that is below it. -/
inductive Form
  | node (source : Option NodeId) (kind : Kind) (attributes : List Attribute) (children : List Form)

namespace Form

/-- The node that the form was read from, if it was there before the walk. -/
def source : Form → Option NodeId
  | .node source _ _ _ => source

/-- What the node is. -/
def kind : Form → Kind
  | .node _ kind _ _ => kind

/-- The attributes of the node. -/
def attributes : Form → List Attribute
  | .node _ _ attributes _ => attributes

/-- The forms below, in order. -/
def children : Form → List Form
  | .node _ _ _ children => children

/-- The form with other forms below. -/
def withChildren : Form → List Form → Form
  | .node source kind attributes _, children => .node source kind attributes children

@[ext]
theorem ext {first second : Form} (source : first.source = second.source) (kind : first.kind = second.kind)
    (attributes : first.attributes = second.attributes) (children : first.children = second.children) :
    first = second := by
  cases first
  cases second
  simp_all only [Form.source, Form.kind, Form.attributes, Form.children]

/-- A node that a walk makes: it has no source and no attributes. -/
def construct (kind : Kind) (children : List Form) : Form :=
  .node none kind [] children

end Form

namespace Tree

/-- The node as a source, if its number is below the limit. -/
def sourceOf (limit : Nat) (id : NodeId) : Option NodeId :=
  if id.index < limit then some id else none

/-- The form of a node, with the nodes below the limit as sources. The budget bounds the depth. -/
def formWithin (tree : Tree) (limit : Nat) : Nat → NodeId → Form
  | 0, id => .node (sourceOf limit id) (tree.kind id) (tree.node id).attributes []
  | budget + 1, id => .node (sourceOf limit id) (tree.kind id) (tree.node id).attributes
      ((tree.children id).map (tree.formWithin limit budget))

/-- The form of a node, with the nodes below the limit as sources. -/
def form (tree : Tree) (limit : Nat) (id : NodeId) : Form :=
  tree.formWithin limit tree.depthBound id

mutual

/-- The tree shows the form at the node. -/
def Shows (tree : Tree) (limit : Nat) : Form → NodeId → Prop
  | .node source kind attributes children, id =>
      source = sourceOf limit id ∧ tree.kind id = kind ∧ (tree.node id).attributes = attributes ∧
        tree.ShowsAll limit children (tree.children id)

/-- The tree shows the forms at the nodes, in order. -/
def ShowsAll (tree : Tree) (limit : Nat) : List Form → List NodeId → Prop
  | [], ids => ids = []
  | form :: forms, ids =>
      ∃ id rest, ids = id :: rest ∧ tree.Shows limit form id ∧ tree.ShowsAll limit forms rest

end

variable {tree before after : Tree} {limit : Nat} {form : Form} {forms : List Form} {id : NodeId}

/-- Relations that agree on the members of two lists relate the lists alike. -/
theorem forall₂_imp_of_mem {α β : Type} {first second : α → β → Prop} {left : List α} {right : List β}
    (related : List.Forall₂ first left right)
    (agree : ∀ one ∈ left, ∀ other ∈ right, first one other → second one other) :
    List.Forall₂ second left right := by
  induction related with
  | nil => exact .nil
  | cons head _ hypothesis =>
      refine .cons (agree _ List.mem_cons_self _ List.mem_cons_self head) (hypothesis ?_)
      intro one among other member holds
      exact agree one (List.mem_cons_of_mem _ among) other (List.mem_cons_of_mem _ member) holds

theorem showsAll_iff {ids : List NodeId} :
    tree.ShowsAll limit forms ids ↔ List.Forall₂ (tree.Shows limit) forms ids := by
  induction forms generalizing ids with
  | nil => simp [ShowsAll]
  | cons form forms hypothesis =>
      simp only [ShowsAll, hypothesis, List.forall₂_cons_left_iff]
      constructor
      · rintro ⟨id, rest, rfl, first, others⟩
        exact ⟨id, rest, first, others, rfl⟩
      · rintro ⟨id, rest, first, others, rfl⟩
        exact ⟨id, rest, rfl, first, others⟩

theorem shows_iff : tree.Shows limit form id ↔ form.source = sourceOf limit id ∧ tree.kind id = form.kind ∧
    (tree.node id).attributes = form.attributes ∧
      List.Forall₂ (tree.Shows limit) form.children (tree.children id) := by
  cases form
  rw [Shows, showsAll_iff]
  rfl

end Tree

/-- What holds of a form when it holds of all forms below holds of every form. -/
theorem Form.induction {motive : Form → Prop}
    (node : ∀ form : Form, (∀ child ∈ form.children, motive child) → motive form) (form : Form) :
    motive form := by
  refine Form.rec (motive_1 := motive) (motive_2 := fun forms => ∀ child ∈ forms, motive child) ?_ ?_ ?_ form
  · exact fun source kind attributes children below => node (.node source kind attributes children) below
  · intro child member
    cases member
  · intro first rest ofFirst ofRest child member
    rcases List.mem_cons.1 member with rfl | later
    · exact ofFirst
    · exact ofRest child later

namespace Tree

variable {tree before after : Tree} {limit : Nat} {form : Form} {forms : List Form} {id : NodeId}

/-! ## Frames -/

/-- What is shown stays when nothing changes in a region that is closed under children. -/
theorem Shows.of_region (region : NodeId → Prop)
    (kind : ∀ id, region id → after.kind id = before.kind id)
    (attributes : ∀ id, region id → (after.node id).attributes = (before.node id).attributes)
    (children : ∀ id, region id → after.children id = before.children id)
    (closed : ∀ id, region id → ∀ child ∈ before.children id, region child)
    (shows : before.Shows limit form id) (inside : region id) : after.Shows limit form id := by
  induction form using Form.induction generalizing id with
  | node form below =>
      obtain ⟨source, sameKind, sameAttributes, forms⟩ := shows_iff.1 shows
      refine shows_iff.2 ⟨source, ?_, ?_, ?_⟩
      · rw [kind id inside, sameKind]
      · rw [attributes id inside, sameAttributes]
      · rw [children id inside]
        refine forall₂_imp_of_mem forms fun child among other member shown => ?_
        exact below child among shown (closed id inside other member)

/-- A tree shows at most one form at a node. -/
theorem Shows.unique {other : Form} (shows : tree.Shows limit form id) (alike : tree.Shows limit other id) :
    form = other := by
  induction form using Form.induction generalizing other id with
  | node form below =>
      obtain ⟨source, kind, attributes, forms⟩ := shows_iff.1 shows
      obtain ⟨otherSource, otherKind, otherAttributes, others⟩ := shows_iff.1 alike
      have children : form.children = other.children := by
        generalize tree.children id = ids at forms others
        generalize form.children = left at below forms
        generalize other.children = right at others
        induction forms generalizing right with
        | nil =>
            cases others
            rfl
        | cons first _ hypothesis =>
            cases others with
            | cons second rest =>
                rw [below _ List.mem_cons_self first second,
                  hypothesis (fun child member => below child (List.mem_cons_of_mem _ member)) _ rest]
      exact Form.ext (source.trans otherSource.symm) (kind.symm.trans otherKind)
        (attributes.symm.trans otherAttributes) children

/-! ## Reading forms -/

theorem shows_formWithin (wellFormed : tree.WellFormed) {budget depth : Nat} (grounded : tree.Depth id depth)
    (enough : tree.size ≤ depth + budget) : tree.Shows limit (tree.formWithin limit budget id) id := by
  induction budget generalizing id depth with
  | zero =>
      have absent : ¬tree.Has id := by
        intro present
        have bound := wellFormed.depth_lt_size present grounded
        omega
      have childless : tree.children id = [] := by
        rw [Tree.children, node_of_not_has absent]
        rfl
      refine shows_iff.2 ⟨rfl, rfl, rfl, ?_⟩
      rw [childless]
      exact .nil
  | succ budget hypothesis =>
      refine shows_iff.2 ⟨rfl, rfl, rfl, ?_⟩
      refine List.forall₂_map_left_iff.2 (List.forall₂_same.2 fun child member => ?_)
      exact hypothesis (.child ((wellFormed.linked id child).1 member) grounded) (by omega)

/-- A well-formed tree shows at a node the form that is read there. -/
theorem WellFormed.shows_form (wellFormed : tree.WellFormed) (limit : Nat) (id : NodeId) :
    tree.Shows limit (tree.form limit id) id := by
  obtain ⟨depth, grounded⟩ := wellFormed.grounded id
  refine shows_formWithin wellFormed grounded ?_
  rw [depthBound]
  omega

end Tree
end HtmlTemplate
