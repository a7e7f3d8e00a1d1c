import HtmlTemplate.Script.Expression

/-!
# Syntax trees of a text that begins later

When a text is put behind another one, all offsets in its syntax trees move by the same distance, and nothing
else in them changes.
-/

namespace HtmlTemplate
namespace Script

/-- Values that tell of places in a text, and what they are when the text begins that much later. -/
class Movable (α : Type) where
  move : Nat → α → α

export Movable (move)

namespace Syntax

mutual

/-- The tree of a text that begins later. -/
def move (distance : Nat) : Syntax → Syntax
  | node form start stop parts => node form (start + distance) (stop + distance) (moveAll distance parts)

/-- The trees of a text that begins later. -/
def moveAll (distance : Nat) : List Syntax → List Syntax
  | [] => []
  | tree :: trees => move distance tree :: moveAll distance trees

end

end Syntax

instance : Movable Syntax :=
  ⟨Syntax.move⟩

instance {α : Type} [Movable α] : Movable (List α) :=
  ⟨fun distance => List.map (move distance)⟩

instance {α : Type} [Movable α] : Movable (Option α) :=
  ⟨fun distance => Option.map (move distance)⟩

instance {α β : Type} [Movable α] [Movable β] : Movable (α × β) :=
  ⟨fun distance pair => (move distance pair.1, move distance pair.2)⟩

instance {α β : Type} [Movable α] [Movable β] : Movable (α ⊕ β) :=
  ⟨fun distance => Sum.map (move distance) (move distance)⟩

instance : Movable Unit :=
  ⟨fun _ value => value⟩

instance : Movable Bool :=
  ⟨fun _ value => value⟩

instance : Movable String :=
  ⟨fun _ value => value⟩

instance : Movable Token :=
  ⟨fun _ value => value⟩

instance : Movable Likelihood :=
  ⟨fun _ value => value⟩

instance : Movable Key :=
  ⟨fun distance key => { key with computed := move distance key.computed }⟩

section

variable {α β : Type} [Movable α] [Movable β] {distance : Nat}

@[simp] theorem move_bool (value : Bool) : move distance value = value := rfl

@[simp] theorem move_nil : move distance ([] : List α) = [] := rfl

@[simp] theorem move_cons (value : α) (values : List α) :
    move distance (value :: values) = move distance value :: move distance values := rfl

@[simp] theorem move_append (values more : List α) :
    move distance (values ++ more) = move distance values ++ move distance more :=
  List.map_append

@[simp] theorem move_reverse (values : List α) : move distance values.reverse = (move distance values).reverse :=
  List.map_reverse

@[simp] theorem isEmpty_move (values : List α) : (move distance values).isEmpty = values.isEmpty :=
  List.isEmpty_map

@[simp] theorem move_pair (pair : α × β) : move distance pair = (move distance pair.1, move distance pair.2) := rfl

@[simp] theorem move_inl (value : α) : move distance (.inl value : α ⊕ β) = .inl (move distance value) := rfl

@[simp] theorem move_inr (value : β) : move distance (.inr value : α ⊕ β) = .inr (move distance value) := rfl

@[simp] theorem name_move (key : Key) : (move distance key).name = key.name := rfl

@[simp] theorem computed_move (key : Key) : (move distance key).computed = move distance key.computed := rfl

@[simp] theorem move_none : move distance (none : Option α) = none := rfl

@[simp] theorem move_some (value : α) : move distance (some value) = some (move distance value) := rfl

end

namespace Syntax

variable {distance : Nat}

theorem moveAll_eq (trees : List Syntax) : moveAll distance trees = Movable.move distance trees := by
  induction trees with
  | nil => rfl
  | cons tree trees hypothesis => exact congrArg (move distance tree :: ·) hypothesis

@[simp] theorem form_move (tree : Syntax) : (Movable.move distance tree).form = tree.form := by
  cases tree
  rfl

@[simp] theorem parts_move (tree : Syntax) : (Movable.move distance tree).parts = Movable.move distance tree.parts := by
  cases tree
  exact moveAll_eq _

mutual

theorem hasForm_move (test : Form → Bool) (tree : Syntax) : (move distance tree).hasForm test = tree.hasForm test := by
  cases tree with
  | node form start stop parts => exact congrArg (test form || ·) (anyHasForm_moveAll test parts)

theorem anyHasForm_moveAll (test : Form → Bool) (trees : List Syntax) :
    anyHasForm test (moveAll distance trees) = anyHasForm test trees := by
  cases trees with
  | nil => rfl
  | cons tree trees => rw [moveAll, anyHasForm, anyHasForm, hasForm_move test tree, anyHasForm_moveAll test trees]

end

@[simp] theorem isReference_move (tree : Syntax) : (Movable.move distance tree).isReference = tree.isReference := by
  rw [isReference, isReference, form_move]

theorem move_node (form : Form) (start stop : Nat) (parts : List Syntax) :
    Movable.move distance (node form start stop parts) =
      node form (start + distance) (stop + distance) (Movable.move distance parts) := by
  rw [← moveAll_eq]
  rfl

theorem simpleTarget_move : ∀ tree : Syntax,
    (Movable.move distance tree).simpleTarget? = Movable.move distance tree.simpleTarget?
  | node form start stop parts => by
      rw [move_node]
      cases form with
      | reference name => exact congrArg some (move_node _ start stop parts).symm
      | member => exact congrArg some (move_node _ start stop parts).symm
      | group =>
          match parts with
          | [] => rfl
          | [inner] =>
              have hypothesis := simpleTarget_move inner
              rw [move_cons, move_nil, simpleTarget?, simpleTarget?, form_move]
              split
              · rfl
              · rfl
              · rw [hypothesis]
                cases inner.simpleTarget? with
                | none => rfl
                | some target => exact congrArg some (move_node _ start stop [target]).symm
          | _ :: _ :: _ => rfl
      | _ => rfl

theorem map_node_move (distance : Nat) (form : Form) (start stop : Nat) (found : Option (List Syntax)) :
    (Movable.move distance found).map (node form (start + distance) (stop + distance)) =
      Movable.move distance (found.map (node form start stop)) := by
  cases found with
  | none => rfl
  | some parts => exact congrArg some (move_node form start stop parts).symm

/-- Reading the tree as a target, with a default or without, commutes with moving it. -/
def TargetsMove (distance : Nat) (tree : Syntax) : Prop :=
  (Movable.move distance tree).target? = Movable.move distance tree.target? ∧
    (Movable.move distance tree).targetWithDefault? = Movable.move distance tree.targetWithDefault?

theorem bind_move {α β : Type} [Movable α] [Movable β] {found : Option α} {f f' : α → Option β}
    (same : ∀ value, f' (Movable.move distance value) = Movable.move distance (f value)) :
    (Movable.move distance found).bind f' = Movable.move distance (found.bind f) := by
  cases found with
  | none => rfl
  | some value => exact same value

theorem elementTargets_move (trailingComma : Bool) : ∀ elements : List Syntax,
    (∀ element ∈ elements, TargetsMove distance element ∧ ∀ part ∈ element.parts, TargetsMove distance part) →
    elementTargets? trailingComma (Movable.move distance elements) =
      Movable.move distance (elementTargets? trailingComma elements)
  | [], _ => rfl
  | node form start stop parts :: elements, each => by
      have rest := elementTargets_move trailingComma elements fun element member => each element (List.mem_cons_of_mem _ member)
      obtain ⟨⟨-, first⟩, inner⟩ := each _ List.mem_cons_self
      by_cases single : form = .spread ∧ (∃ argument, parts = [argument]) ∧ elements = []
      · obtain ⟨rfl, ⟨argument, rfl⟩, rfl⟩ := single
        have argumentMoves := (inner argument List.mem_cons_self).1
        rw [move_cons, move_node, move_cons, move_nil, elementTargets?, elementTargets?]
        cases trailingComma with
        | true => rfl
        | false =>
            refine Eq.trans (congrArg (Option.bind · _) argumentMoves) (bind_move fun target => ?_)
            exact congrArg (fun tree => some [tree]) (move_node .rest start stop [target]).symm
      · have tail (element : Syntax) :
            ((elementTargets? trailingComma (Movable.move distance elements)).bind fun elements =>
              some (Movable.move distance element :: elements)) =
            Movable.move distance ((elementTargets? trailingComma elements).bind fun elements =>
              some (element :: elements)) := by
          rw [rest]
          exact bind_move fun _ => rfl
        rw [move_cons, elementTargets?, elementTargets?, form_move]
        · split
          · exact tail _
          · rw [first]
            exact bind_move tail
        · rintro _ _ argument same empty
          obtain ⟨rfl, -, -, rfl⟩ := node.inj same
          exact single ⟨rfl, ⟨argument, rfl⟩, empty⟩
        · rintro _ _ argument same empty
          rw [move_node] at same
          obtain ⟨rfl, -, -, moved⟩ := node.inj same
          obtain ⟨inside, rfl, -⟩ := List.map_eq_singleton_iff.1 moved
          exact single ⟨rfl, ⟨inside, rfl⟩, List.map_eq_nil_iff.1 empty⟩

theorem propertyTargets_move (trailingComma : Bool) : ∀ properties : List Syntax,
    (∀ property ∈ properties, ∀ part ∈ property.parts, TargetsMove distance part) →
    propertyTargets? trailingComma (Movable.move distance properties) =
      Movable.move distance (propertyTargets? trailingComma properties)
  | [], _ => rfl
  | node form start stop parts :: properties, each => by
      have rest := propertyTargets_move trailingComma properties
        fun property member => each property (List.mem_cons_of_mem _ member)
      have inner := each _ List.mem_cons_self
      have tail (property : Syntax) :
          ((propertyTargets? trailingComma (Movable.move distance properties)).bind fun properties =>
            some (Movable.move distance property :: properties)) =
          Movable.move distance ((propertyTargets? trailingComma properties).bind fun properties =>
            some (property :: properties)) := by
        rw [rest]
        exact bind_move fun _ => rfl
      cases form with
      | spread =>
          match parts, properties with
          | [], _ => rfl
          | [argument], [] =>
              have argumentMoves := (inner argument List.mem_cons_self).1
              rw [move_cons, move_node, move_cons, move_nil, propertyTargets?, propertyTargets?]
              cases trailingComma with
              | true => rfl
              | false =>
                  refine Eq.trans (congrArg (Option.bind · _) argumentMoves) (bind_move fun target => ?_)
                  exact congrArg (fun tree => some [tree]) (move_node .rest start stop [target]).symm
          | [_], _ :: _ => rfl
          | _ :: _ :: _, _ => rfl
      | shorthand name => exact tail (node .property start stop [node (.reference name) start stop []])
      | shorthandDefault =>
          have whole := tail (node .property start stop [node .patternDefault start stop parts])
          rw [move_node, move_cons, move_nil, move_node] at whole
          rw [move_cons, move_node, propertyTargets?, propertyTargets?]
          exact whole
      | property =>
          match parts with
          | [] => rfl
          | [value] =>
              have valueMoves := (inner value List.mem_cons_self).2
              refine Eq.trans (congrArg (Option.bind · _) valueMoves) (bind_move fun target => ?_)
              have whole := tail (node .property start stop [target])
              rwa [move_node] at whole
          | [key, value] =>
              have valueMoves := (inner value (List.mem_cons_of_mem _ List.mem_cons_self)).2
              refine Eq.trans (congrArg (Option.bind · _) valueMoves) (bind_move fun target => ?_)
              have whole := tail (node .property start stop [key, target])
              rwa [move_node] at whole
          | _ :: _ :: _ :: _ => rfl
      | _ => rfl


mutual

theorem targetsMove : ∀ tree : Syntax, TargetsMove distance tree ∧ ∀ part ∈ tree.parts, TargetsMove distance part
  | node form start stop parts => by
      have inner := allTargetsMove parts
      have elements (trailingComma : Bool) := elementTargets_move trailingComma parts inner
      have properties (trailingComma : Bool) := propertyTargets_move trailingComma parts
        fun property member => (inner property member).2
      refine ⟨?_, fun part member => (inner part member).1⟩
      have simple : (Movable.move distance (node form start stop parts)).simpleTarget? = _ := simpleTarget_move _
      rw [move_node] at simple
      rw [TargetsMove, move_node]
      cases form with
      | array trailingComma =>
          have same := map_node_move distance .arrayPattern start stop (elementTargets? trailingComma parts)
          rw [← elements] at same
          exact ⟨same, same⟩
      | object trailingComma =>
          have same := map_node_move distance .objectPattern start stop (propertyTargets? trailingComma parts)
          rw [← properties] at same
          exact ⟨same, same⟩
      | assignment plain =>
          refine ⟨simple, ?_⟩
          cases plain with
          | true => exact congrArg some (move_node .patternDefault start stop parts).symm
          | false => rfl
      | _ => exact ⟨simple, simple⟩

theorem allTargetsMove : ∀ trees : List Syntax, ∀ tree ∈ trees,
    TargetsMove distance tree ∧ ∀ part ∈ tree.parts, TargetsMove distance part
  | [] => fun _ impossible => absurd impossible List.not_mem_nil
  | tree :: trees => List.forall_mem_cons.2 ⟨targetsMove tree, allTargetsMove trees⟩

end

theorem target_move (tree : Syntax) : (Movable.move distance tree).target? = Movable.move distance tree.target? :=
  (targetsMove tree).1.1

end Syntax

end Script
end HtmlTemplate
