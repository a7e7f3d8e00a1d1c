import HtmlTemplate.Proofs.Tree.Reach
import HtmlTemplate.Taglib

/-!
# Applications of transforms

What an edit of the compilation comes to, part by part, and which transforms a registry holds: those that
taglibs declare, and the bindings of renderers.
-/

namespace HtmlTemplate

/-! ## Running edits -/

namespace Edit

variable {α β : Type} {context : Context}

theorem run_bind (first : Edit α) (next : α → Edit β) (context : Context) :
    (first >>= next).run context =
      match first.run context with
      | (.ok value, context) => (next value).run context
      | (.error fault, context) => (.error fault, context) := by
  rw [ExceptT.run_bind]
  change (StateT.bind first.run _ context : Except Fault β × Context) = _
  simp only [StateT.bind, bind]
  generalize first.run context = result
  rcases result with ⟨_ | _, _⟩ <;> rfl

theorem run_pure (value : α) (context : Context) : (pure value : Edit α).run context = (.ok value, context) :=
  rfl

theorem run_tree (context : Context) : Edit.tree.run context = (.ok context.tree, context) :=
  rfl

theorem run_changeTree {change : Tree → Except Fault Tree} (context : Context) :
    (Edit.changeTree change).run context =
      match change context.tree with
      | .ok tree => (.ok (), { context with tree })
      | .error fault => (.error fault, context) := by
  unfold Edit.changeTree
  rw [run_bind, run_tree]
  dsimp only
  cases change context.tree <;> rfl

theorem run_makeTree {change : Tree → Except Fault (α × Tree)} (context : Context) :
    (Edit.makeTree change).run context =
      match change context.tree with
      | .ok (value, tree) => (.ok value, { context with tree })
      | .error fault => (.error fault, context) := by
  unfold Edit.makeTree
  rw [run_bind, run_tree]
  dsimp only
  cases change context.tree <;> rfl

theorem run_bind_eq_ok_iff {first : Edit α} {next : α → Edit β} {value : β} {after : Context} :
    (first >>= next).run context = (.ok value, after) ↔
      ∃ given between, first.run context = (.ok given, between) ∧
        (next given).run between = (.ok value, after) := by
  rw [run_bind]
  constructor
  · intro ran
    generalize first.run context = result at ran ⊢
    rcases result with ⟨fault | given, between⟩
    · cases ran
    · exact ⟨given, between, rfl, ran⟩
  · rintro ⟨given, between, began, ended⟩
    rw [began]
    exact ended

theorem run_pure_eq_ok_iff {given value : α} {after : Context} :
    (pure given : Edit α).run context = (.ok value, after) ↔ given = value ∧ context = after := by
  constructor
  · intro ran
    cases ran
    exact ⟨rfl, rfl⟩
  · rintro ⟨rfl, rfl⟩
    rfl

theorem run_changeTree_eq_ok_iff {change : Tree → Except Fault Tree} {value : Unit} {after : Context} :
    (Edit.changeTree change).run context = (.ok value, after) ↔
      ∃ tree, change context.tree = .ok tree ∧ after = { context with tree } := by
  rw [run_changeTree]
  constructor
  · intro ran
    cases made : change context.tree with
    | error fault =>
        rw [made] at ran
        cases ran
    | ok tree =>
        rw [made] at ran
        cases ran
        exact ⟨tree, rfl, rfl⟩
  · rintro ⟨tree, made, rfl⟩
    rw [made]

theorem run_makeTree_eq_ok_iff {change : Tree → Except Fault (α × Tree)} {value : α} {after : Context} :
    (Edit.makeTree change).run context = (.ok value, after) ↔
      ∃ tree, change context.tree = .ok (value, tree) ∧ after = { context with tree } := by
  rw [run_makeTree]
  constructor
  · intro ran
    cases made : change context.tree with
    | error fault =>
        rw [made] at ran
        cases ran
    | ok given =>
        rw [made] at ran
        cases ran
        exact ⟨_, rfl, rfl⟩
  · rintro ⟨tree, made, rfl⟩
    rw [made]

end Edit

/-! ## Outcomes -/

/-- The transform, applied to the node, gives the outcome and leads from one state to the other one. -/
def Transform.Does (transform : Transform) (id : NodeId) (before : Context) (outcome : Outcome)
    (after : Context) : Prop :=
  (transform.apply id).run before = (.ok outcome, after)

/-- Binding a renderer makes an element a custom tag, and does nothing to nodes of other kinds. -/
theorem Transform.bindRenderer_does {renderer : String} {id : NodeId} {before after : Context}
    {outcome : Outcome} (does : (Transform.bindRenderer renderer).Does id before outcome after) :
    outcome = .unchanged ∧ after = before ∨
      outcome = .changed ∧ ∃ tag tree, before.tree.kind id = .element tag ∧
        before.tree.setKind id (.customTag tag renderer) = .ok tree ∧ after = { before with tree } := by
  unfold Transform.Does Transform.bindRenderer at does
  dsimp only at does
  rw [Edit.run_bind, Edit.run_tree] at does
  dsimp only at does
  cases kind : before.tree.kind id with
  | element tag =>
      rw [kind] at does
      dsimp only at does
      rw [Edit.run_bind, Edit.run_changeTree] at does
      cases made : before.tree.setKind id (.customTag tag renderer) with
      | error fault =>
          rw [made] at does
          cases does
      | ok tree =>
          rw [made] at does
          cases does
          exact .inr ⟨rfl, tag, tree, rfl, made, rfl⟩
  | _ =>
      rw [kind] at does
      cases does
      exact .inl ⟨rfl, rfl⟩

/-- The transform changes trees by edits only, and it reports a change whenever it edits a tree. -/
structure Transform.Honest (transform : Transform) : Prop where
  edits : ∀ {id : NodeId} {before after : Context} {outcome : Outcome}, before.tree.WellFormed →
    before.tree.Has id → transform.Does id before outcome after → before.tree.Reaches after.tree
  reports : ∀ {id : NodeId} {before after : Context}, before.tree.WellFormed → before.tree.Has id →
    transform.Does id before .unchanged after → after.tree = before.tree

theorem Transform.honest_bindRenderer (renderer : String) : (Transform.bindRenderer renderer).Honest where
  edits _ _ does := by
    rcases Transform.bindRenderer_does does with ⟨-, rfl⟩ | ⟨-, tag, tree, -, made, rfl⟩
    · exact .refl
    · exact .single (.setKind made)
  reports _ _ does := by
    rcases Transform.bindRenderer_does does with ⟨-, rfl⟩ | ⟨reported, -⟩
    · rfl
    · cases reported

/-! ## The transforms of a registry -/

namespace Registry

/-- A taglib of the registry declares the transform, for a tag or for all of them. -/
def Declares (registry : Registry) (transform : Transform) : Prop :=
  ∃ registration ∈ registry.registrations, transform ∈ registration.taglib.globals ∨
    ∃ entry ∈ registration.taglib.entries.entries, transform ∈ entry.2.declared

variable {registry : Registry}

theorem mem_registrations_of_mem_applicable {registration : Registration} {file : String}
    (applies : registration ∈ registry.applicable file) : registration ∈ registry.registrations := by
  unfold applicable at applies
  rw [List.mem_mergeSort, List.mem_reverse] at applies
  exact List.mem_of_mem_filter applies

theorem declares_of_mem_globals {transform : Transform} {file : String}
    (member : transform ∈ registry.globals file) : registry.Declares transform := by
  obtain ⟨registration, applies, inside⟩ := List.mem_flatMap.1 member
  exact ⟨registration, mem_registrations_of_mem_applicable (List.mem_reverse.1 applies), .inl inside⟩

theorem declares_of_lookup? {tag file : String} {entry : TagEntry} {transform : Transform}
    (found : registry.lookup? tag file = some entry) (member : transform ∈ entry.declared) :
    registry.Declares transform := by
  obtain ⟨registration, applies, holds⟩ := List.exists_of_findSome?_eq_some found
  obtain ⟨front, back, split, -⟩ := List.lookup_eq_some_iff.1 holds
  refine ⟨registration, mem_registrations_of_mem_applicable applies, .inr ⟨(tag, entry), ?_, member⟩⟩
  rw [split]
  simp

/-- The registry that knows one tag, for all files, with the transforms declared for it. -/
def ofTag (tag : String) (declared : List Transform) : Registry :=
  { registrations := [{ taglib := {
      id := tag
      entries := SortedMap.empty.insert tag { rules := { name := tag }, declared } } }] }

variable {tag : String} {declared : List Transform}

theorem declares_ofTag {transform : Transform} :
    (ofTag tag declared).Declares transform ↔ transform ∈ declared := by
  simp [Declares, ofTag, SortedMap.insert, SortedMap.insertEntry, SortedMap.empty]

theorem applicable_ofTag (file : String) :
    (ofTag tag declared).applicable file = (ofTag tag declared).registrations := by
  simp [applicable, ofTag, Registration.appliesTo]

theorem lookup?_ofTag (file : String) :
    (ofTag tag declared).lookup? tag file = some { rules := { name := tag }, declared } := by
  rw [lookup?, applicable_ofTag]
  simp [ofTag, SortedMap.find?, SortedMap.insert, SortedMap.insertEntry, SortedMap.empty]

theorem globals_ofTag (file : String) : (ofTag tag declared).globals file = [] := by
  rw [globals, applicable_ofTag]
  rfl

end Registry

end HtmlTemplate
