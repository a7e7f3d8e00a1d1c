import HtmlTemplate.Proofs.Desugaring.Meaning
import HtmlTemplate.Proofs.Desugaring.Retaining

/-!
# What is kept on the way

What is known of any tree in the middle of a walk with the core taglib, against the tree that the walk began with.
Nodes keep their marks, and those of tags that are looked up. Counts are handed on in such a way that a node with
directives always has as many changes left as it has directives, or has not been changed yet.
-/

namespace HtmlTemplate

/-- Does the core taglib have text below nodes of this kind keep its whitespace? -/
def Kind.keepsText (kind : Kind) : Bool :=
  kind.tag? == some "html-comment"

namespace Walk

open Construct Control HtmlTemplate.Tree

variable {id host new : NodeId} {state later : Progress} {context : Context} {laws : Laws} {left limit : Nat}
variable {first before middle after tree : Tree} {front row : List NodeId} {form head : Form} {rest : List Form}
variable {begun : NodeId → Prop} {tag : String}

/-! ## Laws and contexts -/

/-- The context has the rules of the core taglib, and says of unknown tags what the laws say. -/
structure Governed (laws : Laws) (context : Context) : Prop where
  allows : context.options.allowUnknownTags = laws.allows
  rules : context.rules = fun tag => (entryOf tag).map TagEntry.rules

theorem Governed.lawful {later : Context} (governed : Governed laws context) (lawful : Lawful context later) :
    Governed laws later :=
  ⟨by rw [lawful.options, governed.allows], by rw [lawful.rules, governed.rules]⟩

/-- The walk stops for a fault. If nodes may be changed twice, then nothing was expected. -/
def Stopped {α : Type} (laws : Laws) (expected : Option α) (halt : Halt) : Prop :=
  IsFault halt ∧ (2 ≤ laws.bound → expected = none)

theorem Stopped.weaken {α β : Type} {expected : Option α} {other : Option β} {halt : Halt}
    (stopped : Stopped laws expected halt) (none : expected = none → other = none) : Stopped laws other halt :=
  ⟨stopped.1, fun two => none (stopped.2 two)⟩

/-! ## Trees on the way -/

/-- What is known of a tree in the middle of a walk, against the tree at its beginning. -/
structure Fit (laws : Laws) (first : Tree) (state : Progress) (tree : Tree) : Prop where
  wellFormed : tree.WellFormed
  tagged : ∀ id, (tree.kind id).tag?.isSome = true → first.Has id
  marks : ∀ id, ((tree.node id).preserve || (tree.kind id).keepsText) =
    ((first.node id).preserve || (tree.kind id).keepsText)
  affords : ∀ id, tree.parent id ≠ none → (tree.kind id).tag?.isSome = true →
    state.startOf id = 0 ∨ (tree.kind id).isCommon = true ∧
      state.startOf id + Form.directives (tree.node id).attributes ≤ laws.bound

theorem Fit.remarked (fit : Fit laws first state before) (remarked : Remarked id before after)
    (carried : later.carried = state.carried)
    (mark : ((after.node id).preserve || (before.kind id).keepsText) =
      ((before.node id).preserve || (before.kind id).keepsText)) : Fit laws first later after where
  wellFormed := remarked.shape.wellFormed fit.wellFormed
  tagged other := by
    rw [remarked.shape.kind]
    exact fit.tagged other
  marks other := by
    rw [remarked.shape.kind]
    by_cases same : other = id
    · rw [same, mark]
      exact fit.marks id
    · rw [remarked.others other same]
      exact fit.marks other
  affords other := by
    rw [remarked.shape.parent, remarked.shape.kind, remarked.shape.attributes, Progress.startOf, carried]
    exact fit.affords other

theorem preserve_setState (tree : Tree) (id other : NodeId) (mark : WalkState) :
    ((tree.setState id mark).node other).preserve = (tree.node other).preserve :=
  field_update tree id other Node.preserve fun _ => rfl

theorem Fit.setState (fit : Fit laws first state tree) (id : NodeId) (mark : WalkState) :
    Fit laws first state (tree.setState id mark) :=
  fit.remarked (remarked_setState tree id mark) rfl (by rw [preserve_setState])

/-- A change of a node: others are what they were, and there is no tag among the new ones. -/
structure Advance (id : NodeId) (before after : Tree) : Prop where
  reaches : before.Reaches after
  others : ∀ other, other ≠ id → before.Has other → (after.node other).matter = (before.node other).matter
  preserve : (after.node id).preserve = (before.node id).preserve
  keepsText : (after.kind id).keepsText = (before.kind id).keepsText
  untagged : ∀ other, ¬before.Has other → (after.kind other).tag? = none
  unmarked : ∀ other, ¬before.Has other → (after.node other).preserve = false
  attached : ∀ other, before.Has other → after.parent other ≠ none → before.parent other ≠ none

/-- Nodes that a change attaches were attached before. -/
theorem attached_of_spares (spares : before.Spares host front after) {other : NodeId} (present : before.Has other)
    (linked : after.parent other ≠ none) : before.parent other ≠ none := by
  by_cases beyond : before.Beyond host front other
  · exact beyond.attached
  · rwa [← spares.parent_eq present beyond]

theorem Advance.of_retains (retains : before.Retains after) (reaches : before.Reaches after)
    (spares : before.Spares host front after) (present : before.Has id) : Advance id before after where
  reaches := reaches
  others other _ known := retains.matter other known
  preserve := (Node.matter_eq_iff.1 (retains.matter id present)).2.2
  keepsText := congrArg Kind.keepsText (Node.matter_eq_iff.1 (retains.matter id present)).1
  untagged := retains.untagged
  unmarked := retains.unmarked
  attached _ := attached_of_spares spares

theorem Advance.of_removeAttribute {name : String} (retains : (before.removeAttribute id name).2.Retains after)
    (reaches : before.Reaches after) (spares : before.Spares host front after) (present : before.Has id) :
    Advance id before after ∧ after.kind id = before.kind id ∧ (after.node id).attributes =
      (before.node id).attributes.eraseP fun candidate => candidate.name == name := by
  have had : ∀ {other}, (before.removeAttribute id name).2.Has other ↔ before.Has other := has_update _ _ _ _
  have same := Node.matter_eq_iff.1 (retains.matter id (had.2 present))
  rw [Tree.removeAttribute, node_update_self present] at same
  refine ⟨⟨reaches, fun other different known => ?_, same.2.2, congrArg Kind.keepsText same.1, fun other absent => ?_,
    fun other absent => ?_, fun _ => attached_of_spares spares⟩, same.1, same.2.1⟩
  · rw [retains.matter other (had.2 known), Tree.removeAttribute, node_update_of_ne different]
  · exact retains.untagged other fun there => absent (had.1 there)
  · exact retains.unmarked other fun there => absent (had.1 there)

/-- A change hands counts on. The count of the node itself has to be right for what it has become. -/
theorem Fit.advance (fit : Fit laws first state before) (advance : Advance id before after) (grown : first.size ≤ before.size)
    (counts : ∀ other, other ≠ id → before.Has other → later.startOf other = state.startOf other)
    (tagged : (after.kind id).tag?.isSome = true → first.Has id)
    (own : after.parent id ≠ none → (after.kind id).tag?.isSome = true → later.startOf id = 0 ∨
      (after.kind id).isCommon = true ∧ later.startOf id + Form.directives (after.node id).attributes ≤ laws.bound) :
    Fit laws first later after where
  wellFormed := advance.reaches.wellFormed fit.wellFormed
  tagged other isTag := by
    by_cases same : other = id
    · rw [same] at isTag ⊢
      exact tagged isTag
    · by_cases present : before.Has other
      · rw [Tree.kind, (Node.matter_eq_iff.1 (advance.others other same present)).1] at isTag
        exact fit.tagged other isTag
      · rw [advance.untagged other present] at isTag
        cases isTag
  marks other := by
    by_cases same : other = id
    · rw [same, advance.preserve, advance.keepsText]
      exact fit.marks id
    · by_cases present : before.Has other
      · obtain ⟨kind, -, preserve⟩ := Node.matter_eq_iff.1 (advance.others other same present)
        rw [preserve, Tree.kind, kind]
        exact fit.marks other
      · have absent : ¬first.Has other := fun there => present (Nat.lt_of_lt_of_le there grown)
        rw [advance.unmarked other present, node_of_not_has absent]
        rfl
  affords other linked isTag := by
    by_cases same : other = id
    · rw [same] at linked isTag ⊢
      exact own linked isTag
    · by_cases present : before.Has other
      · obtain ⟨kind, attributes, -⟩ := Node.matter_eq_iff.1 (advance.others other same present)
        rw [Tree.kind, kind] at isTag ⊢
        rw [attributes, counts other same present]
        exact fit.affords other (advance.attached other present linked) isTag
      · rw [advance.untagged other present] at isTag
        cases isTag

/-! ## Checks -/

/-- What the check of a node leaves behind. -/
structure Noted (id : NodeId) (state : Progress) (context : Context) (later : Progress) (final : Context) : Prop where
  lawful : Lawful context final
  remarked : Remarked id context.tree final.tree
  carried : later.carried = state.carried
  applied : later.applied = state.applied
  preserve : (final.tree.node id).preserve = ((context.tree.node id).preserve || (context.tree.kind id).keepsText)

theorem preserve_of_entryOf {entry : TagEntry} (found : entryOf tag = some entry) :
    entry.rules.preserve = (tag == "html-comment") := by
  obtain ⟨known, named⟩ := mem_entries_of_entryOf found
  simp only [entries, List.mem_cons, List.not_mem_nil, or_false] at known
  rcases known with rfl | rfl | rfl | rfl | rfl | rfl | rfl | rfl | rfl <;> subst named <;> rfl

theorem keepsText_of_tag? {kind : Kind} (tagged : kind.tag? = some tag) : kind.keepsText = (tag == "html-comment") := by
  rw [Kind.keepsText, tagged]
  rfl

theorem preserves_entryOf (tag : String) :
    ((entryOf tag).any fun entry => entry.rules.preserve) = (tag == "html-comment") := by
  cases found : entryOf tag with
  | some entry => exact preserve_of_entryOf found
  | none =>
      refine (beq_eq_false_iff_ne.2 ?_).symm
      rintro rfl
      cases found

theorem Inspected.noted {final : Context} (inspected : Inspected Registry.core id state context later final)
    (present : context.tree.Has id) : Noted id state context later final := by
  cases inspected with
  | untagged untagged =>
      refine ⟨.refl _, .refl _, rfl, rfl, ?_⟩
      rw [Kind.keepsText, untagged]
      exact (Bool.or_false _).symm
  | @tagged tag _ _ tagged _ _ warned =>
      obtain ⟨codes, diagnostics, rfl, rfl⟩ := warned.frame
      have keeps := keepsText_of_tag? tagged
      rw [← preserves_entryOf, ← lookup?_core tag context.tree.file] at keeps
      unfold preserving
      split
      · next preserves =>
          refine ⟨⟨rfl, rfl⟩, remarked_setPreserve _ id true, rfl, rfl, ?_⟩
          rw [keeps, preserves, Bool.or_true]
          exact congrArg Node.preserve (node_update_self present _)
      · next plain =>
          refine ⟨⟨rfl, rfl⟩, .refl _, rfl, rfl, ?_⟩
          rw [keeps, Bool.eq_false_iff.2 plain, Bool.or_false]

/-- The check of an element passes if its tag is accepted, and so does that of any other node. -/
theorem Governed.passes_iff (governed : Governed laws context) :
    laws.passes (context.tree.kind id) = true ↔
      ∀ tag, (context.tree.kind id).tag? = some tag → ¬Unrecognized Registry.core context id tag := by
  cases kind : context.tree.kind id with
  | element tag =>
      have unrecognized : Unrecognized Registry.core context id tag ↔ laws.accepts tag = false := by
        rw [Laws.accepts, ← governed.allows]
        constructor
        · rintro ⟨missing, needed, refused⟩
          rw [lookup?_core] at missing
          rw [kind, needsEntry, Bool.not_eq_true'] at needed
          rw [refused, needed, missing]
          rfl
        · intro refused
          simp only [Bool.or_eq_false_iff, Option.isSome_eq_false_iff, Option.isNone_iff_eq_none] at refused
          exact ⟨by rw [lookup?_core, refused.2], by rw [kind, needsEntry, refused.1.2]; rfl, refused.1.1⟩
      rw [Laws.passes, ← Bool.not_eq_false, ← unrecognized]
      exact ⟨fun known other tagged => by rw [← Option.some.inj tagged]; exact known, fun known => known tag rfl⟩
  | _ =>
      refine ⟨fun _ tag _ unknown => ?_, fun _ => rfl⟩
      have needed := unknown.needed
      rw [kind] at needed
      cases needed

/-- A node passes its check if its kind may be passed. -/
theorem holds_checkTag_laws (governed : Governed laws context) (present : context.tree.Has id) :
    Holds (fun halt => IsFault halt ∧ laws.passes (context.tree.kind id) = false) (checkTag Registry.core id) state context
      fun _ after final => laws.passes (context.tree.kind id) = true ∧ Noted id state context after final := by
  refine Meets.weaken holds_checkTag_inspected (fun halt rejected => ⟨rejected.isFault, ?_⟩) ?_
  · cases rejected with
    | unrecognized tagged unknown =>
        exact Bool.eq_false_iff.2 fun passes => governed.passes_iff.1 passes _ tagged unknown
    | disallowed _ disallowed _ => exact absurd disallowed not_disallowed_core
  · rintro _ after final inspected
    refine ⟨governed.passes_iff.2 fun tag tagged => ?_, inspected.noted present⟩
    cases inspected with
    | untagged untagged => cases untagged.symm.trans tagged
    | tagged same known _ _ =>
        obtain rfl := Option.some.inj (same.symm.trans tagged)
        exact known

end Walk
end HtmlTemplate
