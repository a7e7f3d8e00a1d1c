import HtmlTemplate.Proofs.Desugaring.Meaning

/-!
# Spellings of constructs

The same construct can be written in several ways: with older names of control tags, with directives instead of control
tags, and with branch tags inside of an `<if>` or behind it. Forms are alike if they differ in such spellings only.
-/

namespace HtmlTemplate

/-! ## Names of tags -/

/-- The kind with the modern name of its tag. -/
def Kind.modern : Kind → Kind
  | .element tag => .element (Form.modernTag tag)
  | kind => kind

/-- Do tags of this kind take the branch tags among their children? -/
def Kind.takesBranches : Kind → Bool
  | .element tag => Form.modernTag tag == "if"
  | .customTag name _ => name == "c-if"
  | _ => false

namespace Form

variable {form other head inner loop : Form} {forms rest left : List Form} {laws : Laws} {marks others : NodeId → Bool}
variable {within : Bool} {name : String}

theorem modernTag_idem (tag : String) : modernTag (modernTag tag) = modernTag tag := by
  by_cases older : modernTag tag = tag
  · rw [older]
    exact older
  · exact (modernTag_modernTag older).2

/-- Common tags have no older names. -/
theorem modern_of_isCommon {kind : Kind} (common : kind.isCommon = true) : kind.modern = kind := by
  cases kind with
  | element tag =>
      refine congrArg Kind.element ?_
      by_contra older
      rw [@isCommon_of_older (.element tag) _ rfl older] at common
      cases common
  | _ => rfl

theorem modern_of_untagged {kind : Kind} (untagged : kind.tag? = none) : kind.modern = kind := by
  cases kind with
  | element tag => cases untagged
  | _ => rfl

theorem takesBranches_modern (kind : Kind) : kind.modern.takesBranches = kind.takesBranches := by
  cases kind with
  | element tag => rw [Kind.modern, Kind.takesBranches, Kind.takesBranches, modernTag_idem]
  | _ => rfl

theorem takesBranches_of_isCommon {kind : Kind} (common : kind.isCommon = true) : kind.takesBranches = false := by
  cases kind with
  | element tag =>
      rw [Kind.takesBranches, beq_eq_false_iff_ne]
      have modern := Kind.element.inj (modern_of_isCommon common)
      rw [modern]
      rintro rfl
      cases common
  | customTag name renderer =>
      rw [Kind.takesBranches, beq_eq_false_iff_ne]
      rintro rfl
      cases common
  | _ => rfl

theorem takesBranches_of_untagged {kind : Kind} (untagged : kind.tag? = none) : kind.takesBranches = false := by
  cases kind with
  | element tag => cases untagged
  | customTag name renderer => cases untagged
  | _ => rfl

theorem tag?_ne_none_of_takesBranches {kind : Kind} (takes : kind.takesBranches = true) : kind.tag? ≠ none := by
  intro untagged
  rw [takesBranches_of_untagged untagged] at takes
  cases takes

theorem isTested_congr (kind : form.kind.modern = other.kind.modern) : form.isTested = other.isTested := by
  have modern : ∀ form : Form, form.isTested = (match form.kind.modern with
      | .element tag => modernTag tag == "else-if"
      | _ => false) := by
    intro form
    rw [isTested, tag?]
    cases form.kind with
    | element tag => simp only [Kind.modern, Option.any_some, modernTag_idem]
    | _ => rfl
  rw [modern, modern other, kind]

theorem isBranch_congr (kind : form.kind.modern = other.kind.modern) : form.isBranch = other.isBranch := by
  have modern : ∀ form : Form, form.isBranch = (form.isTested || match form.kind.modern with
      | .element tag => modernTag tag == "else"
      | _ => false) := by
    intro form
    rw [isBranch, tag?]
    cases form.kind with
    | element tag => simp only [Kind.modern, Option.any_some, modernTag_idem]
    | _ => rfl
  rw [modern, modern other, isTested_congr kind, kind]

theorem tag?_ne_none_of_modern {kind instead : Kind} (same : kind.modern = instead.modern) (tagged : kind.tag? ≠ none) :
    instead.tag? ≠ none := by
  intro untagged
  rw [modern_of_untagged untagged] at same
  rw [← same] at untagged
  cases kind <;> first | exact tagged untagged | cases untagged

/-- Kinds without tags have no other names. -/
theorem eq_of_modern {kind instead : Kind} (same : kind.modern = instead.modern) (untagged : kind.tag? = none) :
    kind = instead := by
  by_contra different
  have tagged : instead.tag? ≠ none := fun none =>
    different (by rw [← modern_of_untagged untagged, same, modern_of_untagged none])
  exact tag?_ne_none_of_modern same.symm tagged untagged

/-- Tags are no text. -/
theorem isBlank_of_tagged (tagged : form.kind.tag? ≠ none) : form.isBlank = false := by
  rw [isBlank]
  cases kind : form.kind <;> first | rfl | exact absurd (by rw [kind]; rfl) tagged

theorem isBlank_congr (kind : form.kind.modern = other.kind.modern) : form.isBlank = other.isBlank := by
  by_cases untagged : form.kind.tag? = none
  · rw [isBlank, isBlank, eq_of_modern kind untagged]
  · rw [isBlank_of_tagged untagged, isBlank_of_tagged (tag?_ne_none_of_modern kind untagged)]

/-- Branch tags take no branches of others, and are no text. -/
theorem of_isBranch (branch : form.isBranch = true) : form.isBlank = false ∧ form.kind.takesBranches = false := by
  rw [isBranch, isTested, tag?] at branch
  cases kind : form.kind with
  | element tag =>
      simp only [kind, Option.any_some, Bool.or_eq_true, beq_iff_eq] at branch
      rw [isBlank, kind, Kind.takesBranches]
      rcases branch with named | named <;> rw [named] <;> exact ⟨rfl, rfl⟩
  | _ =>
      simp [kind] at branch

theorem of_isCommon (common : form.kind.isCommon = true) : form.isBlank = false ∧ form.isBranch = false := by
  constructor
  · exact isBlank_of_tagged (Kind.tag?_ne_none_of_isCommon common)
  · rw [isBranch, isTested, tag?]
    cases kind : form.kind with
    | element tag =>
        rw [kind] at common
        have modern := Kind.element.inj (modern_of_isCommon common)
        simp only [Option.any_some, modern, Bool.or_eq_false_iff, beq_eq_false_iff_ne]
        constructor <;>
        · rintro rfl
          cases common
    | _ => rfl

theorem of_takesBranches (takes : form.kind.takesBranches = true) : form.isBlank = false ∧ form.isBranch = false := by
  constructor
  · exact isBlank_of_tagged (tag?_ne_none_of_takesBranches takes)
  · rw [isBranch, isTested, tag?]
    cases kind : form.kind with
    | element tag =>
        rw [kind, Kind.takesBranches, beq_iff_eq] at takes
        simp [takes]
    | _ => rfl

/-- The form with the modern name of its tag. -/
def modern (form : Form) : Form :=
  .node form.source form.kind.modern form.attributes form.children

theorem modern_of_kind (kind : form.kind.modern = form.kind) : form.modern = form := by
  cases form
  exact Form.ext rfl kind rfl rfl

/-- A tag stands for the same by whatever name. -/
theorem mean_modern (form : Form) : form.modern.mean laws rest = form.mean laws rest := by
  by_cases same : form.kind.modern = form.kind
  · rw [modern_of_kind same]
  · cases kind : form.kind with
    | element tag =>
        have older : modernTag tag ≠ tag := fun modern => same (by rw [kind, Kind.modern, modern])
        have renamed : form.modern = Walk.renamed form (modernTag tag) := by rw [modern, kind]; rfl
        rw [renamed, mean_renamed (by rw [kind]; rfl) older]
    | _ => exact absurd (by rw [kind]; rfl) same

/-! ## Alike forms -/

/-- Was the form read from a marked node? -/
def isMarked (marks : NodeId → Bool) (form : Form) : Bool :=
  form.source.any marks

/-- The form is an element with a single attribute around another form. -/
structure Encloses (outer : Form) (tag name : String) (value : Value) (inner : Form) : Prop where
  kind : outer.kind = .element tag
  attributes : ∃ position, outer.attributes = [{ name, value, position }]
  children : outer.children = [inner]

/-- A tag with a loop header and a condition, against a loop around a conditional around the tag without them. No other
loop header of the tag comes before its condition, and it has no more directives than a tag may have, or too many even
without these two. -/
structure SpelledOut (laws : Laws) (marks others : NodeId → Bool) (form loop inner : Form) : Prop where
  common : form.kind.isCommon = true
  bounded : directives form.attributes ≤ laws.bound ∨ laws.bound + 2 < directives form.attributes
  single : (form.without "for").loopHeader? = none
  spells : ∃ header test condition, form.attribute? "for" = some header ∧ isHeader header = true ∧
    form.attribute? "if" = some test ∧ test.value.asCode ≠ "" ∧
      loop.Encloses "for" "each" header.value condition ∧ condition.Encloses "if" "test" test.value inner
  kind : inner.kind = form.kind
  attributes : inner.attributes = ((form.without "for").without "if").attributes
  marked : form.isMarked marks = inner.isMarked others

/-- Siblings that differ in spellings only: in the names of control tags, in directives that are spelled out, and in
branch tags that have been moved behind their `<if>`. The flag tells whether their parent takes branch tags, which would
take those that were moved as its own. -/
inductive Alike (laws : Laws) (marks others : NodeId → Bool) : Bool → List Form → List Form → Prop
  | nil {within : Bool} : Alike laws marks others within [] []
  | cons {within : Bool} {form other : Form} {rest left : List Form} : form.kind.modern = other.kind.modern →
      form.attributes = other.attributes → form.isMarked marks = other.isMarked others →
      Alike laws marks others form.kind.takesBranches form.children other.children →
      Alike laws marks others within rest left → Alike laws marks others within (form :: rest) (other :: left)
  | spelledOut {within : Bool} {form loop inner : Form} {rest left : List Form} :
      SpelledOut laws marks others form loop inner → Alike laws marks others false form.children inner.children →
      Alike laws marks others within rest left → Alike laws marks others within (form :: rest) (loop :: left)
  | moved {form other : Form} {below rest left : List Form} : form.kind.takesBranches = true →
      form.kind.modern = other.kind.modern → form.attributes = other.attributes →
      Alike laws marks others true form.children below → other.children = below.filter (fun child => !child.isBranch) →
      Alike laws marks others false rest left →
      Alike laws marks others false (form :: rest) (other :: (below.filter isBranch ++ left))

/-- A branch tag against another one that stands for a like branch. -/
structure BranchAlike (laws : Laws) (marks others : NodeId → Bool) (form other : Form) : Prop where
  kind : form.kind.modern = other.kind.modern
  attributes : form.attributes = other.attributes
  children : Alike laws marks others false form.children other.children

theorem SpelledOut.loop_kind (spelled : SpelledOut laws marks others form loop inner) : loop.kind = .element "for" := by
  obtain ⟨_, _, _, -, -, -, -, outer, -⟩ := spelled.spells
  exact outer.kind

theorem SpelledOut.not_branch (spelled : SpelledOut laws marks others form loop inner) :
    form.isBranch = false ∧ loop.isBranch = false ∧ form.isBlank = false ∧ loop.isBlank = false := by
  obtain ⟨notBlank, notBranch⟩ := of_isCommon spelled.common
  refine ⟨notBranch, ?_, notBlank, ?_⟩
  · simp [isBranch, isTested, tag?, spelled.loop_kind, modernTag]
  · simp [isBlank, spelled.loop_kind]

/-- Inside of an `<if>`, the branch tags are alike, and so is what is left of the children. -/
theorem Alike.filter (alike : Alike laws marks others true forms left) :
    Alike laws marks others false (forms.filter fun child => !child.isBranch) (left.filter fun child => !child.isBranch) ∧
      List.Forall₂ (BranchAlike laws marks others) (forms.filter isBranch) (left.filter isBranch) := by
  generalize inside : true = within at alike
  induction alike with
  | nil => exact ⟨.nil, .nil⟩
  | @cons within form other rest left kind attributes marked children _ _ hypothesis =>
      obtain ⟨kept, tags⟩ := hypothesis inside
      have same := isBranch_congr kind
      cases branch : form.isBranch with
      | true =>
          rw [branch] at same
          rw [(of_isBranch branch).2] at children
          simp only [List.filter_cons, branch, ← same]
          exact ⟨kept, .cons ⟨kind, attributes, children⟩ tags⟩
      | false =>
          rw [branch] at same
          simp only [List.filter_cons, branch, ← same]
          exact ⟨.cons kind attributes marked children kept, tags⟩
  | spelledOut spelled children _ _ hypothesis =>
      obtain ⟨kept, tags⟩ := hypothesis inside
      obtain ⟨notBranch, loopNotBranch, -, -⟩ := spelled.not_branch
      simp only [List.filter_cons, notBranch, loopNotBranch]
      exact ⟨.spelledOut spelled children kept, tags⟩
  | moved => cases inside

/-- The first siblings are both branch tags or both none. -/
theorem Alike.head_isBranch (alike : Alike laws marks others within rest left) :
    rest.head?.any isBranch = left.head?.any isBranch := by
  cases alike with
  | nil => rfl
  | cons kind => exact isBranch_congr kind
  | spelledOut spelled => simp [spelled.not_branch]
  | moved takes kind => exact isBranch_congr kind

/-- The branch tags behind an `<if>` are alike, and so is what is left of the siblings. -/
theorem Alike.takeFollowing (alike : Alike laws marks others within rest left) :
    List.Forall₂ (BranchAlike laws marks others) (takeFollowing rest).1 (takeFollowing left).1 ∧
      Alike laws marks others within (takeFollowing rest).2 (takeFollowing left).2 := by
  induction alike with
  | nil => exact ⟨.nil, .nil⟩
  | @cons within form other rest left kind attributes marked children more _ hypothesis =>
      have ends := Alike.cons kind attributes marked children more
      have sameBranch := isBranch_congr kind
      have sameBlank := isBlank_congr kind
      unfold Form.takeFollowing
      rw [← sameBlank, ← sameBranch, ← more.head_isBranch]
      cases blank : form.isBlank with
      | true =>
          simp only [if_true]
          split
          · exact hypothesis
          · exact ⟨.nil, ends⟩
      | false =>
          simp only [Bool.false_eq_true, if_false]
          split
          · next branch =>
              rw [(of_isBranch branch).2] at children
              exact ⟨.cons ⟨kind, attributes, children⟩ hypothesis.1, hypothesis.2⟩
          · exact ⟨.nil, ends⟩
  | @spelledOut within form loop inner rest left spelled children more _ hypothesis =>
      obtain ⟨notBranch, loopNotBranch, notBlank, loopNotBlank⟩ := spelled.not_branch
      have ends := Alike.spelledOut spelled children more
      simp only [Form.takeFollowing, notBranch, loopNotBranch, notBlank, loopNotBlank]
      exact ⟨.nil, ends⟩
  | @moved form other below rest left takes kind attributes inside children more _ hypothesis =>
      have ends := Alike.moved takes kind attributes inside children more
      obtain ⟨notBlank, notBranch⟩ := of_takesBranches takes
      have otherNotBlank := (isBlank_congr kind).symm.trans notBlank
      have otherNotBranch := (isBranch_congr kind).symm.trans notBranch
      simp only [Form.takeFollowing, notBlank, notBranch, otherNotBlank, otherNotBranch]
      exact ⟨.nil, ends⟩

end Form
end HtmlTemplate
