import HtmlTemplate.Proofs.Desugaring.Entering

/-!
# What forms come to under given laws

A walk may be over any forms: those of custom tags, of tags that nothing is known about, and of tags with more
directives than a node may be changed for. What such forms come to depends on the options of the walk. As before
it is a rewriting from the top down and from the left to the right, and it leaves nothing that could be rewritten
again.
-/

namespace HtmlTemplate

open Control (entryOf)

/-- What the options of a walk say about tags. -/
structure Laws where
  /-- How often a node may be changed. -/
  bound : Nat
  /-- May tags be unknown? -/
  allows : Bool

/-- May the walk pass an element with this tag? -/
def Laws.accepts (laws : Laws) (tag : String) : Bool :=
  laws.allows || Name.isStandard tag || (entryOf tag).isSome

/-- Is the kind one of tags that carry directives: neither a control tag nor renamed to one? -/
def Kind.isCommon : Kind → Bool
  | .element tag => (entryOf tag).isNone
  | .customTag name _ => Form.modernTag name == name && name != "else-if" && name != "else"
  | _ => false

/-- Only elements and custom tags have tags. -/
theorem Kind.eq_of_tag? {kind : Kind} {tag : String} (tagged : kind.tag? = some tag) :
    kind = .element tag ∨ ∃ renderer, kind = .customTag tag renderer := by
  cases kind with
  | element name => exact .inl (congrArg Kind.element (Option.some.inj tagged))
  | customTag name renderer =>
      obtain rfl := Option.some.inj tagged
      exact .inr ⟨renderer, rfl⟩
  | _ => cases tagged

theorem Kind.isSome_of_isCommon {kind : Kind} (common : kind.isCommon = true) : kind.tag?.isSome = true := by
  cases kind <;> first | rfl | cases common

theorem Kind.tag?_ne_none_of_isCommon {kind : Kind} (common : kind.isCommon = true) : kind.tag? ≠ none :=
  Option.isSome_iff_ne_none.1 (isSome_of_isCommon common)

/-- Tags that the core taglib does not know are common. -/
theorem Kind.isCommon_of_unknown {kind : Kind} {tag : String} (tagged : kind.tag? = some tag) (unknown : entryOf tag = none) :
    kind.isCommon = true := by
  have foreign : ∀ {name}, (entryOf name).isSome = true → tag ≠ name := by
    rintro name known rfl
    rw [unknown] at known
    cases known
  rcases Kind.eq_of_tag? tagged with rfl | ⟨renderer, rfl⟩
  · rw [Kind.isCommon, unknown]
    rfl
  · have modern : Form.modernTag tag = tag := by
      unfold Form.modernTag
      split
      · exact absurd rfl (foreign (by rfl))
      · exact absurd rfl (foreign (by rfl))
      · exact absurd rfl (foreign (by rfl))
      · exact absurd rfl (foreign (by rfl))
      · rfl
    have first : tag ≠ "else-if" := foreign (by rfl)
    have second : tag ≠ "else" := foreign (by rfl)
    simp [Kind.isCommon, modern, first, second]

/-- May nodes of the kind be passed? -/
def Laws.passes (laws : Laws) : Kind → Bool
  | .element tag => laws.accepts tag
  | _ => true

namespace Form

/-! ## Directives -/

/-- Is the attribute a loop header, provided that it has the name for one? -/
def isHeader (given : Attribute) : Bool :=
  given.value.isStatic && (LoopHeader.parse? given.value.asCode).isSome

/-- How many directives attributes are: the loop headers up to one that is none, and the conditions. -/
def directives (attributes : List Attribute) : Nat :=
  ((attributes.filter fun candidate => candidate.name == "for").takeWhile isHeader).length +
    (attributes.filter fun candidate => candidate.name == "if").length

variable {form head : Form} {rest left : List Form} {laws : Laws}

theorem loopHeader?_eq_some_iff {header : String} : form.loopHeader? = some header ↔
    ∃ found, form.attribute? "for" = some found ∧ isHeader found = true ∧ found.value.asCode = header := by
  simp only [loopHeader?, Option.bind_eq_bind, Option.bind_eq_some_iff, isHeader]
  refine exists_congr fun found => and_congr_right fun _ => ?_
  split
  · next holds => simp [holds]
  · next fails => simp [fails]

theorem loopHeader?_eq_none_iff : form.loopHeader? = none ↔
    ∀ found, form.attribute? "for" = some found → isHeader found = false := by
  rw [Option.eq_none_iff_forall_ne_some]
  constructor
  · intro none found carried
    by_contra header
    exact none _ (loopHeader?_eq_some_iff.2 ⟨found, carried, by simpa using header, rfl⟩)
  · intro none header carried
    obtain ⟨found, carried, isHeader, -⟩ := loopHeader?_eq_some_iff.1 carried
    exact absurd (none found carried) (by simp [isHeader])

theorem filter_eraseP_self {α : Type} (keep : α → Bool) (list : List α) :
    (list.eraseP keep).filter keep = (list.filter keep).tail := by
  induction list with
  | nil => rfl
  | cons first list hypothesis =>
      cases kept : keep first with
      | true => simp [kept]
      | false => simp [kept, hypothesis]

theorem filter_eraseP_of_disjoint {α : Type} {keep drop : α → Bool} (list : List α)
    (disjoint : ∀ one, drop one = true → keep one = false) : (list.eraseP drop).filter keep = list.filter keep := by
  induction list with
  | nil => rfl
  | cons first list hypothesis =>
      cases dropped : drop first with
      | true => simp [dropped, disjoint first dropped]
      | false => simp [dropped, List.filter_cons, hypothesis]

theorem attribute?_eq_head? (form : Form) (name : String) :
    form.attribute? name = (form.attributes.filter fun candidate => candidate.name == name).head? :=
  (List.head?_filter ..).symm

/-- A loop header is used up. -/
theorem directives_without_for {header : String} (carried : form.loopHeader? = some header) :
    directives (form.without "for").attributes + 1 = directives form.attributes := by
  obtain ⟨found, carried, isHeader, -⟩ := loopHeader?_eq_some_iff.1 carried
  rw [attribute?_eq_head?, List.head?_eq_some_iff] at carried
  obtain ⟨others, split⟩ := carried
  have conditions := @filter_eraseP_of_disjoint _ (fun candidate : Attribute => candidate.name == "if")
    (fun candidate => candidate.name == "for") form.attributes (by simp +contextual)
  simp only [without, attributes, directives] at split conditions ⊢
  rw [filter_eraseP_self, conditions, split, List.tail_cons, List.takeWhile_cons_of_pos isHeader, List.length_cons]
  omega

/-- A condition is used up. -/
theorem directives_without_if {found : Attribute} (carried : form.attribute? "if" = some found) :
    directives (form.without "if").attributes + 1 = directives form.attributes := by
  rw [attribute?_eq_head?, List.head?_eq_some_iff] at carried
  obtain ⟨others, split⟩ := carried
  have headers := @filter_eraseP_of_disjoint _ (fun candidate : Attribute => candidate.name == "for")
    (fun candidate => candidate.name == "if") form.attributes (by simp +contextual)
  simp only [without, attributes, directives] at split headers ⊢
  rw [filter_eraseP_self, headers, split, List.tail_cons, List.length_cons]
  omega

theorem directives_eq_zero_iff :
    directives form.attributes = 0 ↔ form.loopHeader? = none ∧ form.attribute? "if" = none := by
  rw [directives, Nat.add_eq_zero_iff, List.length_eq_zero_iff, List.length_eq_zero_iff, loopHeader?_eq_none_iff,
    attribute?_eq_head?, attribute?_eq_head?, List.head?_eq_none_iff]
  refine and_congr_left fun _ => ?_
  cases form.attributes.filter fun candidate => candidate.name == "for" with
  | nil => simp
  | cons first others => simp [List.takeWhile_cons]

/-- A tag with directives does not stand for itself. -/
theorem lowerDirective_self (carries : form.lowerDirective = some form) : directives form.attributes = 0 := by
  rw [directives_eq_zero_iff]
  unfold lowerDirective at carries
  split at carries
  · next header carried =>
      exfalso
      obtain ⟨loop, -, same⟩ := Option.bind_eq_some_iff.1 carries
      have lost := directives_without_for carried
      have same := Option.some.inj same
      have none : directives form.attributes = 0 := by
        rw [← same]
        rfl
      omega
  · next none =>
      split at carries
      · next found carried =>
          exfalso
          split at carries
          · cases carries
          · simp only [conditional?, Option.bind_eq_bind, Option.bind_eq_some_iff] at carries
            obtain ⟨kind, -, same⟩ := carries
            have lost := directives_without_if carried
            have same := Option.some.inj same
            have none : directives form.attributes = 0 := by
              rw [← same]
              rfl
            omega
      · next bare => exact ⟨none, bare⟩

/-! ## All forms -/

/-- What a form stands for in view of the siblings behind it, and the siblings that it leaves: custom tags with
older names of control tags are such tags, and other custom tags carry directives. -/
def lower (form : Form) (rest : List Form) : Option (Form × List Form) :=
  match form.kind with
  | .element _ => form.rewrite rest
  | .customTag name _ =>
      if modernTag name ≠ name then (Walk.renamed form (modernTag name)).rewrite rest
      else if name = "else-if" ∨ name = "else" then none
      else form.lowerDirective.map fun head => (head, rest)
  | _ => some (form, rest)

/-- May the form be passed, and has it not too many directives? -/
def isAllowed (laws : Laws) (form : Form) : Bool :=
  laws.passes form.kind && (!form.kind.isCommon || directives form.attributes ≤ laws.bound)

/-- What a form stands for under the laws. -/
def mean (laws : Laws) (form : Form) (rest : List Form) : Option (Form × List Form) :=
  if form.isAllowed laws then form.lower rest else none

/-- How often a form is changed before it is passed, if it is passed at all. -/
def demand (form : Form) : Nat :=
  if form.kind.isCommon then directives form.attributes
  else
    match form.kind.tag? with
    | some tag => if modernTag tag = tag then 1 else 2
    | none => 0

theorem lower_element {tag : String} (kind : form.kind = .element tag) : form.lower rest = form.rewrite rest := by
  rw [lower, kind]

theorem lower_customTag {name renderer : String} (kind : form.kind = .customTag name renderer) : form.lower rest =
    if modernTag name ≠ name then (Walk.renamed form (modernTag name)).rewrite rest
    else if name = "else-if" ∨ name = "else" then none
    else form.lowerDirective.map fun head => (head, rest) := by
  rw [lower, kind]

theorem lower_untagged (untagged : form.kind.tag? = none) : form.lower rest = some (form, rest) := by
  unfold lower
  cases kind : form.kind with
  | element tag =>
      rw [kind] at untagged
      cases untagged
  | customTag name renderer =>
      rw [kind] at untagged
      cases untagged
  | _ => rfl

/-- What a common tag stands for. -/
theorem lower_of_common (common : form.kind.isCommon = true) :
    form.lower rest = form.lowerDirective.map fun head => (head, rest) := by
  cases kind : form.kind with
  | element tag =>
      rw [kind, Kind.isCommon, Option.isNone_iff_eq_none] at common
      rw [lower_element kind, Walk.rewrite_of_unknown (by rw [tag?, kind]) common]
  | customTag name renderer =>
      rw [kind, Kind.isCommon] at common
      simp only [Bool.and_eq_true, beq_iff_eq, bne_iff_ne] at common
      obtain ⟨⟨modern, first⟩, second⟩ := common
      rw [lower_customTag kind, if_neg (not_not.2 modern), if_neg (by simp [first, second])]
  | _ =>
      rw [kind] at common
      cases common

theorem lowerDirective_of_lower (common : form.kind.isCommon = true) (lowers : form.lower rest = some (head, left)) :
    form.lowerDirective = some head ∧ left = rest := by
  rw [lower_of_common common] at lowers
  obtain ⟨made, lowered, same⟩ := Option.map_eq_some_iff.1 lowers
  obtain ⟨rfl, rfl⟩ := Prod.mk.inj same
  exact ⟨lowered, rfl⟩

theorem mean_eq_some_iff {given : Form × List Form} :
    form.mean laws rest = some given ↔ form.isAllowed laws = true ∧ form.lower rest = some given := by
  unfold mean
  split
  · next allowed => simp [allowed]
  · next refused => simp [refused]

theorem isAllowed_untagged (untagged : form.kind.tag? = none) : form.isAllowed laws = true := by
  rw [isAllowed]
  cases kind : form.kind with
  | element tag =>
      rw [kind] at untagged
      cases untagged
  | customTag name renderer =>
      rw [kind] at untagged
      cases untagged
  | _ => rfl

theorem mean_untagged (untagged : form.kind.tag? = none) : form.mean laws rest = some (form, rest) :=
  mean_eq_some_iff.2 ⟨isAllowed_untagged untagged, lower_untagged untagged⟩

theorem mean_of_refused (refused : form.isAllowed laws = false) : form.mean laws rest = none := by
  rw [mean, refused]
  rfl

/-- An older name of a control tag. -/
theorem modernTag_ne {name : String} (older : modernTag name ≠ name) :
    (name, modernTag name) ∈ [("c-if", "if"), ("c-else-if", "else-if"), ("c-else", "else"), ("c-for", "for")] := by
  unfold modernTag at older ⊢
  split at older
  · exact List.mem_cons_self
  · exact List.mem_cons_of_mem _ List.mem_cons_self
  · exact List.mem_cons_of_mem _ (List.mem_cons_of_mem _ List.mem_cons_self)
  · exact List.mem_cons_of_mem _ (List.mem_cons_of_mem _ (List.mem_cons_of_mem _ List.mem_cons_self))
  · exact absurd rfl older

/-- Tags with older names are not common. -/
theorem isCommon_of_older {kind : Kind} {old : String} (tagged : kind.tag? = some old) (older : modernTag old ≠ old) :
    kind.isCommon = false := by
  rcases Kind.eq_of_tag? tagged with rfl | ⟨renderer, rfl⟩
  · have listed := modernTag_ne older
    simp only [List.mem_cons, Prod.mk.injEq, List.not_mem_nil, or_false] at listed
    rcases listed with ⟨rfl, -⟩ | ⟨rfl, -⟩ | ⟨rfl, -⟩ | ⟨rfl, -⟩ <;> rfl
  · simp [Kind.isCommon, older]

/-- A modern name is one of a control tag, and stays. -/
theorem modernTag_modernTag {old : String} (older : modernTag old ≠ old) :
    (entryOf (modernTag old)).isSome = true ∧ modernTag (modernTag old) = modernTag old := by
  have listed := modernTag_ne older
  simp only [List.mem_cons, Prod.mk.injEq, List.not_mem_nil, or_false] at listed
  rcases listed with ⟨-, modern⟩ | ⟨-, modern⟩ | ⟨-, modern⟩ | ⟨-, modern⟩ <;> rw [modern] <;> exact ⟨rfl, rfl⟩

/-- Tags with older names are passed. -/
theorem passes_of_older {kind : Kind} {old : String} (tagged : kind.tag? = some old) (older : modernTag old ≠ old) :
    laws.passes kind = true := by
  rcases Kind.eq_of_tag? tagged with rfl | ⟨renderer, rfl⟩
  · have known : (entryOf old).isSome = true := by
      have listed := modernTag_ne older
      simp only [List.mem_cons, Prod.mk.injEq, List.not_mem_nil, or_false] at listed
      rcases listed with ⟨rfl, -⟩ | ⟨rfl, -⟩ | ⟨rfl, -⟩ | ⟨rfl, -⟩ <;> rfl
    simp [Laws.passes, Laws.accepts, known]
  · rfl

/-- A form with the modern name of its tag stands for the same. -/
theorem mean_renamed {old : String} (tagged : form.kind.tag? = some old) (older : modernTag old ≠ old) :
    (Walk.renamed form (modernTag old)).mean laws rest = form.mean laws rest := by
  have lowers : (Walk.renamed form (modernTag old)).lower rest = form.lower rest := by
    rw [@lower_element (Walk.renamed form (modernTag old)) rest _ rfl]
    rcases Kind.eq_of_tag? tagged with same | ⟨renderer, same⟩
    · rw [lower_element same, Walk.rewrite_renamed (by rw [tag?, same]) (modernTag_ne older)]
    · rw [lower_customTag same, if_pos older]
  have known := (modernTag_modernTag older).1
  have common : (Kind.element (modernTag old)).isCommon = false := by
    rw [Kind.isCommon, Option.isNone_eq_false_iff, known]
  have passes : laws.passes (.element (modernTag old)) = true := by simp [Laws.passes, Laws.accepts, known]
  rw [mean, mean, isAllowed, isAllowed, lowers, passes_of_older tagged older, isCommon_of_older tagged older,
    show (Walk.renamed form (modernTag old)).kind = .element (modernTag old) from rfl, common, passes]
  rfl

/-- A custom tag weighs little less than an element. -/
theorem weight_renamed {name renderer new : String} (custom : form.kind = .customTag name renderer) :
    (Walk.renamed form new).weight = form.weight + 1 := by
  rw [weight_eq, weight_eq form, custom]
  simp only [Walk.renamed, kind, attributes, children, ownWeight]
  omega

/-- A custom tag with an older name of a control tag stands for what the control tag stands for. -/
theorem weight_rewrite_renamed {name renderer : String} (custom : form.kind = .customTag name renderer)
    (older : modernTag name ≠ name) (found : (Walk.renamed form (modernTag name)).rewrite rest = some (head, left)) :
    weightAll head.children + weightAll left < weightAll (form :: rest) := by
  have lighter := @weight_renamed form name renderer (modernTag name) custom
  have tagged : (Walk.renamed form (modernTag name)).tag? = some (modernTag name) := rfl
  have listed := modernTag_ne older
  rw [weightAll_cons]
  unfold rewrite at found
  rw [tagged] at found
  simp only [List.mem_cons, Prod.mk.injEq, List.not_mem_nil, or_false] at listed
  rcases listed with ⟨-, modern⟩ | ⟨-, modern⟩ | ⟨-, modern⟩ | ⟨-, modern⟩ <;> rw [modern] at found lighter tagged
  · have below := weight_lowerIf tagged found
    omega
  · cases found
  · cases found
  · obtain ⟨made, lowered, same⟩ := Option.map_eq_some_iff.1 found
    obtain ⟨rfl, rfl⟩ := Prod.mk.inj same
    have below := weight_lowerFor tagged lowered
    omega

/-- What is left to rewrite weighs less. -/
theorem weight_lower (found : form.lower rest = some (head, left)) :
    weightAll head.children + weightAll left < weightAll (form :: rest) := by
  cases kind : form.kind with
  | element tag =>
      rw [lower_element kind] at found
      exact weight_rewrite found
  | customTag name renderer =>
      rw [lower_customTag kind] at found
      split at found
      · next older => exact weight_rewrite_renamed kind older found
      · split at found
        · cases found
        · obtain ⟨made, lowered, same⟩ := Option.map_eq_some_iff.1 found
          obtain ⟨rfl, rfl⟩ := Prod.mk.inj same
          rw [weightAll_cons]
          exact Nat.add_lt_add_right (weight_lowerDirective lowered) _
  | _ =>
      rw [lower_untagged (by rw [kind]; rfl)] at found
      obtain ⟨rfl, rfl⟩ := Prod.mk.inj (Option.some.inj found)
      rw [weightAll_cons, weight_eq form, kind]
      simp only [ownWeight]
      omega

theorem weight_mean (found : form.mean laws rest = some (head, left)) :
    weightAll head.children + weightAll left < weightAll (form :: rest) :=
  weight_lower (mean_eq_some_iff.1 found).2

/-- What forms come to, if they come to anything: from the top down and from the left to the right. -/
def settle (laws : Laws) (forms : List Form) : Option (List Form) :=
  match forms with
  | [] => some []
  | form :: rest =>
      match _found : form.mean laws rest with
      | none => none
      | some (head, left) => do
          let below ← settle laws head.children
          let others ← settle laws left
          return head.withChildren below :: others
termination_by weightAll forms
decreasing_by
  · have lighter := weight_mean _found
    omega
  · have lighter := weight_mean _found
    omega

theorem settle_nil (laws : Laws) : settle laws [] = some [] := by
  rw [settle]

theorem settle_cons (laws : Laws) (form : Form) (rest : List Form) :
    settle laws (form :: rest) = do
      let (head, left) ← form.mean laws rest
      let below ← settle laws head.children
      let others ← settle laws left
      return head.withChildren below :: others := by
  rw [settle]
  split
  · next found => rw [found]; rfl
  · next head left found => rw [found]; rfl

/-! ## What is left -/

/-- Nothing of the form itself is to be rewritten. -/
structure IsCalm (laws : Laws) (form : Form) : Prop where
  element : ∀ tag, form.kind = .element tag → entryOf tag = none ∧ laws.accepts tag = true
  customTag : ∀ name renderer, form.kind = .customTag name renderer →
    modernTag name = name ∧ name ≠ "else-if" ∧ name ≠ "else"
  bare : form.kind.tag?.isSome = true → directives form.attributes = 0

/-- Nothing of the form and all that is below it is to be rewritten. -/
inductive IsDone (laws : Laws) : Form → Prop
  | node {form : Form} : IsCalm laws form → (∀ child ∈ form.children, IsDone laws child) → IsDone laws form

theorem isCalm_of_untagged (untagged : form.kind.tag? = none) : form.IsCalm laws where
  element tag kind := by
    rw [kind] at untagged
    cases untagged
  customTag name renderer kind := by
    rw [kind] at untagged
    cases untagged
  bare tagged := by
    rw [untagged] at tagged
    cases tagged

theorem checked_eq_some_iff {kind made : Kind} : checked kind = some made ↔ kind.check = .ok () ∧ made = kind := by
  unfold checked
  split
  · next passes => simp [passes, eq_comm]
  · next fault fails => simp [fails]

theorem tag?_of_loop? {header : String} {kind : Kind} (found : loop? header = some kind) : kind.tag? = none := by
  obtain ⟨loop, -, passes⟩ := Option.bind_eq_some_iff.1 found
  obtain ⟨-, rfl⟩ := checked_eq_some_iff.1 passes
  rfl

theorem tag?_of_lowerIf (found : form.lowerIf rest = some (head, left)) : head.kind.tag? = none := by
  unfold lowerIf at found
  split at found
  · simp only [Option.bind_eq_bind, Option.bind_eq_some_iff] at found
    obtain ⟨test, -, kind, -, others, -, found⟩ := found
    split at found
    · obtain ⟨rfl, -⟩ := Prod.mk.inj (Option.some.inj found)
      rfl
    · obtain ⟨loop, looped, found⟩ := Option.bind_eq_some_iff.1 found
      obtain ⟨rfl, -⟩ := Prod.mk.inj (Option.some.inj found)
      exact tag?_of_loop? looped
  · cases found

theorem tag?_of_lowerFor (found : form.lowerFor = some head) : head.kind.tag? = none := by
  unfold lowerFor at found
  split at found
  · simp only [Option.bind_eq_bind, Option.bind_eq_some_iff] at found
    obtain ⟨header, -, loop, looped, found⟩ := found
    split at found
    · obtain rfl := Option.some.inj found
      exact tag?_of_loop? looped
    · simp only [Option.bind_eq_some_iff] at found
      obtain ⟨test, -, conditional, -, found⟩ := found
      obtain rfl := Option.some.inj found
      exact tag?_of_loop? looped
  · cases found

theorem tag?_of_lowerComment (found : form.lowerComment = some head) : head.kind.tag? = none := by
  unfold lowerComment at found
  split at found
  · simp only [Option.bind_eq_bind, Option.bind_eq_some_iff] at found
    obtain ⟨value, -, kind, passes, found⟩ := found
    obtain ⟨-, rfl⟩ := checked_eq_some_iff.1 passes
    obtain rfl := Option.some.inj found
    rfl
  · cases found

/-- A tag with directives stands for a construct, and any other one for itself. -/
theorem lowerDirective_cases (found : form.lowerDirective = some head) :
    head.kind.tag? = none ∨ head = form ∧ directives form.attributes = 0 := by
  have given := found
  unfold lowerDirective at found
  split at found
  · obtain ⟨loop, looped, found⟩ := Option.bind_eq_some_iff.1 found
    obtain rfl := Option.some.inj found
    exact .inl (tag?_of_loop? looped)
  · split at found
    · split at found
      · cases found
      · simp only [conditional?, Option.bind_eq_bind, Option.bind_eq_some_iff] at found
        obtain ⟨kind, -, found⟩ := found
        obtain rfl := Option.some.inj found
        exact .inl rfl
    · obtain rfl := Option.some.inj found
      exact .inr ⟨rfl, lowerDirective_self given⟩

/-- Control tags stand for constructs. -/
theorem rewrite_cases {tag : String} (tagged : form.tag? = some tag) (found : form.rewrite rest = some (head, left)) :
    head.kind.tag? = none ∨ entryOf tag = none ∧ form.lowerDirective = some head ∧ left = rest := by
  cases listed : entryOf tag with
  | none =>
      rw [Walk.rewrite_of_unknown tagged listed] at found
      obtain ⟨made, lowered, same⟩ := Option.map_eq_some_iff.1 found
      obtain ⟨rfl, rfl⟩ := Prod.mk.inj same
      exact .inr ⟨rfl, lowered, rfl⟩
  | some entry =>
      refine .inl ?_
      have known := List.mem_of_find?_eq_some listed
      have named : entry.rules.name = tag := by simpa using List.find?_some listed
      unfold rewrite at found
      rw [tagged] at found
      simp only [Control.entries, List.mem_cons, List.not_mem_nil, or_false] at known
      rcases known with rfl | rfl | rfl | rfl | rfl | rfl | rfl | rfl | rfl <;> subst named
      · exact tag?_of_lowerIf found
      · cases found
      · cases found
      · obtain ⟨made, lowered, same⟩ := Option.map_eq_some_iff.1 found
        obtain ⟨rfl, -⟩ := Prod.mk.inj same
        exact tag?_of_lowerFor lowered
      · obtain ⟨made, lowered, same⟩ := Option.map_eq_some_iff.1 found
        obtain ⟨rfl, -⟩ := Prod.mk.inj same
        exact tag?_of_lowerComment lowered
      · exact tag?_of_lowerIf found
      · cases found
      · cases found
      · obtain ⟨made, lowered, same⟩ := Option.map_eq_some_iff.1 found
        obtain ⟨rfl, -⟩ := Prod.mk.inj same
        exact tag?_of_lowerFor lowered

/-- What a form stands for is no tag, but for a common one without directives, which stands for itself. -/
theorem lower_cases (found : form.lower rest = some (head, left)) :
    head.kind.tag? = none ∨
      form.kind.isCommon = true ∧ directives form.attributes = 0 ∧ head = form ∧ left = rest := by
  have ofCommon : form.kind.isCommon = true → head.kind.tag? = none ∨
      form.kind.isCommon = true ∧ directives form.attributes = 0 ∧ head = form ∧ left = rest := by
    intro common
    obtain ⟨lowered, rfl⟩ := lowerDirective_of_lower common found
    exact (lowerDirective_cases lowered).imp_right fun ⟨itself, bare⟩ => ⟨common, bare, itself, rfl⟩
  cases kind : form.kind with
  | element tag =>
      rw [← kind]
      rw [lower_element kind] at found
      rcases rewrite_cases (by rw [tag?, kind]) found with untagged | ⟨unknown, -⟩
      · exact .inl untagged
      · exact ofCommon (by rw [kind, Kind.isCommon, unknown]; rfl)
  | customTag name renderer =>
      rw [← kind]
      rw [lower_customTag kind] at found
      split at found
      · next older =>
          rcases rewrite_cases rfl found with untagged | ⟨unknown, -⟩
          · exact .inl untagged
          · have listed := modernTag_ne older
            simp only [List.mem_cons, Prod.mk.injEq, List.not_mem_nil, or_false] at listed
            rcases listed with ⟨-, modern⟩ | ⟨-, modern⟩ | ⟨-, modern⟩ | ⟨-, modern⟩ <;>
            · rw [modern] at unknown
              cases unknown
      · next modern =>
          split at found
          · cases found
          · next others =>
              refine ofCommon ?_
              rw [kind, Kind.isCommon]
              simpa [and_assoc] using And.intro (not_not.1 modern) others
  | _ =>
      rw [lower_untagged (by rw [kind]; rfl)] at found
      obtain ⟨rfl, -⟩ := Prod.mk.inj (Option.some.inj found)
      exact .inl (by rw [kind]; rfl)

/-- A common tag stands for itself only if it has no directives. -/
theorem directives_of_lower_self (common : form.kind.isCommon = true) (lowers : form.lower rest = some (form, rest)) :
    directives form.attributes = 0 := by
  rcases lower_cases lowers with untagged | ⟨-, bare, -⟩
  · exact absurd untagged (Kind.tag?_ne_none_of_isCommon common)
  · exact bare

theorem demand_untagged (untagged : form.kind.tag? = none) : form.demand = 0 := by
  rw [demand, if_neg fun common => Kind.tag?_ne_none_of_isCommon common untagged, untagged]

/-- What a form comes to is not to be rewritten. -/
theorem isCalm_of_mean (found : form.mean laws rest = some (head, left)) : head.IsCalm laws := by
  obtain ⟨allowed, lowered⟩ := mean_eq_some_iff.1 found
  rcases lower_cases lowered with untagged | ⟨common, bare, rfl, -⟩
  · exact isCalm_of_untagged untagged
  · refine ⟨fun tag kind => ?_, fun name renderer kind => ?_, fun _ => bare⟩
    · rw [isAllowed, Bool.and_eq_true, kind] at allowed
      rw [kind] at common
      exact ⟨Option.isNone_iff_eq_none.1 common, allowed.1⟩
    · rw [kind, Kind.isCommon] at common
      simpa [and_assoc] using common

theorem IsCalm.withChildren (calm : form.IsCalm laws) (below : List Form) : (form.withChildren below).IsCalm laws := by
  cases form
  exact ⟨calm.element, calm.customTag, calm.bare⟩

/-- What forms come to is not to be rewritten again, nor is anything below. -/
theorem isDone_of_settle {forms made : List Form} (settles : settle laws forms = some made) :
    ∀ form ∈ made, form.IsDone laws := by
  induction forms using settle.induct laws generalizing made with
  | case1 =>
      rw [settle_nil] at settles
      obtain rfl := Option.some.inj settles
      exact fun _ none => absurd none List.not_mem_nil
  | case2 form rest means =>
      rw [settle_cons, means] at settles
      cases settles
  | case3 form rest head left means ofBelow ofOthers =>
      rw [settle_cons, means] at settles
      simp only [Option.bind_eq_bind, Option.bind_some, Option.bind_eq_some_iff] at settles
      obtain ⟨below, settledBelow, others, settledOthers, same⟩ := settles
      obtain rfl := Option.some.inj same
      refine List.forall_mem_cons.2 ⟨.node ((isCalm_of_mean means).withChildren below) ?_, ofOthers settledOthers⟩
      have children : (head.withChildren below).children = below := by
        cases head
        rfl
      rw [children]
      exact ofBelow settledBelow

end Form
end HtmlTemplate
