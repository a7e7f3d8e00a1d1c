import HtmlTemplate.Proofs.Desugaring.Agreement

/-!
# Gaps

Forms with a gap among them, or somewhere below one of them. What a form stands for is put together from its attributes,
and its children are in a gap in it: a form that takes no branch tags stands for one and the same, with whatever children
in the gap.
-/

namespace HtmlTemplate

/-- Forms with a gap among them, or below one of them. -/
inductive Gap
  | here (before after : List Form)
  | inside (before : List Form) (host : Form) (gap : Gap) (after : List Form)

namespace Form

open Control (entryOf)

/-! ## Forms with other children -/

@[simp]
theorem source_withChildren (form : Form) (children : List Form) : (form.withChildren children).source = form.source := by
  cases form
  rfl

@[simp]
theorem kind_withChildren (form : Form) (children : List Form) : (form.withChildren children).kind = form.kind := by
  cases form
  rfl

@[simp]
theorem attributes_withChildren (form : Form) (children : List Form) :
    (form.withChildren children).attributes = form.attributes := by
  cases form
  rfl

@[simp]
theorem children_withChildren (form : Form) (children : List Form) : (form.withChildren children).children = children := by
  cases form
  rfl

@[simp]
theorem withChildren_withChildren (form : Form) (children others : List Form) :
    (form.withChildren children).withChildren others = form.withChildren others := by
  cases form
  rfl

@[simp]
theorem isBranch_withChildren (form : Form) (children : List Form) :
    (form.withChildren children).isBranch = form.isBranch :=
  isBranch_congr (by rw [kind_withChildren])

@[simp]
theorem isBlank_withChildren (form : Form) (children : List Form) : (form.withChildren children).isBlank = form.isBlank :=
  isBlank_congr (by rw [kind_withChildren])

theorem withChildren_children (form : Form) : form.withChildren form.children = form := by
  cases form
  rfl

/-! ## What forms stand for, by their kinds -/

variable {form head other : Form} {forms rest left tags below : List Form} {laws : Laws} {tag : String}

/-- Branch tags stand for nothing by themselves. -/
theorem mean_of_isBranch (branch : form.isBranch = true) : form.mean laws rest = none := by
  rw [isBranch, isTested] at branch
  cases tagged : form.tag? with
  | none =>
      rw [tagged] at branch
      cases branch
  | some tag =>
      have kind : form.kind = .element tag := by
        rw [tag?] at tagged
        split at tagged
        · next name kind => rw [kind, Option.some.inj tagged]
        · cases tagged
      rw [tagged] at branch
      simp only [Option.any_some, Bool.or_eq_true, beq_iff_eq] at branch
      have known : (entryOf tag).isSome = true := by
        by_contra unknown
        have modern : modernTag tag = tag := by
          by_contra older
          have listed := modernTag_ne older
          simp only [List.mem_cons, Prod.mk.injEq, List.not_mem_nil, or_false] at listed
          rcases listed with ⟨rfl, -⟩ | ⟨rfl, -⟩ | ⟨rfl, -⟩ | ⟨rfl, -⟩ <;> exact unknown rfl
        rw [modern] at branch
        rcases branch with rfl | rfl <;> exact unknown rfl
      rw [mean_of_known kind known]
      rcases branch with modern | modern <;> rw [modern] <;> rfl

/-- Forms of the kind stand for something that does not depend on their siblings, whatever the laws are. -/
def StandFor (kind : Kind) (meaning : Form → Option Form) : Prop :=
  ∀ form : Form, form.kind = kind → ∀ laws rest, form.mean laws rest = (meaning form).map fun head => (head, rest)

/-- Forms of one kind stand for something in one and the same way. -/
theorem standFor_cases (kind : Kind) : kind.tag? = none ∨ kind.isCommon = true ∨ kind.takesBranches = true ∨
    StandFor kind lowerFor ∨ StandFor kind lowerComment ∨ StandFor kind fun _ => none := by
  have ofKnown : ∀ tag, (entryOf tag).isSome = true → modernTag tag = "if" ∨ StandFor (.element tag) lowerFor ∨
      StandFor (.element tag) lowerComment ∨ StandFor (.element tag) fun _ => none := by
    intro tag known
    have standFor : ∀ meaning : Form → Option Form, (∀ form rest, (Walk.renamed form (modernTag tag)).rewrite rest =
        (meaning form).map fun head => (head, rest)) → StandFor (.element tag) meaning :=
      fun meaning rewrites form kind laws rest => (mean_of_known kind known).trans (rewrites form rest)
    have named := modernTag_of_known known
    simp only [List.mem_cons, List.not_mem_nil, or_false] at named
    rcases named with same | same | same | same | same
    · exact .inl same
    · exact .inr (.inr (.inr (standFor _ fun form rest => by rw [same]; rfl)))
    · exact .inr (.inr (.inr (standFor _ fun form rest => by rw [same]; rfl)))
    · exact .inr (.inl (standFor _ fun form rest => by rw [same]; rfl))
    · exact .inr (.inr (.inl (standFor _ fun form rest => by rw [same]; rfl)))
  cases kind with
  | element tag =>
      cases listed : entryOf tag with
      | none => exact .inr (.inl (by rw [Kind.isCommon, listed]; rfl))
      | some entry => exact .inr (.inr ((ofKnown tag (by rw [listed]; rfl)).imp_left beq_iff_eq.2))
  | customTag name renderer =>
      by_cases modern : modernTag name = name
      · by_cases neither : name ≠ "else-if" ∧ name ≠ "else"
        · exact .inr (.inl (by simp [Kind.isCommon, modern, neither]))
        · refine .inr (.inr (.inr (.inr (.inr fun form kind laws rest => ?_))))
          have either : name = "else-if" ∨ name = "else" := by
            by_contra others
            exact neither (not_or.1 others)
          rw [mean, lower_customTag kind, if_neg (not_not.2 modern), if_pos either]
          exact ite_self none
      · have renamed : ∀ form : Form, form.kind = .customTag name renderer → ∀ laws rest,
            form.mean laws rest = (Walk.renamed form (modernTag name)).mean laws rest :=
          fun form kind laws rest => (mean_renamed (by rw [kind]; rfl) modern).symm
        obtain ⟨known, idem⟩ := modernTag_modernTag modern
        rcases ofKnown (modernTag name) known with same | loops | comments | fails
        · have listed := modernTag_ne modern
          rw [idem.symm.trans same] at listed
          exact .inr (.inr (.inl (by simpa [Kind.takesBranches] using listed)))
        · exact .inr (.inr (.inr (.inl fun form kind laws rest => (renamed form kind laws rest).trans (loops _ rfl laws rest))))
        · exact .inr (.inr (.inr (.inr (.inl fun form kind laws rest =>
            (renamed form kind laws rest).trans (comments _ rfl laws rest)))))
        · exact .inr (.inr (.inr (.inr (.inr fun form kind laws rest =>
            (renamed form kind laws rest).trans (fails _ rfl laws rest)))))
  | _ => exact .inl rfl

/-- A form that takes no branch tags leaves its siblings, whatever they are. -/
theorem mean_alone (plain : form.kind.takesBranches = false) (means : form.mean laws rest = some (head, left)) :
    ∀ others, form.mean laws others = some (head, others) := by
  intro others
  have ofMap : ∀ {made : Option Form}, (made.map fun head => (head, rest)) = some (head, left) →
      (made.map fun head => (head, others)) = some (head, others) := by
    intro made found
    obtain ⟨given, rfl, same⟩ := Option.map_eq_some_iff.1 found
    rw [(Prod.mk.inj same).1]
    rfl
  rcases standFor_cases form.kind with untagged | common | takes | loops | comments | fails
  · rw [mean_untagged untagged] at means ⊢
    rw [(Prod.mk.inj (Option.some.inj means)).1]
  · obtain ⟨allowed, lowers⟩ := mean_eq_some_iff.1 means
    rw [lower_of_common common] at lowers
    exact mean_eq_some_iff.2 ⟨allowed, by rw [lower_of_common common, ofMap lowers]⟩
  · rw [takes] at plain
    cases plain
  · rw [loops form rfl] at means ⊢
    exact ofMap means
  · rw [comments form rfl] at means ⊢
    exact ofMap means
  · rw [fails form rfl] at means
    cases means

/-! ## Conditionals -/

/-- The kind of the loops that a conditional is put into, if it is repeated: as the `for` of its tag says. -/
def repeats? (form : Form) : Option (Option Kind) :=
  match form.attribute? "for" with
  | none => some none
  | some header => (loop? header.value.asCode).map some

/-- An `<if>` with a test, and maybe a loop that it is repeated by. -/
structure Opens (form : Form) (test : String) (loop : Option Kind) : Prop where
  only : form.hasOnly ["test", "for"] = true
  tested : form.code? "test" = some test
  checks : (Kind.branch (some test)).check = .ok ()
  repeated : form.repeats? = some loop

/-- A form in a loop, if there is one. -/
def looped : Option Kind → Form → Form
  | none, form => form
  | some kind, form => construct kind [form]

theorem lowerWith_eq_some_iff {kept : List Form} : form.lowerWith kept tags rest = some (head, left) ↔
    ∃ test loop others, form.Opens test loop ∧ branches false tags = some others ∧
      head = looped loop (construct .conditional (construct (.branch (some test)) kept :: others)) ∧ left = rest := by
  constructor
  · intro lowers
    unfold lowerWith at lowers
    split at lowers
    · next only =>
        simp only [Option.bind_eq_bind, Option.bind_eq_some_iff] at lowers
        obtain ⟨test, tested, kind, passes, others, made, lowers⟩ := lowers
        obtain ⟨checks, rfl⟩ := checked_eq_some_iff.1 passes
        split at lowers
        · next bare =>
            obtain ⟨rfl, rfl⟩ := Prod.mk.inj (Option.some.inj lowers)
            exact ⟨test, none, others, ⟨only, tested, checks, by rw [repeats?, bare]⟩, made, rfl, rfl⟩
        · next header carried =>
            obtain ⟨loop, loops, lowers⟩ := Option.bind_eq_some_iff.1 lowers
            obtain ⟨rfl, rfl⟩ := Prod.mk.inj (Option.some.inj lowers)
            exact ⟨test, some loop, others, ⟨only, tested, checks, by rw [repeats?, carried]; simp [loops]⟩, made, rfl, rfl⟩
    · cases lowers
  · rintro ⟨test, loop, others, ⟨only, tested, checks, repeated⟩, made, rfl, rfl⟩
    have passes : checked (.branch (some test)) = some (.branch (some test)) := checked_eq_some_iff.2 ⟨checks, rfl⟩
    cases carried : form.attribute? "for" with
    | none =>
        rw [repeats?, carried] at repeated
        obtain rfl := Option.some.inj repeated
        simp [lowerWith, only, tested, passes, made, carried, looped]
    | some header =>
        rw [repeats?, carried] at repeated
        obtain ⟨kind, loops, rfl⟩ := Option.map_eq_some_iff.1 repeated
        simp [lowerWith, only, tested, passes, made, carried, loops, looped]

end Form

namespace Gap

open Form

variable {laws : Laws} {gap outer inner : Gap} {form head : Form} {forms rest left before : List Form} {within : Bool}

/-- The forms with something in the gap. -/
def fill : Gap → List Form → List Form
  | .here before after, forms => before ++ (forms ++ after)
  | .inside before host gap after, forms => before ++ host.withChildren (gap.fill forms) :: after

/-- The forms directly behind the gap. -/
def behind : Gap → List Form
  | .here _ after => after
  | .inside _ _ gap _ => gap.behind

/-- Is the gap directly in a tag that takes branch tags? The flag tells whether that holds of the forms themselves. -/
def takes (within : Bool) : Gap → Bool
  | .here _ _ => within
  | .inside _ host gap _ => gap.takes host.kind.takesBranches

/-- All that the gap is in may have children. -/
def Contained : Gap → Prop
  | .here _ _ => True
  | .inside _ host gap _ => host.kind.isContainer = true ∧ gap.Contained

/-- A gap in a gap. -/
def comp : Gap → Gap → Gap
  | .here before after, .here front back => .here (before ++ front) (back ++ after)
  | .here before after, .inside front host gap back => .inside (before ++ front) host gap (back ++ after)
  | .inside before host gap after, other => .inside before host (gap.comp other) after

@[simp]
theorem fill_comp (outer inner : Gap) (forms : List Form) : (outer.comp inner).fill forms = outer.fill (inner.fill forms) := by
  induction outer with
  | here before after => cases inner <;> simp [comp, fill]
  | inside before host gap after hypothesis => rw [comp, fill, fill, hypothesis]

@[simp]
theorem takes_comp (outer inner : Gap) (within : Bool) :
    (outer.comp inner).takes within = inner.takes (outer.takes within) := by
  induction outer generalizing within with
  | here before after => cases inner <;> rfl
  | inside before host gap after hypothesis => exact hypothesis _

theorem Contained.comp (contains : outer.Contained) (contained : inner.Contained) : (outer.comp inner).Contained := by
  induction outer with
  | here before after =>
      cases inner with
      | here front back => exact trivial
      | inside front host gap back => exact contained
  | inside before host gap after hypothesis => exact ⟨contains.1, hypothesis contains.2⟩

/-- Where the forms themselves take no branch tags, fewer gaps do. -/
theorem takes_mono (taken : gap.takes false = true) : gap.takes within = true := by
  cases gap with
  | here before after => cases taken
  | inside before host gap after => exact taken

theorem behind_comp (bare : outer.behind = []) : (outer.comp inner).behind = inner.behind := by
  induction outer with
  | here before after =>
      obtain rfl : after = [] := bare
      cases inner with
      | here front back => exact List.append_nil back
      | inside front host gap back => rfl
  | inside before host gap after hypothesis => exact hypothesis bare

/-! ## Gaps in what forms stand for -/

/-- A gap that nothing comes behind, in something that takes no branch tags. -/
structure Tight (gap : Gap) : Prop where
  contained : gap.Contained
  plain : gap.takes false = false
  bare : gap.behind = []

theorem tight_here : Tight (.here before []) :=
  ⟨trivial, rfl, rfl⟩

/-- Whatever the forms are, what is made of them is the head with the forms in a gap below it. -/
def Yields (make : List Form → Option Form) : Prop :=
  ∃ (head : Form) (gap : Gap), gap.Tight ∧ ∀ forms, make forms = some (head.withChildren (gap.fill forms))

theorem yields_self (form : Form) : Yields fun forms => some (form.withChildren forms) :=
  ⟨form, .here [] [], tight_here, fun forms => by simp [fill]⟩

theorem yields_construct (kind : Kind) (tight : gap.Tight) : Yields fun forms => some (construct kind (gap.fill forms)) :=
  ⟨construct kind [], gap, tight, fun _ => rfl⟩

/-- A conditional that may be in a loop. -/
theorem yields_looped (loop : Option Kind) (tight : gap.Tight) :
    Yields fun forms => some (looped loop (construct .conditional (gap.fill forms))) := by
  cases loop with
  | none => exact yields_construct .conditional tight
  | some kind =>
      exact @yields_construct (.inside [] (construct .conditional []) gap []) kind
        ⟨⟨rfl, tight.contained⟩, tight.plain, tight.bare⟩

theorem isContainer_of_isCommon {kind : Kind} (common : kind.isCommon = true) : kind.isContainer = true := by
  cases kind <;> first | rfl | cases common

/-- A tag with directives stands for itself, or is put into something. -/
theorem yields_lowerDirective (common : form.kind.isCommon = true) (lowers : form.lowerDirective = some head) :
    Yields fun forms => (form.withChildren forms).lowerDirective := by
  have without : ∀ name forms, (form.withChildren forms).without name = (form.without name).withChildren forms := by
    cases form
    exact fun _ _ => rfl
  have header : ∀ forms, (form.withChildren forms).loopHeader? = form.loopHeader? := by
    cases form
    exact fun _ => rfl
  have condition : ∀ forms, (form.withChildren forms).attribute? "if" = form.attribute? "if" := by
    cases form
    exact fun _ => rfl
  have container := isContainer_of_isCommon common
  have plain := takesBranches_of_isCommon common
  unfold lowerDirective at lowers ⊢
  simp only [header, condition, without]
  split at lowers
  · obtain ⟨loop, loops, -⟩ := Option.bind_eq_some_iff.1 lowers
    have yields := @yields_construct (.inside [] (form.without "for") (.here [] []) []) loop
      ⟨⟨container, trivial⟩, plain, rfl⟩
    simpa [fill, loops] using yields
  · split at lowers
    · next test carried =>
        split at lowers
        · cases lowers
        · next given =>
            obtain ⟨kind, passes, -⟩ := Option.bind_eq_some_iff.1 lowers
            obtain ⟨-, rfl⟩ := checked_eq_some_iff.1 passes
            have yields := @yields_construct (.inside [] (construct (.branch (some test.value.asCode)) [])
              (.inside [] (form.without "if") (.here [] []) []) []) .conditional
              ⟨⟨rfl, container, trivial⟩, plain, rfl⟩
            simpa [fill, carried, given, conditional?, passes, construct, withChildren] using yields
    · next bare =>
        simpa [bare] using yields_self form

/-- A loop has the children of its tag, or a conditional has them in the loop. -/
theorem yields_lowerFor (lowers : form.lowerFor = some head) : Yields fun forms => (form.withChildren forms).lowerFor := by
  have only : ∀ forms names, (form.withChildren forms).hasOnly names = form.hasOnly names := by
    cases form
    exact fun _ _ => rfl
  have code : ∀ forms name, (form.withChildren forms).code? name = form.code? name := by
    cases form
    exact fun _ _ => rfl
  have condition : ∀ forms, (form.withChildren forms).attribute? "if" = form.attribute? "if" := by
    cases form
    exact fun _ => rfl
  unfold lowerFor at lowers ⊢
  simp only [only, code, condition, children_withChildren]
  split at lowers
  · next allowed =>
      simp only [Option.bind_eq_bind, Option.bind_eq_some_iff] at lowers
      obtain ⟨header, named, loop, loops, lowers⟩ := lowers
      split at lowers
      · next bare =>
          have yields := @yields_construct (.here [] []) loop tight_here
          simpa [fill, allowed, named, loops, bare] using yields
      · next test carried =>
          simp only [Option.bind_eq_some_iff] at lowers
          obtain ⟨test, tested, conditional, made, -⟩ := lowers
          obtain ⟨kind, passes, -⟩ := Option.bind_eq_some_iff.1 made
          obtain ⟨-, rfl⟩ := checked_eq_some_iff.1 passes
          have yields := @yields_construct (.inside [] (construct .conditional []) (.inside []
            (construct (.branch (some test)) []) (.here [] []) []) []) loop ⟨⟨rfl, rfl, trivial⟩, rfl, rfl⟩
          simpa [fill, allowed, named, loops, carried, tested, conditional?, passes, construct, withChildren] using yields
  · cases lowers

theorem textOf_eq_none {child : Form} (member : child ∈ forms) (other : ∀ value, child.kind ≠ .text value) :
    textOf forms = none := by
  induction forms with
  | nil => cases member
  | cons form rest hypothesis =>
      rw [textOf]
      split
      · next value kind =>
          rcases List.mem_cons.1 member with rfl | later
          · exact absurd kind (other value)
          · rw [hypothesis later]
            rfl
      · rfl

/-- What is made of a form that takes no branch tags has its children in a gap, if they are not all text. -/
theorem yields_mean (plain : form.kind.takesBranches = false) (means : form.mean laws rest = some (head, left))
    (nested : textOf form.children = none) :
    ∃ (head : Form) (gap : Gap), gap.Tight ∧
      ∀ forms, (form.withChildren forms).mean laws rest = some (head.withChildren (gap.fill forms), rest) := by
  have kinds : ∀ forms, (form.withChildren forms).kind = form.kind := kind_withChildren form
  have ofYields : ∀ {make : List Form → Option Form}, Yields make →
      (∀ forms, (form.withChildren forms).mean laws rest = (make forms).map fun head => (head, rest)) →
      ∃ (head : Form) (gap : Gap), gap.Tight ∧
        ∀ forms, (form.withChildren forms).mean laws rest = some (head.withChildren (gap.fill forms), rest) := by
    rintro make ⟨head, gap, tight, makes⟩ same
    exact ⟨head, gap, tight, fun forms => by rw [same, makes]; rfl⟩
  rcases standFor_cases form.kind with untagged | common | takes | loops | comments | fails
  · exact ofYields (yields_self form) fun forms => mean_untagged (by rw [kinds, untagged])
  · obtain ⟨allowed, lowers⟩ := mean_eq_some_iff.1 means
    refine ofYields (yields_lowerDirective common (lowerDirective_of_lower common lowers).1) fun forms => ?_
    have same : (form.withChildren forms).isAllowed laws = form.isAllowed laws := by
      rw [isAllowed, isAllowed, kinds, attributes_withChildren]
    rw [mean, same, if_pos allowed, lower_of_common (by rw [kinds, common])]
  · rw [takes] at plain
    cases plain
  · rw [loops form rfl] at means
    obtain ⟨made, lowers, -⟩ := Option.map_eq_some_iff.1 means
    exact ofYields (yields_lowerFor lowers) fun forms => loops _ (kinds forms) laws rest
  · rw [comments form rfl, lowerComment, nested] at means
    split at means <;> cases means
  · rw [fails form rfl] at means
    cases means

end Gap
end HtmlTemplate
