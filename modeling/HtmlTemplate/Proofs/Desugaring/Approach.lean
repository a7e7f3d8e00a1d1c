import HtmlTemplate.Proofs.Desugaring.Gap

/-!
# Towards a gap

Turn by turn, rewriting passes a form before a gap or enters the form that the gap is in. A branch tag may be taken on
the way by an `<if>` before it or around it, and the gap with it if it is below. In the end the gap is what is next, and
what has been made around it does not depend on what is to be filled in.
-/

namespace HtmlTemplate
namespace Gap

open Form

variable {laws : Laws} {gap next outer inner : Gap} {form head host : Form} {forms rest left before after : List Form}
variable {within : Bool}

/-! ## Branch tags around gaps -/

/-- Branch tags stand for branches with their children. -/
theorem branches_around {closed : Bool} {tag : Form} {tags more made : List Form}
    (found : branches closed (tags ++ tag :: more) = some made) :
    ∃ (front back : List Form) (test : Option String), ∀ forms,
      branches closed (tags ++ tag.withChildren forms :: more) = some (front ++ construct (.branch test) forms :: back) := by
  have same : ∀ forms, (tag.withChildren forms).test? = tag.test? := by
    cases tag
    exact fun _ => rfl
  induction tags generalizing closed made with
  | nil =>
      cases closed with
      | true => cases found
      | false =>
          simp only [List.nil_append, branches, Option.bind_eq_bind, Option.bind_eq_some_iff] at found
          obtain ⟨test, tested, kind, passes, others, rest, -⟩ := found
          obtain ⟨-, rfl⟩ := checked_eq_some_iff.1 passes
          exact ⟨[], others, test, fun forms => by simp [branches, same, tested, passes, rest]⟩
  | cons first tags hypothesis =>
      cases closed with
      | true => cases found
      | false =>
          simp only [List.cons_append, branches, Option.bind_eq_bind, Option.bind_eq_some_iff] at found
          obtain ⟨test, tested, kind, passes, others, rest, -⟩ := found
          obtain ⟨front, back, other, around⟩ := hypothesis rest
          exact ⟨construct kind first.children :: front, back, other, fun forms => by
            simp [branches, tested, passes, around]⟩

/-- Behind an `<if>`, branch tags are taken up to a form that is no blank text, or up to one that comes before it; and if
that form is a branch tag, it may be taken as well. -/
theorem takeFollowing_around (before : List Form) (branch : Bool) :
    (∃ tags remaining, ∀ first rest, first.isBlank = false → first.isBranch = branch →
      takeFollowing (before ++ first :: rest) = (tags, remaining ++ first :: rest)) ∨
    branch = true ∧ ∃ tags, ∀ first rest, first.isBlank = false → first.isBranch = branch →
      takeFollowing (before ++ first :: rest) = (tags ++ first :: (takeFollowing rest).1, (takeFollowing rest).2) := by
  induction before with
  | nil =>
      cases branch with
      | true => exact .inr ⟨rfl, [], fun first rest solid tag => by simp [takeFollowing, solid, tag]⟩
      | false => exact .inl ⟨[], [], fun first rest solid other => by simp [takeFollowing, solid, other]⟩
  | cons form before hypothesis =>
      have next : ∀ first rest, first.isBranch = branch → ((before ++ first :: rest).head?.any isBranch) =
          (before.head?.map isBranch).getD branch := by
        intro first rest same
        cases before with
        | nil => exact same
        | cons second before => rfl
      cases blank : form.isBlank with
      | true =>
          cases followed : (before.head?.map isBranch).getD branch with
          | true =>
              have opens : ∀ first rest, first.isBranch = branch →
                  takeFollowing (form :: before ++ first :: rest) = takeFollowing (before ++ first :: rest) := by
                intro first rest same
                rw [List.cons_append, takeFollowing, if_pos blank, next first rest same, if_pos followed]
              refine hypothesis.imp ?_ ?_
              · rintro ⟨tags, remaining, stops⟩
                exact ⟨tags, remaining, fun first rest solid same => by rw [opens first rest same, stops first rest solid same]⟩
              · rintro ⟨tag, tags, takes⟩
                exact ⟨tag, tags, fun first rest solid same => by rw [opens first rest same, takes first rest solid same]⟩
          | false =>
              refine .inl ⟨[], form :: before, fun first rest _ same => ?_⟩
              rw [List.cons_append, takeFollowing, if_pos blank, next first rest same, followed, if_neg Bool.false_ne_true]
      | false =>
          cases tag : form.isBranch with
          | true =>
              refine hypothesis.imp ?_ ?_
              · rintro ⟨tags, remaining, stops⟩
                exact ⟨form :: tags, remaining, fun first rest solid same => by
                  simp [takeFollowing, blank, tag, stops first rest solid same]⟩
              · rintro ⟨same, tags, takes⟩
                exact ⟨same, form :: tags, fun first rest solid same => by
                  simp [takeFollowing, blank, tag, takes first rest solid same]⟩
          | false => exact .inl ⟨[], form :: before, fun first rest _ _ => by simp [takeFollowing, blank, tag]⟩

theorem lowerWith_withChildren (form : Form) (children kept tags rest : List Form) :
    (form.withChildren children).lowerWith kept tags rest = form.lowerWith kept tags rest := by
  cases form
  rfl

/-- The first branch of a conditional has what is left of the children of the `<if>`. -/
theorem lowerWith_kept {kept tags : List Form} (lowers : form.lowerWith kept tags rest = some (head, left)) :
    ∃ (made : Form) (gap : Gap), gap.Tight ∧
      ∀ forms, form.lowerWith forms tags rest = some (made.withChildren (gap.fill forms), rest) := by
  obtain ⟨test, loop, others, opens, branches, -, -⟩ := lowerWith_eq_some_iff.1 lowers
  obtain ⟨made, gap, tight, makes⟩ := @yields_looped (.inside [] (construct (.branch (some test)) []) (.here [] []) others) loop
    ⟨⟨rfl, trivial⟩, rfl, rfl⟩
  refine ⟨made, gap, tight, fun forms => ?_⟩
  rw [← Option.some.inj (makes forms)]
  exact lowerWith_eq_some_iff.2 ⟨test, loop, others, opens, branches, by simp [fill, construct, withChildren], rfl⟩

/-- The other branches of a conditional have the children of the branch tags. -/
theorem lowerWith_around {tag : Form} {kept tags more : List Form}
    (lowers : form.lowerWith kept (tags ++ tag :: more) rest = some (head, left)) :
    ∃ (made : Form) (gap : Gap), gap.Tight ∧ ∀ forms,
      form.lowerWith kept (tags ++ tag.withChildren forms :: more) rest = some (made.withChildren (gap.fill forms), rest) := by
  obtain ⟨test, loop, others, opens, branches, -, -⟩ := lowerWith_eq_some_iff.1 lowers
  obtain ⟨front, back, own, around⟩ := branches_around branches
  obtain ⟨made, gap, tight, makes⟩ := @yields_looped (.inside (construct (.branch (some test)) kept :: front)
    (construct (.branch own) []) (.here [] []) back) loop ⟨⟨rfl, trivial⟩, rfl, rfl⟩
  refine ⟨made, gap, tight, fun forms => ?_⟩
  rw [← Option.some.inj (makes forms)]
  exact lowerWith_eq_some_iff.2 ⟨test, loop, _, opens, around forms, by simp [fill, construct, withChildren], rfl⟩

/-- The siblings that are left do not matter to an `<if>`. -/
theorem lowerWith_beside {kept tags : List Form} (lowers : form.lowerWith kept tags rest = some (head, left)) :
    ∀ others, form.lowerWith kept tags others = some (head, others) := by
  obtain ⟨test, loop, made, opens, branches, rfl, -⟩ := lowerWith_eq_some_iff.1 lowers
  exact fun others => lowerWith_eq_some_iff.2 ⟨test, loop, made, opens, branches, rfl, rfl⟩

/-! ## Turns -/

/-- What the first of some forms stands for, and the forms that are left. -/
def turn (laws : Laws) : List Form → Option (Form × List Form)
  | [] => none
  | form :: rest => form.mean laws rest

/-- What may be filled into a gap: forms of which the first one is neither blank text nor a branch tag, and none is a
branch tag if the gap is directly in a tag that takes those. -/
structure Fits (within : Bool) (forms : List Form) : Prop where
  head : ∃ first rest, forms = first :: rest ∧ first.isBlank = false ∧ first.isBranch = false
  plain : within = true → ∀ form ∈ forms, form.isBranch = false

theorem Fits.filter (fits : Fits true forms) :
    forms.filter isBranch = [] ∧ (forms.filter fun form => !form.isBranch) = forms := by
  have plain := fits.plain rfl
  exact ⟨List.filter_eq_nil_iff.2 fun form member => by simp [plain form member],
    List.filter_eq_self.2 fun form member => by simp [plain form member]⟩

/-- A turn leads from one gap to another: it passes a form before the gap, or enters the one that the gap is in. -/
structure Leads (laws : Laws) (gap next : Gap) : Prop where
  contained : next.Contained
  takes : next.takes false = true → gap.takes false = true
  behind : next.behind = gap.behind ∨ ∀ form ∈ next.behind, form.isBranch = false
  turns : (∃ head, ∀ forms, Fits (gap.takes false) forms → turn laws (gap.fill forms) = some (head, next.fill forms)) ∨
    ∃ (head : Form) (left : List Form), ∀ forms, Fits (gap.takes false) forms →
      turn laws (gap.fill forms) = some (head.withChildren (next.fill forms), left)

theorem weight_turn {all : List Form} (turned : turn laws all = some (head, left)) :
    weightAll head.children + weightAll left < weightAll all := by
  cases all with
  | nil => cases turned
  | cons form rest => exact weight_mean turned

/-- A turn leaves less to rewrite. -/
theorem Leads.lighter (leads : Leads laws gap next) (fits : Fits (gap.takes false) forms) :
    weightAll (next.fill forms) < weightAll (gap.fill forms) := by
  rcases leads.turns with ⟨head, turns⟩ | ⟨head, left, turns⟩
  · have lighter := weight_turn (turns forms fits)
    omega
  · have lighter := weight_turn (turns forms fits)
    rw [children_withChildren] at lighter
    omega

theorem settle_turn {all : List Form} {given : Form × List Form} (turned : turn laws all = some given) :
    settle laws all = (settle laws given.1.children).bind fun below =>
      (settle laws given.2).map fun others => given.1.withChildren below :: others := by
  cases all with
  | nil => cases turned
  | cons form rest =>
      rw [settle_cons, show form.mean laws rest = some given from turned]
      simp [Option.map_eq_bind]

theorem exists_turn {all below : List Form} (filled : all ≠ []) (settles : settle laws all = some below) :
    ∃ head left, turn laws all = some (head, left) := by
  cases all with
  | nil => exact absurd rfl filled
  | cons form rest =>
      rw [settle_cons] at settles
      obtain ⟨⟨head, left⟩, means, -⟩ := Option.bind_eq_some_iff.1 settles
      exact ⟨head, left, means⟩

theorem fill_ne_nil (fits : Fits within forms) : gap.fill forms ≠ [] := by
  obtain ⟨first, rest, rfl, -⟩ := fits.head
  cases gap <;> simp [fill]

/-- What forms come to around a gap does not depend on what is in it. -/
theorem Leads.settles {below : List Form} (leads : Leads laws gap next) (fits : Fits (gap.takes false) forms)
    (settles : settle laws (gap.fill forms) = some below) :
    (∃ beneath, settle laws (next.fill forms) = some beneath) ∧ ∃ outer : Gap, ∀ others, Fits (gap.takes false) others →
      settle laws (gap.fill others) = (settle laws (next.fill others)).map outer.fill := by
  rcases leads.turns with ⟨head, turns⟩ | ⟨head, left, turns⟩
  · rw [settle_turn (turns forms fits)] at settles
    obtain ⟨under, known, settles⟩ := Option.bind_eq_some_iff.1 settles
    obtain ⟨beside, found, -⟩ := Option.map_eq_some_iff.1 settles
    refine ⟨⟨beside, found⟩, .here [head.withChildren under] [], fun others fit => ?_⟩
    rw [settle_turn (turns others fit), known, Option.bind_some]
    simp [fill]
  · rw [settle_turn (turns forms fits)] at settles
    obtain ⟨under, found, settles⟩ := Option.bind_eq_some_iff.1 settles
    obtain ⟨beside, known, -⟩ := Option.map_eq_some_iff.1 settles
    rw [children_withChildren] at found
    refine ⟨⟨under, found⟩, .inside [] head (.here [] []) beside, fun others fit => ?_⟩
    rw [settle_turn (turns others fit), known]
    simp [fill, Option.map_eq_bind]

/-! ## Towards a gap -/

theorem Tight.leads (tight : outer.Tight) (head : Form) (left : List Form) (contained : inner.Contained)
    (takes : inner.takes false = true → gap.takes false = true)
    (behind : inner.behind = gap.behind ∨ ∀ form ∈ inner.behind, form.isBranch = false)
    (turns : ∀ forms, Fits (gap.takes false) forms →
      turn laws (gap.fill forms) = some (head.withChildren (outer.fill (inner.fill forms)), left)) :
    Leads laws gap (outer.comp inner) where
  contained := tight.contained.comp contained
  takes := by rwa [takes_comp, tight.plain]
  behind := by rwa [behind_comp tight.bare]
  turns := .inr ⟨head, left, fun forms fits => by rw [fill_comp, turns forms fits]⟩

/-- A form before a gap is passed. -/
theorem leads_here (fits : Fits false forms)
    (turned : turn laws (fill (.here (form :: before) after) forms) = some (head, left)) :
    ∃ next, Leads laws (.here (form :: before) after) next := by
  cases takes : form.kind.takesBranches with
  | false => exact ⟨.here before after, trivial, id, .inl rfl, .inl ⟨head, fun others _ => mean_alone takes turned _⟩⟩
  | true =>
      rcases takeFollowing_around before false with ⟨tags, remaining, stops⟩ | ⟨impossible, -⟩
      · have takesThose : ∀ others, Fits false others → turn laws (fill (.here (form :: before) after) others) =
            form.lowerWith (form.children.filter fun child => !child.isBranch) (form.children.filter isBranch ++ tags)
              (fill (.here remaining after) others) := by
          intro others fit
          obtain ⟨first, rest, rfl, solid, other⟩ := fit.head
          change form.mean laws (before ++ first :: (rest ++ after)) = _
          rw [mean_of_takesBranches takes, lowerIf_eq, stops first (rest ++ after) solid other]
          rfl
        rw [takesThose forms fits] at turned
        exact ⟨.here remaining after, trivial, id, .inl rfl,
          .inl ⟨head, fun others fit => (takesThose others fit).trans (lowerWith_beside turned _)⟩⟩
      · cases impossible

theorem isBlank_of_isContainer (container : form.kind.isContainer = true) : form.isBlank = false := by
  rw [isBlank]
  split
  · next value kind =>
      rw [kind] at container
      cases container
  · rfl

/-- A form before the one that the gap is in is passed, and the latter with it if it is a branch tag. -/
theorem leads_beside (contained : Contained (.inside (form :: before) host gap after))
    (turned : turn laws (fill (.inside (form :: before) host gap after) forms) = some (head, left)) :
    ∃ next, Leads laws (.inside (form :: before) host gap after) next := by
  cases takes : form.kind.takesBranches with
  | false =>
      exact ⟨.inside before host gap after, contained, id, .inl rfl, .inl ⟨head, fun others _ => mean_alone takes turned _⟩⟩
  | true =>
      have solid : ∀ forms, (host.withChildren forms).isBlank = false := fun forms => by
        rw [isBlank_withChildren, isBlank_of_isContainer contained.1]
      have lowers : ∀ others, turn laws (fill (.inside (form :: before) host gap after) others) =
          form.lowerWith (form.children.filter fun child => !child.isBranch)
            (form.children.filter isBranch ++ (takeFollowing (before ++ host.withChildren (gap.fill others) :: after)).1)
            (takeFollowing (before ++ host.withChildren (gap.fill others) :: after)).2 :=
        fun others => (mean_of_takesBranches takes).trans (lowerIf_eq ..)
      rw [lowers] at turned
      rcases takeFollowing_around before host.isBranch with ⟨tags, remaining, stops⟩ | ⟨branch, tags, follows⟩
      · have stopsThere := fun others => stops _ after (solid (gap.fill others)) (isBranch_withChildren host _)
        rw [stopsThere] at turned
        exact ⟨.inside remaining host gap after, contained, id, .inl rfl, .inl ⟨head, fun others _ => by
          rw [lowers, stopsThere, lowerWith_beside turned]
          rfl⟩⟩
      · have followsThere := fun others => follows _ after (solid (gap.fill others)) (isBranch_withChildren host _)
        rw [followsThere, ← List.append_assoc] at turned
        obtain ⟨made, outer, tight, makes⟩ := lowerWith_around turned
        refine ⟨outer.comp gap, tight.leads made (takeFollowing after).2 contained.2 takes_mono (.inl rfl) fun others _ => ?_⟩
        rw [lowers, followsThere, ← List.append_assoc]
        simpa using makes (gap.fill others)

/-- The children of an `<if>` are parted into branch tags and others, and the gap is among or below some of these. -/
theorem filter_fill (contained : gap.Contained) :
    (∃ (inner : Gap) (tags : List Form), inner.Contained ∧ (inner.takes false = true → gap.takes true = true) ∧
      (inner.behind = gap.behind ∨ ∀ form ∈ inner.behind, form.isBranch = false) ∧
      ∀ forms, Fits (gap.takes true) forms → (gap.fill forms).filter isBranch = tags ∧
        ((gap.fill forms).filter fun form => !form.isBranch) = inner.fill forms) ∨
    ∃ (host : Form) (inner : Gap) (kept front back : List Form), inner.Contained ∧
      (inner.takes false = true → gap.takes true = true) ∧ inner.behind = gap.behind ∧
      ∀ forms, ((gap.fill forms).filter fun form => !form.isBranch) = kept ∧
        (gap.fill forms).filter isBranch = front ++ host.withChildren (inner.fill forms) :: back := by
  cases gap with
  | here before after =>
      refine .inl ⟨.here (before.filter fun form => !form.isBranch) (after.filter fun form => !form.isBranch),
        before.filter isBranch ++ after.filter isBranch, trivial, fun _ => rfl, .inr ?_, ?_⟩
      · intro form member
        simpa using (List.mem_filter.1 member).2
      · intro forms fits
        obtain ⟨none, all⟩ := Fits.filter fits
        simp [fill, none, all]
  | inside before host gap after =>
      cases branch : host.isBranch with
      | false =>
          exact .inl ⟨.inside (before.filter fun form => !form.isBranch) host gap (after.filter fun form => !form.isBranch),
            before.filter isBranch ++ after.filter isBranch, contained, id, .inl rfl, fun forms _ => by
              simp [fill, branch]⟩
      | true =>
          exact .inr ⟨host, gap, before.filter (fun form => !form.isBranch) ++ after.filter (fun form => !form.isBranch),
            before.filter isBranch, after.filter isBranch, contained.2, takes_mono, rfl, fun forms => by
              simp [fill, branch]⟩

/-- Text has nothing below it, so the gap is not among text only. -/
theorem textOf_fill (contained : gap.Contained) (tagged : ∀ first ∈ forms.head?, first.kind.tag? ≠ none) (filled : forms ≠ []) :
    textOf (gap.fill forms) = none := by
  cases gap with
  | here before after =>
      cases forms with
      | nil => exact absurd rfl filled
      | cons first rest =>
          refine @textOf_eq_none _ first (by simp [fill]) fun value kind => ?_
          exact tagged first rfl (by rw [kind]; rfl)
  | inside before host gap after =>
      refine @textOf_eq_none _ (host.withChildren (gap.fill forms)) (by simp [fill]) fun value kind => ?_
      have container := contained.1
      rw [← kind_withChildren host (gap.fill forms), kind] at container
      cases container

/-- A form that the gap is in is entered. -/
theorem leads_inside (contained : Contained (.inside [] host gap after))
    (fits : Fits (takes false (.inside [] host gap after)) forms) (tagged : ∀ first ∈ forms.head?, first.kind.tag? ≠ none)
    (turned : turn laws (fill (.inside [] host gap after) forms) = some (head, left)) :
    ∃ next, Leads laws (.inside [] host gap after) next := by
  obtain ⟨first, rest, rfl, -, -⟩ := fits.head
  cases takes : host.kind.takesBranches with
  | false =>
      have nested : textOf (host.withChildren (gap.fill (first :: rest))).children = none := by
        rw [children_withChildren, textOf_fill contained.2 tagged (List.cons_ne_nil _ _)]
      obtain ⟨made, outer, tight, makes⟩ := yields_mean (by rw [kind_withChildren, takes]) turned nested
      refine ⟨outer.comp gap, tight.leads made after contained.2 takes_mono (.inl rfl) fun others _ => ?_⟩
      have filled := makes (gap.fill others)
      rw [withChildren_withChildren] at filled
      exact filled
  | true =>
      have lowers : ∀ others, turn laws (fill (.inside [] host gap after) others) =
          host.lowerWith ((gap.fill others).filter fun child => !child.isBranch)
            ((gap.fill others).filter isBranch ++ (takeFollowing after).1) (takeFollowing after).2 := by
        intro others
        refine (mean_of_takesBranches (by rw [kind_withChildren, takes])).trans ?_
        rw [lowerIf_eq, children_withChildren, lowerWith_withChildren]
      have within : Gap.takes false (.inside [] host gap after) = gap.takes true := by rw [Gap.takes, takes]
      rw [within] at fits
      rw [lowers] at turned
      rcases filter_fill contained.2 with ⟨inner, tags, holds, mono, behind, parts⟩ |
        ⟨tag, inner, kept, front, back, holds, mono, behind, parts⟩
      · rw [(parts _ fits).1, (parts _ fits).2] at turned
        obtain ⟨made, outer, tight, makes⟩ := lowerWith_kept turned
        refine ⟨outer.comp inner, tight.leads made (takeFollowing after).2 holds (by rwa [within]) behind fun others fit => ?_⟩
        rw [within] at fit
        rw [lowers, (parts others fit).1, (parts others fit).2, makes]
      · rw [(parts _).1, (parts _).2, List.append_assoc] at turned
        obtain ⟨made, outer, tight, makes⟩ := lowerWith_around turned
        refine ⟨outer.comp inner, tight.leads made (takeFollowing after).2 holds (by rwa [within]) (.inl behind)
          fun others _ => ?_⟩
        rw [lowers, (parts others).1, (parts others).2, List.append_assoc]
        simpa using makes (inner.fill others)

/-- Turns lead to the gap: it does not matter to what is around the gap, once it has come to something, what is in the
gap. The induction is on what there is to rewrite. -/
theorem settles_around {below : List Form} (contained : gap.Contained) (fits : Fits (gap.takes false) forms)
    (tagged : ∀ first ∈ forms.head?, first.kind.tag? ≠ none) (settles : settle laws (gap.fill forms) = some below) :
    ∃ (around : Gap) (after : List Form), (after = gap.behind ∨ ∀ form ∈ after, form.isBranch = false) ∧
      ∀ others, Fits (gap.takes false) others →
        settle laws (gap.fill others) = (settle laws (others ++ after)).map around.fill := by
  induction size : weightAll (gap.fill forms) using Nat.strong_induction_on generalizing gap below with
  | h weight hypothesis =>
      subst size
      have onward : (∃ next, Leads laws gap next) → ∃ (around : Gap) (after : List Form),
          (after = gap.behind ∨ ∀ form ∈ after, form.isBranch = false) ∧ ∀ others, Fits (gap.takes false) others →
            settle laws (gap.fill others) = (settle laws (others ++ after)).map around.fill := by
        rintro ⟨next, leads⟩
        have fitsNext : ∀ {others}, Fits (gap.takes false) others → Fits (next.takes false) others :=
          fun fit => ⟨fit.head, fun within => fit.plain (leads.takes within)⟩
        obtain ⟨⟨beneath, found⟩, outer, same⟩ := leads.settles fits settles
        obtain ⟨around, after, behind, comes⟩ :=
          hypothesis _ (leads.lighter fits) leads.contained (fitsNext fits) found rfl
        refine ⟨outer.comp around, after, ?_, fun others fit => ?_⟩
        · rcases behind with rfl | plain
          · exact leads.behind
          · exact .inr plain
        · rw [same others fit, comes others (fitsNext fit), Option.map_map]
          exact congrArg (Option.map · _) (funext fun forms => (fill_comp outer around forms).symm)
      obtain ⟨head, left, turned⟩ := exists_turn (fill_ne_nil fits) settles
      match gap, contained, fits, turned, onward with
      | .here [] after, _, _, _, _ => exact ⟨.here [] [], after, .inl rfl, fun others _ => by simp [fill]⟩
      | .here (form :: before) after, _, fits, turned, onward => exact onward (leads_here fits turned)
      | .inside [] host gap after, contained, fits, turned, onward => exact onward (leads_inside contained fits tagged turned)
      | .inside (form :: before) host gap after, contained, _, turned, onward => exact onward (leads_beside contained turned)

end Gap
end HtmlTemplate
