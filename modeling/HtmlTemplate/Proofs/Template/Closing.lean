import HtmlTemplate.Proofs.Markup.Content
import HtmlTemplate.Proofs.Template.Stretches
import Mathlib

/-!
# Tags that close themselves, where the text is read

Tags that close themselves are found by their shape and written out before the text is read. Where every stretch is
written out as it is read, the document is the one in which each such tag is taken together with an end tag. A stretch
is written out otherwise where the shape misses a tag or finds one that is none, in a comment for example.
-/

namespace HtmlTemplate
namespace SelfClosing

open Markup Build

variable {text rest name content : List Char} {tag : Tag}

/-! ## Stretches that are written out as they are read -/

/-- Nothing in the text has the shape of a tag that is written out. -/
def Untouched (text : List Char) : Prop :=
  ∀ behind, '<' :: behind <:+ text → ∀ name content rest, Shaped behind name content rest →
    Name.isVoid (String.ofList name) = true

/-- A tag that closes itself is written out as one: it has the shape of one, and it loses no more than its only slash
and white space of markup before it. Behind `plaintext` no end tag is known. -/
structure Regular (name content : List Char) : Prop where
  shaped : Shaped (name ++ (content ++ ['/', '>'])) name content []
  blank : ∀ c ∈ content.reverse.takeWhile Text.isSpace, isGap c = true
  single : (readTag (name ++ (trimmed content ++ ['>']))).map (fun found => found.1.selfClosing) = some false
  bounded : nameText name ≠ "plaintext"

/-- Is the stretch written out as it is read? -/
def Stretch.Fits : Stretch → Prop
  | plain source => Untouched source
  | closing name content => Regular name content

theorem Untouched.expand (untouched : Untouched text) : expand text = text := by
  induction length : text.length using Nat.strong_induction_on generalizing text with
  | _ length hypothesis =>
      have inner {rest : List Char} (ends : rest <:+ text) (shorter : rest.length < text.length) :
          SelfClosing.expand rest = rest :=
        hypothesis _ (length ▸ shorter) (fun behind tail => untouched behind (tail.trans ends)) rfl
      match text with
      | [] => exact expand_nil
      | c :: text =>
          have tail := inner (List.suffix_cons c text) (Nat.lt_succ_self _)
          by_cases bracket : c = '<'
          · subst bracket
            cases isTag : read? text with
            | none => rw [expand_of_none isTag, tail]
            | some found =>
                obtain ⟨name, content, after⟩ := found
                have shaped := read?_eq_some_iff.1 isTag
                have source : '<' :: text = '<' :: name ++ content ++ ['/', '>'] ++ after := by simp [shaped.shape]
                have shorter : after.length < ('<' :: text).length := by
                  rw [source]
                  simp
                  omega
                rw [expand_of_shaped shaped, expandTag, if_pos (untouched text List.suffix_rfl _ _ _ shaped),
                  inner ⟨_, source.symm⟩ shorter, source]
          · rw [expand_cons_of_ne bracket, tail]

theorem exists_trimmed (content : List Char) :
    ∃ blanks, content = trimmed content ++ blanks ∧ ∀ c ∈ blanks, Text.isSpace c = true := by
  cases content with
  | nil => exact ⟨[], rfl, nofun⟩
  | cons c content =>
      obtain ⟨blanks, source, spaces⟩ := Text.trimRight_source content
      exact ⟨blanks, congrArg (c :: ·) source, spaces⟩

theorem isVoid_nameText (named : ∀ c ∈ name, Name.isTagPart c = true) :
    Name.isVoid (nameText name) = Name.isVoid (String.ofList name) := by
  have lower : (nameText name).toLower = (String.ofList name).toLower := by
    have present : ∀ c ∈ name, (kept c).toLower.toLower = c.toLower := by
      intro c member
      have other : c ≠ '\x00' := fun same => by cases same ▸ named c member
      rw [kept, if_neg (mt beq_iff_eq.1 other), Char.toLower_toLower_eq_toLower]
    rw [← String.toList_inj]
    simp only [nameText, String.toLower, String.toList_map, String.toList_ofList, List.map_map]
    exact List.map_congr_left present
  rw [Name.isVoid, Name.isVoid, lower]

theorem Regular.expand (regular : Regular name content) (holds : Name.isVoid (nameText name) = false)
    (rest : List Char) :
    expand ((Stretch.closing name content).source ++ rest) = (Stretch.closing name content).written ++ expand rest := by
  have shaped := regular.shaped.append rest
  rw [Stretch.source, List.cons_append, expand_of_shaped shaped, List.nil_append, expandTag, if_neg, Stretch.written]
  · simp
  · rw [← isVoid_nameText regular.shaped.named, holds]
    exact Bool.false_ne_true

/-- Without its slash a regular tag is the same tag. -/
theorem Regular.read {source : List Char} (regular : Regular name content)
    (tagged : Tagged name content source rest tag) (closes : tag.selfClosing = true) (other : List Char) :
    readTag (name ++ (trimmed content ++ '>' :: other)) = some ({ tag with selfClosing := false }, other) := by
  obtain ⟨blanks, parts, spaces⟩ := exists_trimmed content
  have blank : ∀ c ∈ blanks, isGap c = true := by
    intro c member
    refine regular.blank c ?_
    rw [parts, List.reverse_append, List.takeWhile_append_of_pos fun d among => spaces d (List.mem_reverse.1 among)]
    exact List.mem_append_left _ (List.mem_reverse.2 member)
  have bare : '>' ∉ trimmed content := by
    intro member
    have inside := regular.shaped.inside '>' (parts ▸ List.mem_append_left _ member)
    cases inside
  have stops : ∀ c ∈ (trimmed content).head?, endsTagName c = true := by
    cases content with
    | nil => exact nofun
    | cons c content => exact tagged.stops
  have read := tagged.read
  rw [parts, List.append_assoc] at read
  obtain ⟨flag, reads⟩ := readTag_withoutSlash tagged.named stops bare blank read closes
  have single := regular.single
  rw [reads [], Option.map_some] at single
  obtain rfl : flag = false := Option.some.inj single
  exact reads other

/-- Enough rounds over the text lead from one state to another. -/
def Leads (text : List Char) (state final : Construction) : Prop :=
  ∀ budget, text.length + 1 ≤ budget → ((takeText budget text).run state).2 = final

theorem leads_nil (state : Construction) : Leads [] state ((takeToken .done).run state).2 := by
  intro budget enough
  obtain ⟨budget, rfl⟩ := Nat.exists_eq_add_of_le' (show 1 ≤ budget from enough)
  obtain ⟨next, calm, taken⟩ := exists_calm_done state
  rw [run_takeText_succ]
  simp only [readTokens, taken]
  cases next with
  | raw kind name => exact calm.elim
  | plaintext => exact calm.elim
  | done => rfl
  | again token => rfl

/-- A text leads where another one does that some rounds come to. -/
theorem Leads.of_rounds {state after final : Construction} {rounds : Nat}
    (goesOn : ∀ budget, (takeText (budget + rounds) text).run state = (takeText budget rest).run after)
    (longer : rest.length + rounds ≤ text.length) (later : Leads rest after final) : Leads text state final := by
  intro budget enough
  obtain ⟨budget, rfl⟩ := Nat.exists_eq_add_of_le' (show rounds ≤ budget by omega)
  rw [goesOn]
  exact later budget (by omega)

/-- The text with tags written out leads to the same construction, if all stretches are written out as they are read.
The induction is on the rounds. -/
theorem Constructed.expand {state final : Construction} {stretches : List Stretch}
    (constructed : Constructed text state stretches final) (fits : ∀ stretch ∈ stretches, stretch.Fits) :
    expand text = stretches.flatMap Stretch.written ∧ Leads (SelfClosing.expand text) state final := by
  induction constructed with
  | finished =>
      rw [expand_nil]
      exact ⟨rfl, leads_nil _⟩
  | @pair text source rest state final tag more cut closes holds later hypothesis =>
      obtain ⟨first, fits⟩ := List.forall_mem_cons.1 fits
      obtain ⟨written, leads⟩ := hypothesis fits
      obtain ⟨name, content, tagged⟩ := cut.tagged closes
      rw [tagged.stretch] at first ⊢
      have regular : Regular name content := first
      have whole := regular.expand (tagged.known ▸ holds) rest
      rw [← tagged.whole, ← cut.parts] at whole
      refine ⟨by rw [whole, written]; rfl, ?_⟩
      have source : (Stretch.closing name content).written ++ SelfClosing.expand rest =
          '<' :: (name ++ (trimmed content ++ '>' :: '<' :: '/' :: (name ++ '>' :: SelfClosing.expand rest))) := by
        simp [Stretch.written]
      have named : ∀ c ∈ name, endsTagName c = false ∧ c ≠ '\x00' := by
        refine fun c member => ⟨tagged.named c member, ?_⟩
        rintro rfl
        cases regular.shaped.named _ member
      have same : tag.name = nameText name := tagged.known
      rw [whole, source]
      refine Leads.of_rounds (run_takeText_pair regular.shaped.first named (regular.read tagged closes) same
        (same ▸ regular.bounded) _ state) ?_ leads
      simp
      omega
  | @raw text source rest raw state after final tokens kind name more full cut taken parts later hypothesis =>
      obtain ⟨first, fits⟩ := List.forall_mem_cons.1 fits
      obtain ⟨second, fits⟩ := List.forall_mem_cons.1 fits
      obtain ⟨written, leads⟩ := hypothesis fits
      obtain ⟨inner, same, expanded, reads⟩ := readRawTokens_expand kind (notMem_of_raw taken) rest
      obtain rfl : raw = inner := List.append_cancel_right (parts.symm.trans same)
      have whole := cut.expanded
      rw [Untouched.expand first] at whole
      rw [Untouched.expand second] at expanded
      refine ⟨by rw [whole, expanded, written]; rfl, ?_⟩
      have rounds := run_takeText_raw (cut.reads _ (head?_expand rest)) taken
      rw [expanded, reads] at rounds
      rw [whole, expanded]
      refine Leads.of_rounds rounds ?_ leads
      have nonempty := List.length_pos_of_ne_nil (cut.full full)
      simp
      omega
  | @plaintext text source rest state after tokens full cut taken =>
      obtain ⟨first, fits⟩ := List.forall_mem_cons.1 fits
      have second := List.forall_mem_singleton.1 fits
      have whole := cut.expanded
      rw [Untouched.expand first, Untouched.expand second, ← cut.parts] at whole
      rw [whole]
      refine ⟨by simp [Stretch.written, cut.parts], fun budget enough => ?_⟩
      obtain ⟨budget, rfl⟩ := Nat.exists_eq_add_of_le' (le_trans (Nat.le_add_left 1 _) enough)
      rw [run_takeText_plaintext cut.read taken]
  | @calm text source rest state after final tokens next more full cut taken calm later hypothesis =>
      obtain ⟨first, fits⟩ := List.forall_mem_cons.1 fits
      obtain ⟨written, leads⟩ := hypothesis fits
      have whole := cut.expanded
      rw [Untouched.expand first] at whole
      refine ⟨by rw [whole, written]; rfl, ?_⟩
      have filled : source ++ SelfClosing.expand rest ≠ [] := List.append_ne_nil_of_left_ne_nil (cut.full full) _
      rw [whole]
      refine Leads.of_rounds (run_takeText_calm filled (cut.reads _ (head?_expand rest)) taken calm) ?_ leads
      have nonempty := List.length_pos_of_ne_nil (cut.full full)
      simp
      omega

/-! ### Deciding whether stretches fit -/

instance {behind name content rest : List Char} : Decidable (Shaped behind name content rest) :=
  decidable_of_iff _ read?_eq_some_iff

theorem untouched_iff : Untouched text ↔ ∀ suffix ∈ text.tails, suffix.head? = some '<' →
    ∀ found ∈ read? suffix.tail, Name.isVoid (String.ofList found.1) = true := by
  constructor
  · intro untouched suffix member head found isTag
    obtain ⟨behind, rfl⟩ := List.head?_eq_some_iff.1 head
    obtain ⟨name, content, rest⟩ := found
    exact untouched behind ((List.mem_tails _ _).1 member) _ _ _ (read?_eq_some_iff.1 isTag)
  · intro each behind ends name content rest shaped
    exact each _ ((List.mem_tails _ _).2 ends) rfl _ (read?_eq_some_iff.2 shaped)

instance : DecidablePred Untouched := fun _ =>
  decidable_of_iff _ untouched_iff.symm

instance (name content : List Char) : Decidable (Regular name content) :=
  decidable_of_iff (Shaped (name ++ (content ++ ['/', '>'])) name content [] ∧
      (content.reverse.takeWhile Text.isSpace).all isGap = true ∧
      (readTag (name ++ (trimmed content ++ ['>']))).map (fun found => found.1.selfClosing) = some false ∧
      nameText name ≠ "plaintext")
    ⟨fun ⟨shaped, blank, single, bounded⟩ => ⟨shaped, List.all_eq_true.1 blank, single, bounded⟩,
      fun regular => ⟨regular.shaped, List.all_eq_true.2 regular.blank, regular.single, regular.bounded⟩⟩

instance : DecidablePred Stretch.Fits
  | .plain source => inferInstanceAs (Decidable (Untouched source))
  | .closing name content => inferInstanceAs (Decidable (Regular name content))

/-! ## Documents -/

/-- The stretches of a text. -/
def stretches (text : List Char) : List Stretch :=
  let text := joinLineEnds (withoutMark text)
  (construct (text.length + 2) text {}).1

/-- The content of the document that a text writes, where tags close themselves. -/
def read (text : List Char) : List Content :=
  let text := joinLineEnds (withoutMark text)
  (construct (text.length + 2) text {}).2.draft.content

/-- Where all stretches of a text are written out as they are read, just the tags that close themselves are written
out, and the document is the one where these tags close themselves. -/
theorem read_expand {text : List Char} (fits : ∀ stretch ∈ stretches text, stretch.Fits) :
    joinLineEnds (withoutMark text) = (stretches text).flatMap Stretch.source ∧
      joinLineEnds (withoutMark (expand text)) = (stretches text).flatMap Stretch.written ∧
      Markup.read (expand text) = read text := by
  have constructed := constructed (joinLineEnds (withoutMark text)) {} (Nat.le_succ _)
  obtain ⟨written, leads⟩ := constructed.expand fits
  rw [expand_joinLineEnds, expand_withoutMark] at written leads
  refine ⟨constructed.source.symm, written, ?_⟩
  rw [Markup.read, leads _ (Nat.le_succ _)]
  rfl

/-- Between the start of a paragraph and that of bold text, a tag of a taglib is closed. -/
theorem read_expand_between :
    let text := "<p><x-a t=\"1\" /><b>".toList
    (∀ stretch ∈ stretches text, stretch.Fits) ∧
      joinLineEnds (withoutMark (expand text)) = "<p><x-a t=\"1\"></x-a><b>".toList ∧
      Markup.read (expand text) = read text := by
  intro text
  have cut : stretches text = [.plain "<p>".toList, .closing "x-a".toList " t=\"1\" ".toList, .plain "<b>".toList] := by
    decide +kernel
  have fits : ∀ stretch ∈ stretches text, stretch.Fits := by
    rw [cut]
    decide +kernel
  obtain ⟨-, written, same⟩ := read_expand fits
  rw [cut] at written
  exact ⟨fits, written.trans (by decide +kernel), same⟩

/-- How much content the elements of a tag hold. -/
def widths (tag : String) (contents : List Content) : List Nat :=
  (Content.deepAll contents).filterMap fun
    | .element name _ children => if name = tag then some children.length else none
    | _ => none

/-- Behind a closing bracket in a value, the slash is not found: the tag closes itself, but the text stays as it is, and
what follows the element is read into it. -/
theorem swallows_behind_bracket :
    let text := "<x-a t=\">\"/><i></i>".toList
    stretches text = [.closing "x-a".toList " t=\">\"".toList, .plain "<i>".toList, .plain "</i>".toList] ∧
      expand text = text ∧ widths "x-a" (Markup.read (expand text)) = [1] ∧ widths "x-a" (read text) = [0] := by
  intro text
  have untouched : Untouched text := by decide +kernel
  rw [untouched.expand]
  exact ⟨by decide +kernel, rfl, by decide +kernel, by decide +kernel⟩

end SelfClosing
end HtmlTemplate
