import HtmlTemplate.Proofs.Markup.Answers
import HtmlTemplate.Proofs.Markup.Extent
import HtmlTemplate.Proofs.Markup.Names
import Mathlib

/-!
# Start tags with their end tags

A tag that closes itself behind white space is the same tag without its slash. With the end tag directly behind it,
the start tag is taken in one go, also where the rules ask for raw text in between.
-/

namespace HtmlTemplate
namespace Markup

variable {c : Char} {text rest front : List Char} {attributes found : Attributes} {state : TagState}

/-! ## Tags without their slash -/

/-- What opened a quoted value is a quote. -/
def TagState.Proper : TagState → Prop
  | .value _ (some quote) _ => quote = '"' ∨ quote = '\''
  | _ => True

/-- A character that does not end the tag leads to one state, whatever follows it. -/
theorem readAttributes_step (other : c ≠ '>') (attributes : Attributes) (proper : state.Proper) :
    ∃ next behind, (∀ rest, readAttributes attributes state (c :: rest) = readAttributes next behind rest) ∧
      behind.Proper := by
  have notClosing : (c == '>') = false := beq_eq_false_iff_ne.2 other
  cases state with
  | equals name =>
      simp only [readAttributes, notClosing, Bool.false_eq_true, if_false]
      split_ifs with gap quote
      · exact ⟨_, _, fun _ => rfl, trivial⟩
      · exact ⟨_, _, fun _ => rfl, by simpa [TagState.Proper] using quote⟩
      · exact ⟨_, _, fun _ => rfl, trivial⟩
  | value name quote value =>
      cases quote with
      | some quote =>
          simp only [readAttributes]
          split_ifs
          · exact ⟨_, _, fun _ => rfl, trivial⟩
          · exact ⟨_, _, fun _ => rfl, proper⟩
      | none =>
          simp only [readAttributes, notClosing, Bool.false_eq_true, if_false]
          split_ifs <;> exact ⟨_, _, fun _ => rfl, trivial⟩
  | _ =>
      simp only [readAttributes, notClosing, Bool.false_eq_true, if_false]
      split_ifs <;> exact ⟨_, _, fun _ => rfl, trivial⟩

/-- A text without a closing bracket leads to one state, whatever follows it. -/
theorem readAttributes_passes (plain : '>' ∉ front) (attributes : Attributes) (proper : state.Proper) :
    ∃ next behind, (∀ rest, readAttributes attributes state (front ++ rest) = readAttributes next behind rest) ∧
      behind.Proper := by
  induction front generalizing attributes state with
  | nil => exact ⟨attributes, state, fun _ => rfl, proper⟩
  | cons c front hypothesis =>
      obtain ⟨other, plain⟩ := List.ne_and_not_mem_of_not_mem_cons plain
      obtain ⟨next, behind, first, proper⟩ := readAttributes_step other.symm attributes proper
      obtain ⟨next, behind, later, proper⟩ := hypothesis plain next proper
      exact ⟨next, behind, fun rest => (first _).trans (later rest), proper⟩

/-- The text behind a tag is not read with it. -/
theorem readAttributes_ne_of_short {flag : Bool} (short : text.length ≤ rest.length) :
    readAttributes attributes state text ≠ some (found, flag, rest) := by
  intro read
  obtain ⟨front, source, -⟩ := readAttributes_ends read
  have length := congrArg List.length source
  simp only [List.length_append, List.length_cons] at length
  omega

/-- Where a tag closes itself behind white space, it has the same attributes without the white space and the slash. -/
theorem readAttributes_withoutSlash {gaps : List Char}
    (read : readAttributes attributes state (gaps ++ '/' :: '>' :: rest) = some (found, true, rest))
    (blank : ∀ c ∈ gaps, isGap c = true) (proper : state.Proper) :
    ∃ flag, ∀ other, readAttributes attributes state ('>' :: other) = some (found, flag, other) := by
  induction gaps generalizing attributes state with
  | nil =>
      cases state with
      | value name quote value =>
          cases quote with
          | some quote =>
              -- The tag would not end before the quote does.
              have goesOn : readAttributes attributes (.value name (some quote) value) ('/' :: '>' :: rest) =
                  readAttributes attributes (.value name (some quote) ('>' :: '/' :: value)) rest := by
                rcases proper with rfl | rfl <;> rfl
              exact absurd (goesOn.symm.trans read) (readAttributes_ne_of_short le_rfl)
          | none => cases read
      | equals name => cases read
      | outside =>
          cases read
          exact ⟨false, fun _ => rfl⟩
      | slash =>
          cases read
          exact ⟨true, fun _ => rfl⟩
      | name name =>
          cases read
          exact ⟨false, fun _ => rfl⟩
      | named name =>
          cases read
          exact ⟨false, fun _ => rfl⟩
  | cons c gaps hypothesis =>
      obtain ⟨gap, blank⟩ := List.forall_mem_cons.1 blank
      rw [List.cons_append] at read
      cases state with
      | value name quote value =>
          cases quote with
          | some quote =>
              have other : (c == quote) = false := by
                refine beq_eq_false_iff_ne.2 ?_
                rcases proper with rfl | rfl <;> rintro rfl <;> cases gap
              rw [readAttributes, if_neg (by rw [other]; exact Bool.false_ne_true)] at read
              obtain ⟨flag, reads⟩ := hypothesis read blank proper
              have cut := reads []
              rcases proper with rfl | rfl <;> cases cut
          | none =>
              rw [readAttributes, if_pos gap] at read
              obtain ⟨flag, reads⟩ := hypothesis read blank trivial
              cases reads []
              exact ⟨false, fun _ => rfl⟩
      | equals name =>
          rw [readAttributes, if_pos gap] at read
          exact hypothesis read blank trivial
      | outside =>
          rw [readAttributes, if_pos gap] at read
          exact hypothesis read blank trivial
      | slash =>
          have other : (c == '>') = false := by
            refine beq_eq_false_iff_ne.2 ?_
            rintro rfl
            cases gap
          rw [readAttributes, if_neg (by rw [other]; exact Bool.false_ne_true), if_pos gap] at read
          obtain ⟨flag, reads⟩ := hypothesis read blank trivial
          cases reads []
          exact ⟨true, fun _ => rfl⟩
      | name name =>
          rw [readAttributes, if_pos gap] at read
          obtain ⟨flag, reads⟩ := hypothesis read blank trivial
          cases reads []
          exact ⟨false, fun _ => rfl⟩
      | named name =>
          rw [readAttributes, if_pos gap] at read
          exact hypothesis read blank trivial

/-- How a tag is read whose name ends before the other text. -/
theorem readTag_named {name behind : List Char} (named : ∀ c ∈ name, endsTagName c = false)
    (stops : ∀ c ∈ behind.head?, endsTagName c = true) :
    readTag (name ++ behind) = (readAttributes .empty .outside behind).map fun found =>
      ({ name := nameText name, attributes := found.1, selfClosing := found.2.1 }, found.2.2) := by
  obtain ⟨whole, left⟩ := takeWhile_append_stop (p := fun c => !endsTagName c)
    (fun c member => by rw [named c member]; rfl) (fun c head => by rw [stops c head]; rfl)
  rw [readTag_eq, whole, left]

theorem readTag_withoutSlash {name kept gaps : List Char} {tag : Tag} (named : ∀ c ∈ name, endsTagName c = false)
    (stops : ∀ c ∈ kept.head?, endsTagName c = true) (bare : '>' ∉ kept) (blank : ∀ c ∈ gaps, isGap c = true)
    (read : readTag (name ++ (kept ++ (gaps ++ '/' :: '>' :: rest))) = some (tag, rest))
    (closes : tag.selfClosing = true) :
    ∃ flag, ∀ other, readTag (name ++ (kept ++ '>' :: other)) = some ({ tag with selfClosing := flag }, other) := by
  have ends {behind : List Char} (after : ∀ c ∈ behind.head?, endsTagName c = true) :
      ∀ c ∈ (kept ++ behind).head?, endsTagName c = true := by
    cases kept with
    | nil => exact after
    | cons c kept => exact stops
  have gapEnds : ∀ c ∈ (gaps ++ '/' :: '>' :: rest).head?, endsTagName c = true := by
    cases gaps with
    | nil => rintro c ⟨⟩; rfl
    | cons gap gaps =>
        rintro c ⟨⟩
        rw [endsTagName, blank gap List.mem_cons_self]
        rfl
  obtain ⟨next, behind, passes, proper⟩ := readAttributes_passes bare .empty (show TagState.outside.Proper from trivial)
  rw [readTag_named named (ends gapEnds), passes, Option.map_eq_some_iff] at read
  obtain ⟨⟨found, flag, left⟩, inside, same⟩ := read
  cases same
  obtain rfl : flag = true := closes
  obtain ⟨flag, reads⟩ := readAttributes_withoutSlash inside blank proper
  refine ⟨flag, fun other => ?_⟩
  rw [readTag_named named (ends (by rintro c ⟨⟩; rfl)), passes, reads]
  rfl

/-! ## The end tag behind a start tag -/

theorem readMarkup_startTag {name behind : List Char} {tag : Tag} (first : ∃ c ∈ name.head?, c.isAlpha = true)
    (read : readTag (name ++ behind) = some (tag, rest)) (inForeign : Bool) :
    readTokens inForeign ('<' :: (name ++ behind)) = ([.start tag], rest) := by
  obtain ⟨c, head, alpha⟩ := first
  obtain ⟨tail, rfl⟩ := List.head?_eq_some_iff.1 head
  rw [List.cons_append] at read ⊢
  refine (readMarkup_start inForeign alpha (tail ++ behind)).trans ?_
  rw [read]
  rfl

theorem readMarkup_endTag {name : List Char} (first : ∃ c ∈ name.head?, c.isAlpha = true)
    (named : ∀ c ∈ name, endsTagName c = false) (inForeign : Bool) (rest : List Char) :
    readTokens inForeign ('<' :: '/' :: (name ++ '>' :: rest)) = ([.stop (nameText name)], rest) := by
  have read : readTag (name ++ '>' :: rest) = _ := readTag_named named (by rintro c ⟨⟩; rfl)
  obtain ⟨c, head, alpha⟩ := first
  obtain ⟨tail, rfl⟩ := List.head?_eq_some_iff.1 head
  rw [List.cons_append] at read ⊢
  refine (readMarkup_stop inForeign alpha (tail ++ '>' :: rest)).trans ?_
  rw [read]
  rfl

theorem startsEndTag_nameText {name : List Char} (present : ∀ c ∈ name, c ≠ '\x00') (rest : List Char) :
    startsEndTag (nameText name) ('/' :: (name ++ '>' :: rest)) = true := by
  have lower : (nameText name).toList = name.map Char.toLower := by
    rw [nameText, String.toList_ofList]
    refine List.map_congr_left fun c member => ?_
    rw [kept, if_neg (mt beq_iff_eq.1 (present c member))]
  have length : (nameText name).length = name.length := by
    rw [← String.length_toList, lower, List.length_map]
  rw [startsEndTag, startsWith_eq, lower, length, List.drop_left, List.map_append,
    List.isPrefixOf_iff_prefix.2 (List.prefix_append _ _)]
  rfl

/-- Raw text that its end tag follows at once is empty. -/
theorem readRawTokens_empty {kind : RawKind} {name : String} (script : kind = .script → name = "script")
    (ends : startsEndTag name text = true) : readRawTokens kind name ('<' :: text) = ([], '<' :: text) := by
  have stops : readRaw name ('<' :: text) = ([], '<' :: text) := by
    rw [readRaw, ends]
    rfl
  cases kind with
  | script =>
      have stops : readScript .plain 0 ('<' :: text) = ([], '<' :: text) := by
        rw [readScript, if_pos (beq_self_eq_true _), if_pos (script rfl ▸ ends)]
      rw [readRawTokens, stops]
      rfl
  | withReferences =>
      rw [readRawTokens, stops]
      rfl
  | plain =>
      rw [readRawTokens, stops]
      rfl

/-- Does the text go on as markup? -/
def Next.IsCalm : Next → Prop
  | .raw _ _ => False
  | .plaintext => False
  | _ => True

namespace Build

variable {state after : Construction} {next : Next} {tokens : List Token}

/-- A token is treated until it is done with, so no more of it is asked for. -/
theorem treat_suits (budget : Nat) (token : Token) (state : Construction) :
    ((treat budget token).run state).1.Suits token ∧ ∀ other, ((treat budget token).run state).1 ≠ .again other := by
  induction budget generalizing state with
  | zero => exact ⟨trivial, fun other same => by cases same⟩
  | succ budget hypothesis =>
      have suits : ((stepAnywhere token).run state).1.Suits token := answers_stepAnywhere state
      rw [treat, StateT.run_bind]
      cases answer : (stepAnywhere token).run state with
      | mk next after =>
          rw [answer] at suits
          cases next with
          | again other =>
              obtain rfl : other = token := suits
              exact hypothesis after
          | done => exact ⟨suits, fun other same => by cases same⟩
          | raw kind name => exact ⟨suits, fun other same => by cases same⟩
          | plaintext => exact ⟨suits, fun other same => by cases same⟩

theorem eq_or_space_of_left {token left : Token} {drops : Bool}
    (rest : (if drops then withoutLineFeed token else some token) = some left) :
    left = token ∨ (∃ value, token = .space value) ∧ ∃ value, left = .space value := by
  split at rest
  · unfold withoutLineFeed at rest
    split at rest
    · cases rest
    · exact .inr ⟨⟨_, rfl⟩, _, (Option.some.inj rest).symm⟩
    · exact .inl (Option.some.inj rest).symm
  · exact .inl (Option.some.inj rest).symm

/-- What is asked for when a token is taken suits the token. -/
theorem takeToken_suits (token : Token) (state : Construction) : ((takeToken token).run state).1.Suits token := by
  have treated : ∀ left, (if state.dropLineFeed then withoutLineFeed token else some token) = some left →
      ∀ budget after, ((treat budget left).run after).1.Suits token := by
    intro left rest budget after
    obtain ⟨suits, settled⟩ := treat_suits budget left after
    obtain rfl | ⟨-, value, rfl⟩ := eq_or_space_of_left rest
    · exact suits
    · cases answer : ((treat budget (.space value)).run after).1 with
      | again other => exact absurd answer (settled other)
      | done => exact trivial
      | raw kind name =>
          rw [answer] at suits
          obtain ⟨-, -, tag, impossible, -⟩ := suits
          cases impossible
      | plaintext =>
          rw [answer] at suits
          obtain ⟨tag, impossible, -⟩ := suits
          cases impossible
  rw [takeToken, run_bind, run_bind]
  split
  · exact trivial
  · exact trivial
  · next left _ rest => exact treated left rest _ _

/-- What is asked for behind tokens suits one of them. -/
theorem takeTokens_suits (tokens : List Token) (next : Next) (state : Construction) :
    ((takeTokens next tokens).run state).1 = next ∨
      ∃ token ∈ tokens, ((takeTokens next tokens).run state).1.Suits token := by
  induction tokens generalizing next state with
  | nil => exact .inl rfl
  | cons token tokens hypothesis =>
      have suits := takeToken_suits token state
      rw [takeTokens, run_bind]
      rcases hypothesis ((takeToken token).run state).1 ((takeToken token).run state).2 with same | later
      · exact .inr ⟨token, List.mem_cons_self, by rwa [same]⟩
      · obtain ⟨other, member, suits⟩ := later
        exact .inr ⟨other, List.mem_cons_of_mem _ member, suits⟩

theorem isCalm_of_suits {token : Token} (suits : next.Suits token) (other : ∀ tag, token ≠ .start tag) :
    next.IsCalm := by
  cases next with
  | raw kind name =>
      obtain ⟨-, -, tag, same, -⟩ := suits
      exact absurd same (other tag)
  | plaintext =>
      obtain ⟨tag, same, -⟩ := suits
      exact absurd same (other tag)
  | done => trivial
  | again token => trivial

theorem exists_calm_done (state : Construction) : ∃ next : Next, next.IsCalm ∧
    (takeTokens .done [.done]).run state = (next, ((takeToken .done).run state).2) :=
  ⟨_, isCalm_of_suits (takeToken_suits .done state) nofun, rfl⟩

theorem run_takeText_calm {text rest : List Char} (full : text ≠ [])
    (read : readTokens (inForeign.run state).1 text = (tokens, rest))
    (taken : (takeTokens .done tokens).run state = (next, after)) (calm : next.IsCalm) (budget : Nat) :
    (takeText (budget + 1) text).run state = (takeText budget rest).run after := by
  have more : text.isEmpty = false := List.isEmpty_eq_false_iff.2 full
  rw [run_takeText_succ, read]
  dsimp only
  rw [taken]
  cases next with
  | raw kind name => exact calm.elim
  | plaintext => exact calm.elim
  | done => simp only [more, Bool.false_eq_true, if_false]
  | again token => simp only [more, Bool.false_eq_true, if_false]

theorem run_takeText_raw {text rest : List Char} {kind : RawKind} {name : String}
    (read : readTokens (inForeign.run state).1 text = (tokens, rest))
    (taken : (takeTokens .done tokens).run state = (.raw kind name, after)) (budget : Nat) :
    (takeText (budget + 1) text).run state =
      (takeText budget (readRawTokens kind name rest).2).run
        ((takeTokens .done (readRawTokens kind name rest).1).run after).2 := by
  rw [run_takeText_succ, read]
  dsimp only
  rw [taken]

theorem run_takeText_plaintext {text rest : List Char}
    (read : readTokens (inForeign.run state).1 text = (tokens, rest))
    (taken : (takeTokens .done tokens).run state = (.plaintext, after)) (budget : Nat) :
    (takeText (budget + 1) text).run state =
      ((), ((takeToken .done).run ((takeTokens .done (rawTokens rest)).run after).2).2) := by
  rw [run_takeText_succ, read]
  dsimp only
  rw [taken]

/-- A start tag with its end tag directly behind it is taken with it, also where raw text could follow. -/
theorem run_takeText_pair {name kept : List Char} {tag : Tag} (first : ∃ c ∈ name.head?, c.isAlpha = true)
    (named : ∀ c ∈ name, endsTagName c = false ∧ c ≠ '\x00')
    (read : ∀ other, readTag (name ++ (kept ++ '>' :: other)) = some (tag, other)) (same : tag.name = nameText name)
    (other : tag.name ≠ "plaintext") (rest : List Char) (state : Construction) (budget : Nat) :
    (takeText (budget + 2) ('<' :: (name ++ (kept ++ '>' :: '<' :: '/' :: (name ++ '>' :: rest))))).run state =
      (takeText budget rest).run ((takeTokens .done [.start tag, .stop tag.name]).run state).2 := by
  have ends := startsEndTag_nameText (fun c member => (named c member).2) rest
  have pair : ((takeTokens .done [.start tag, .stop tag.name]).run state).2 =
      ((takeToken (.stop tag.name)).run ((takeToken (.start tag)).run state).2).2 := rfl
  rw [pair]
  have opens := readMarkup_startTag first (read ('<' :: '/' :: (name ++ '>' :: rest)))
  have suits := takeToken_suits (.start tag) state
  have taken : (takeTokens .done [.start tag]).run state =
      (((takeToken (.start tag)).run state).1, ((takeToken (.start tag)).run state).2) := rfl
  generalize ((takeToken (.start tag)).run state).1 = next at suits taken
  generalize ((takeToken (.start tag)).run state).2 = after at taken
  have closes : (takeText (budget + 1) ('<' :: '/' :: (name ++ '>' :: rest))).run after =
      (takeText budget rest).run ((takeToken (.stop tag.name)).run after).2 := by
    refine run_takeText_calm (List.cons_ne_nil _ _)
      (same ▸ readMarkup_endTag first (fun c member => (named c member).1) _ rest) rfl ?_ budget
    exact isCalm_of_suits (takeToken_suits _ _) nofun
  rw [← closes]
  cases next with
  | raw kind rawName =>
      obtain ⟨-, script, found, isTag, isName⟩ := suits
      cases isTag
      rw [run_takeText_raw (opens _) taken, readRawTokens_empty script (by rwa [← isName, same])]
      rfl
  | plaintext =>
      obtain ⟨found, isTag, isName⟩ := suits
      cases isTag
      exact absurd isName other
  | done => exact run_takeText_calm (List.cons_ne_nil _ _) (opens _) taken trivial _
  | again token => exact run_takeText_calm (List.cons_ne_nil _ _) (opens _) taken trivial _

end Build
end Markup

end HtmlTemplate
