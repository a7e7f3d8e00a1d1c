import HtmlTemplate.Proofs.Markup.Pair
import HtmlTemplate.Proofs.Template.SelfClosing
import Mathlib

/-!
# Stretches of a text

A text is cut where it is read: behind tags and other markup, behind text, and around raw text. Tags that close
themselves are written out in each stretch for itself. The construction that the text asks for, where such a tag is
taken together with an end tag, comes with the stretches.
-/

namespace HtmlTemplate
namespace SelfClosing

open Markup

variable {text rest name content : List Char} {tag : Tag}

/-! ## Cuts between tokens -/

/-- The first tokens of a text are read of its first part, and the tags of both parts are written out each for itself.
-/
structure Cut (inForeign : Bool) (text source rest : List Char) (tokens : List Token) : Prop where
  parts : text = source ++ rest
  full : text ≠ [] → source ≠ []
  expanded : expand text = expand source ++ expand rest
  reads : ∀ other : List Char, other.head? = rest.head? → readTokens inForeign (source ++ other) = (tokens, other)

/-- All of the text is read. -/
theorem Cut.whole {inForeign : Bool} {tokens : List Token} (read : readTokens inForeign text = (tokens, [])) :
    Cut inForeign text text [] tokens where
  parts := (List.append_nil text).symm
  full := id
  expanded := by rw [expand_nil, List.append_nil]
  reads other head := by
    rw [List.head?_eq_none_iff.1 head, List.append_nil, read]

/-- Markup is read up to a closing bracket. -/
theorem Cut.markup {inForeign : Bool} (reaches : Extends (readMarkup inForeign) text) :
    ∃ source, Cut inForeign ('<' :: text) source (readMarkup inForeign text).2 (readMarkup inForeign text).1 := by
  by_cases none : (readMarkup inForeign text).2 = []
  · refine ⟨'<' :: text, ?_⟩
    rw [none]
    exact .whole (Prod.ext rfl none)
  · obtain ⟨front, source, reads⟩ := reaches none
    have parts : '<' :: text = '<' :: (front ++ ['>']) ++ (readMarkup inForeign text).2 := by
      rw [List.cons_append, List.append_assoc, List.singleton_append, ← source]
    refine ⟨'<' :: (front ++ ['>']), parts, fun _ => List.cons_ne_nil _ _, ?_, fun other _ => ?_⟩
    · rw [← expand_append (.inl ?_), ← parts]
      rw [← List.cons_append, List.getLast?_concat]
    · rw [List.cons_append, List.append_assoc]
      exact reads other

/-- Text is read up to the next opening bracket. -/
theorem readTokens_run {inForeign : Bool} {front : List Char} (full : front ≠ []) (plain : '<' ∉ front)
    (opens : ∀ c ∈ rest.head?, c = '<') :
    readTokens inForeign (front ++ rest) = (Token.ofText (Reference.decode false front), rest) := by
  obtain ⟨whole, left⟩ := takeWhile_append_stop (p := fun c => c != '<')
    (fun c member => bne_iff_ne.2 fun same => plain (same ▸ member)) (fun c head => by rw [opens c head]; rfl)
  rw [readTokens]
  · rw [drop_takeWhile_length, whole, left]
  · exact fun none => full (List.append_eq_nil_iff.1 none).1
  · intro behind same
    cases front with
    | nil => exact full rfl
    | cons c front => exact plain ((List.cons.inj same).1 ▸ List.mem_cons_self)

/-- Wherever tokens are read of a text, it can be cut behind them. -/
theorem exists_cut (inForeign : Bool) (text : List Char) :
    ∃ source, Cut inForeign text source (readTokens inForeign text).2 (readTokens inForeign text).1 := by
  match text with
  | [] => exact ⟨[], .whole rfl⟩
  | c :: text =>
      by_cases bracket : c = '<'
      · subst bracket
        match text with
        | [] => exact ⟨['<'], .whole rfl⟩
        | c :: text =>
            by_cases starts : c.isAlpha = true ∨ c = '/' ∨ c = '!' ∨ c = '?'
            · exact Cut.markup (readMarkup_extends inForeign starts text)
            · -- The bracket is text, and it starts no tag either.
              obtain ⟨alpha, slash, bang, query⟩ : ¬c.isAlpha = true ∧ c ≠ '/' ∧ c ≠ '!' ∧ c ≠ '?' := by
                simpa [not_or] using starts
              have reads (other : List Char) :
                  readTokens inForeign ('<' :: c :: other) = ([.text ['<']], c :: other) := by
                show readMarkup inForeign (c :: other) = _
                rw [readMarkup, if_neg alpha]
                all_goals (intros; simp_all)
              have noTag : read? (c :: text) = none := by
                simp [read?, alpha]
              have alone : expand ['<'] = ['<'] := by
                rw [expand_of_none rfl, expand_nil]
              rw [reads]
              refine ⟨['<'], rfl, fun _ => List.cons_ne_nil _ _, ?_, fun other head => ?_⟩
              · rw [alone, expand_of_none noTag]
                rfl
              · obtain ⟨tail, rfl⟩ := List.head?_eq_some_iff.1 head
                exact reads tail
      · have run : ∀ d ∈ (c :: text).takeWhile (fun d => d != '<'), (d != '<') = true :=
          List.all_eq_true.1 List.all_takeWhile
        have parts := List.takeWhile_append_dropWhile (p := fun d => d != '<') (l := c :: text)
        have stops := List.head?_dropWhile_not (fun d => d != '<') (c :: text)
        have opens : ∀ d ∈ ((c :: text).dropWhile fun d => d != '<').head?, d = '<' := by
          intro d head
          rw [Option.mem_def.1 head] at stops
          simpa using stops
        have plain : '<' ∉ (c :: text).takeWhile fun d => d != '<' := fun member => by simpa using run _ member
        have full : (c :: text).takeWhile (fun d => d != '<') ≠ [] := by
          rw [List.takeWhile_cons_of_pos (by simpa using bracket)]
          exact List.cons_ne_nil _ _
        generalize (c :: text).takeWhile (fun d => d != '<') = front at parts plain full
        generalize (c :: text).dropWhile (fun d => d != '<') = behind at parts opens
        rw [← parts, readTokens_run full plain opens]
        refine ⟨front, rfl, fun _ => full, ?_, fun other head => readTokens_run full plain fun d first => ?_⟩
        · rw [expand_append_plain plain, expand_plain plain]
        · exact opens d (head ▸ first)

/-! ## Raw text -/

/-- The end tag at the end of raw text stays where it is. -/
theorem startsEndTag_expand {name : String} (plain : '<' ∉ name.toList) (ends : startsEndTag name text = true) :
    ∃ other, expand ('<' :: text) = '<' :: other ∧ startsEndTag name other = true := by
  match text with
  | [] => cases ends
  | c :: text =>
      by_cases slash : c = '/'
      · subst slash
        refine ⟨'/' :: expand text, by rw [expand_of_none rfl, expand_cons_of_ne (by decide)], ?_⟩
        obtain ⟨starts, behind⟩ := Bool.and_eq_true_iff.1 ends
        split at behind
        · next c rest drops =>
            have parts : text.take name.length ++ c :: rest = text := by rw [← drops, List.take_append_drop]
            have bare : '<' ∉ text.take name.length ++ [c] := by
              intro member
              rcases List.mem_append.1 member with named | last
              · -- What was read of the name is the name, in either case.
                rw [startsWith, List.isPrefixOf_iff_prefix] at starts
                have whole : name.toList = (text.take name.length).map Char.toLower := by
                  refine starts.eq_of_length_le ?_
                  rw [List.length_map, String.length_toList]
                  exact List.length_take_le _ _
                exact plain (whole ▸ List.mem_map.2 ⟨'<', named, by decide⟩)
              · rw [← List.mem_singleton.1 last] at behind
                cases behind
            have expanded : expand text = text.take name.length ++ c :: expand rest := by
              conv_lhs => rw [← parts, List.append_cons, expand_append_plain bare]
              rw [← List.append_cons]
            have long : name.length ≤ text.length := length_le_of_startsWith starts
            have length : (text.take name.length).length = name.length := List.length_take_of_le long
            have first : (text.take name.length ++ c :: expand rest).take name.length = text.take name.length :=
              List.take_left' length
            have later : (text.take name.length ++ c :: expand rest).drop name.length = c :: expand rest :=
              List.drop_left' length
            rw [expanded, startsEndTag, startsWith, first, later]
            exact Bool.and_eq_true_iff.2 ⟨starts, behind⟩
        · cases behind
      · simp [startsEndTag, slash] at ends

/-- A reader of raw text stops before the end tag only. -/
structure ReadsRaw (name : String) (read : List Char → List Char × List Char) : Prop where
  parts : ∀ text, (read text).1 ++ (read text).2 = text
  stops : ∀ text, (read text).2 = [] ∨ ∃ behind, (read text).2 = '<' :: behind ∧ startsEndTag name behind = true
  same : ∀ {front behind other : List Char}, read (front ++ '<' :: behind) = (front, '<' :: behind) →
    startsEndTag name other = true → read (front ++ '<' :: other) = (front, '<' :: other)

/-- Raw text without tags that would be written out is read as before, and up to the same end tag. -/
theorem ReadsRaw.expand {name : String} {read : List Char → List Char × List Char} (reads : ReadsRaw name read)
    (plain : '<' ∉ name.toList) (text : List Char) :
    expand text = expand (read text).1 ++ expand (read text).2 ∧
      read ((read text).1 ++ expand (read text).2) = ((read text).1, expand (read text).2) := by
  have parts := reads.parts text
  have whole : read ((read text).1 ++ (read text).2) = ((read text).1, (read text).2) := by rw [parts]
  rcases reads.stops text with none | ⟨behind, stop, ends⟩
  · rw [none, List.append_nil] at parts
    rw [none, expand_nil, List.append_nil, List.append_nil, parts]
    exact ⟨rfl, Prod.ext parts none⟩
  · obtain ⟨other, expanded, endsToo⟩ := startsEndTag_expand plain ends
    constructor
    · rw [← expand_append (.inr ?_), parts]
      rw [stop]
      rintro c ⟨⟩
      rfl
    · rw [stop] at whole ⊢
      rw [expanded]
      exact reads.same whole endsToo

theorem readsRaw_readRaw {name : String} (plain : '<' ∉ name.toList) : ReadsRaw name (readRaw name) :=
  ⟨readRaw_parts name, readRaw_stops name, readRaw_same plain⟩

theorem readsRaw_readScript : ReadsRaw "script" (readScript .plain 0) :=
  ⟨readScript_parts _ _, readScript_stops _ _, readScript_same _ _⟩

/-- The text of an element is read as before, if it holds no tags that would be written out. -/
theorem readRawTokens_expand (kind : RawKind) {name : String} (plain : '<' ∉ name.toList) (text : List Char) :
    ∃ raw, text = raw ++ (readRawTokens kind name text).2 ∧
      expand text = expand raw ++ expand (readRawTokens kind name text).2 ∧
      readRawTokens kind name (raw ++ expand (readRawTokens kind name text).2) =
        ((readRawTokens kind name text).1, expand (readRawTokens kind name text).2) := by
  cases kind with
  | script =>
      have reads := readsRaw_readScript
      obtain ⟨parts, same⟩ := reads.expand (by decide) text
      refine ⟨(readScript .plain 0 text).1, (reads.parts text).symm, parts, ?_⟩
      exact congrArg (fun read => (rawTokens read.1, read.2)) same
  | withReferences =>
      have reads := readsRaw_readRaw plain
      obtain ⟨parts, same⟩ := reads.expand plain text
      refine ⟨(readRaw name text).1, (reads.parts text).symm, parts, ?_⟩
      exact congrArg (fun read => (rawTokens (Reference.decode false read.1), read.2)) same
  | plain =>
      have reads := readsRaw_readRaw plain
      obtain ⟨parts, same⟩ := reads.expand plain text
      refine ⟨(readRaw name text).1, (reads.parts text).symm, parts, ?_⟩
      exact congrArg (fun read => (rawTokens read.1, read.2)) same

/-! ## Stretches -/

/-- A part of a text, as it is cut where it is read. -/
inductive Stretch
  /-- What stays as it is: text, raw text, comments and all other tags. -/
  | plain (source : List Char)
  /-- A start tag that closes itself, of an element that may have content: its name, and what stands between the name
  and the slash. -/
  | closing (name content : List Char)
  deriving DecidableEq, Repr

namespace Stretch

/-- The text that the stretch was cut from. -/
def source : Stretch → List Char
  | plain source => source
  | closing name content => '<' :: (name ++ (content ++ ['/', '>']))

/-- The text with the slash taken off, and with the end tag directly behind the start tag. -/
def written : Stretch → List Char
  | plain source => source
  | closing name content => '<' :: (name ++ (trimmed content ++ '>' :: '<' :: '/' :: (name ++ ['>'])))

/-- A tag that closes itself as a stretch. -/
def ofTag (source : List Char) : Stretch :=
  let name := source.tail.takeWhile fun c => !endsTagName c
  closing name (source.tail.drop name.length).dropLast.dropLast

end Stretch

/-- The tag, if what was read is a start tag that closes itself, of an element that may have content. -/
def closing? : List Token → Option Tag
  | [.start tag] => if tag.selfClosing && !Name.isVoid tag.name then some tag else none
  | _ => none

/-- What was read of a text, if the rest is left. -/
def passed (text rest : List Char) : List Char :=
  text.take (text.length - rest.length)

open Build in
/--
The construction that a text asks for where tags close themselves: the text is read as it is, but a start tag that
closes itself is taken together with its end tag. It comes with the stretches that the text was cut into.
-/
def construct : Nat → List Char → Construction → List Stretch × Construction
  | 0, _, state => ([], state)
  | rounds + 1, text, state =>
      let (tokens, rest) := readTokens (inForeign.run state).1 text
      let goOn (stretches : List Stretch) (rest : List Char) (state : Construction) :=
        let (more, state) := construct rounds rest state
        (stretches ++ more, state)
      match closing? tokens with
      | some tag =>
          let pair := [.start { tag with selfClosing := false }, .stop tag.name]
          goOn [.ofTag (passed text rest)] rest ((takeTokens .done pair).run state).2
      | none =>
          match (takeTokens .done tokens).run state with
          | (.raw kind name, state) =>
              let (raw, behind) := readRawTokens kind name rest
              goOn [.plain (passed text rest), .plain (passed rest behind)] behind ((takeTokens .done raw).run state).2
          | (.plaintext, state) =>
              ([.plain (passed text rest), .plain rest],
                ((takeToken .done).run ((takeTokens .done (rawTokens rest)).run state).2).2)
          | (_, state) => if text.isEmpty then ([], state) else goOn [.plain (passed text rest)] rest state

/-! ## What the stretches are -/

theorem passed_eq {front : List Char} (parts : text = front ++ rest) : passed text rest = front := by
  rw [parts, passed, List.length_append, Nat.add_sub_cancel, List.take_left]

theorem isText_of_mem_ofText {text : List Char} {token : Token} (member : token ∈ Token.ofText text) (tag : Tag) :
    token ≠ .start tag := by
  rintro rfl
  fun_induction Token.ofText text <;> simp_all

theorem isOther_of_mem_readDeclaration {inForeign : Bool} {token : Token}
    (member : token ∈ (readDeclaration inForeign text).1) (tag : Tag) : token ≠ .start tag := by
  unfold readDeclaration at member
  split at member
  · rw [List.mem_singleton.1 member]
    exact nofun
  · dsimp only at member
    split at member
    · rw [List.mem_singleton.1 member]
      exact nofun
    · split at member
      · exact isText_of_mem_ofText member tag
      · rw [List.mem_singleton.1 member]
        exact nofun

/-- Start tags are read where they are written. -/
theorem readTag_of_readTokens {inForeign : Bool} (read : readTokens inForeign text = ([.start tag], rest)) :
    ∃ behind, text = '<' :: behind ∧ (∃ c ∈ behind.head?, c.isAlpha = true) ∧ readTag behind = some (tag, rest) := by
  unfold readTokens at read
  split at read
  · cases read
  · next behind =>
      refine ⟨behind, rfl, ?_⟩
      replace read : readMarkup inForeign behind = ([.start tag], rest) := read
      unfold readMarkup at read
      split at read
      · next behind =>
          have member : Token.start tag ∈ (readDeclaration inForeign behind).1 := by
            rw [read]
            exact List.mem_singleton_self _
          exact absurd rfl (isOther_of_mem_readDeclaration member tag)
      · cases read
      · cases read
      · split_ifs at read
        · cases read
        · split at read <;> cases read
        · cases read
      · next c behind _ _ _ _ =>
          split_ifs at read with alpha
          · split at read
            · next found =>
                cases read
                exact ⟨⟨c, rfl, alpha⟩, found⟩
            · cases read
          · cases read
      · cases read
  · exact absurd rfl (isText_of_mem_ofText ((Prod.mk.inj read).1 ▸ List.mem_singleton_self _) tag)

theorem readAttributes_slash {attributes found : Attributes} {state : TagState}
    (read : readAttributes attributes state text = some (found, true, rest)) :
    (state = .slash ∧ text = '>' :: rest) ∨ ∃ content, text = content ++ '/' :: '>' :: rest := by
  fun_induction readAttributes attributes state text
  all_goals first
    | cases read; done
    | cases read
      obtain rfl := beq_iff_eq.1 ‹(_ == '>') = true›
      exact .inl ⟨rfl, rfl⟩
    | obtain ⟨same, rfl⟩ | ⟨content, rfl⟩ := ‹_ → _› read
      · first
          | cases same; done
          | obtain rfl := beq_iff_eq.1 ‹(_ == '/') = true›
            exact .inr ⟨[], rfl⟩
      · exact .inr ⟨_ :: content, rfl⟩

/-- A tag that closes itself: its name, what stands between the name and the slash, and the text behind it. -/
theorem exists_closing (read : readTag text = some (tag, rest)) (closes : tag.selfClosing = true) :
    ∃ name content, text = name ++ (content ++ '/' :: '>' :: rest) ∧ tag.name = nameText name ∧
      (∀ c ∈ name, endsTagName c = false) ∧ ∀ c ∈ content.head?, endsTagName c = true := by
  rw [readTag_eq, Option.map_eq_some_iff] at read
  obtain ⟨⟨found, flag, left⟩, inside, same⟩ := read
  cases same
  obtain rfl : flag = true := closes
  obtain ⟨impossible, -⟩ | ⟨content, source⟩ := readAttributes_slash inside
  · cases impossible
  · have parts := List.takeWhile_append_dropWhile (p := fun c => !endsTagName c) (l := text)
    have first := List.head?_dropWhile_not (fun c => !endsTagName c) text
    rw [source] at parts first
    refine ⟨_, content, parts.symm, rfl, fun c member => ?_, fun c head => ?_⟩
    · have named := List.all_eq_true.1 (List.all_takeWhile (p := fun c => !endsTagName c) (l := text)) c member
      simpa using named
    · rw [List.head?_append, Option.mem_def.1 head] at first
      simpa using first

theorem Stretch.ofTag_eq (named : ∀ c ∈ name, endsTagName c = false)
    (stops : ∀ c ∈ content.head?, endsTagName c = true) :
    ofTag ('<' :: (name ++ (content ++ ['/', '>']))) = closing name content := by
  have ends : ∀ c ∈ (content ++ ['/', '>']).head?, (!endsTagName c) = false := by
    cases content with
    | nil => rintro c ⟨⟩; rfl
    | cons d content =>
        rintro c ⟨⟩
        rw [stops _ rfl]
        rfl
  obtain ⟨whole, -⟩ := takeWhile_append_stop (fun c member => by rw [named c member]; rfl) ends
  have inner : (content ++ ['/', '>']).dropLast.dropLast = content := by
    rw [List.append_cons, List.dropLast_concat, List.dropLast_concat]
  simp only [ofTag, List.tail_cons, whole, List.drop_left, inner]

theorem closing?_eq_some_iff {tokens : List Token} :
    closing? tokens = some tag ↔ tokens = [.start tag] ∧ tag.selfClosing = true ∧ Name.isVoid tag.name = false := by
  constructor
  · intro closes
    unfold closing? at closes
    split at closes
    · next found =>
        split at closes
        · next both =>
            cases closes
            obtain ⟨slash, open_⟩ := Bool.and_eq_true_iff.1 both
            exact ⟨rfl, slash, by simpa using open_⟩
        · cases closes
    · cases closes
  · rintro ⟨rfl, slash, notVoid⟩
    simp [closing?, slash, notVoid]

/-! ## Rounds -/

open Build

theorem Cut.read {inForeign : Bool} {source : List Char} {tokens : List Token}
    (cut : Cut inForeign text source rest tokens) : readTokens inForeign text = (tokens, rest) := by
  rw [cut.parts]
  exact cut.reads rest rfl

theorem Cut.shorter {inForeign : Bool} {source : List Char} {tokens : List Token}
    (cut : Cut inForeign text source rest tokens) (full : text ≠ []) : rest.length < text.length := by
  have length := List.length_pos_of_ne_nil (cut.full full)
  rw [cut.parts, List.length_append]
  omega

theorem Cut.passed {inForeign : Bool} {source : List Char} {tokens : List Token}
    (cut : Cut inForeign text source rest tokens) : passed text rest = source :=
  passed_eq cut.parts

/-- What is cut off where a tag closes itself. -/
structure Tagged (name content source rest : List Char) (tag : Tag) : Prop where
  whole : source = (Stretch.closing name content).source
  stretch : Stretch.ofTag source = .closing name content
  known : tag.name = nameText name
  named : ∀ c ∈ name, endsTagName c = false
  stops : ∀ c ∈ content.head?, endsTagName c = true
  read : readTag (name ++ (content ++ '/' :: '>' :: rest)) = some (tag, rest)

theorem Cut.tagged {inForeign : Bool} {source : List Char} (cut : Cut inForeign text source rest [.start tag])
    (closes : tag.selfClosing = true) : ∃ name content, Tagged name content source rest tag := by
  obtain ⟨behind, rfl, -, read⟩ := readTag_of_readTokens cut.read
  obtain ⟨name, content, rfl, same, named, stops⟩ := exists_closing read closes
  have whole : '<' :: (name ++ (content ++ '/' :: '>' :: rest)) = (Stretch.closing name content).source ++ rest := by
    simp [Stretch.source]
  have source : source = (Stretch.closing name content).source := List.append_cancel_right (cut.parts.symm.trans whole)
  refine ⟨name, content, source, ?_, same, named, stops, read⟩
  rw [source]
  exact Stretch.ofTag_eq named stops

/-- What the rounds of the construction do, and the stretches that they cut from the text. -/
inductive Constructed : List Char → Construction → List Stretch → Construction → Prop
  | finished {state : Construction} : Constructed [] state [] ((takeToken .done).run state).2
  | pair {text source rest : List Char} {state final : Construction} {tag : Tag} {more : List Stretch}
      (cut : Cut (inForeign.run state).1 text source rest [.start tag]) (closes : tag.selfClosing = true)
      (holds : Name.isVoid tag.name = false)
      (later : Constructed rest
        ((takeTokens .done [.start { tag with selfClosing := false }, .stop tag.name]).run state).2 more final) :
      Constructed text state (.ofTag source :: more) final
  | raw {text source rest raw : List Char} {state after final : Construction} {tokens : List Token} {kind : RawKind}
      {name : String} {more : List Stretch} (full : text ≠ [])
      (cut : Cut (inForeign.run state).1 text source rest tokens)
      (taken : (takeTokens .done tokens).run state = (.raw kind name, after))
      (parts : rest = raw ++ (readRawTokens kind name rest).2)
      (later : Constructed (readRawTokens kind name rest).2
        ((takeTokens .done (readRawTokens kind name rest).1).run after).2 more final) :
      Constructed text state (.plain source :: .plain raw :: more) final
  | plaintext {text source rest : List Char} {state after : Construction} {tokens : List Token} (full : text ≠ [])
      (cut : Cut (inForeign.run state).1 text source rest tokens)
      (taken : (takeTokens .done tokens).run state = (.plaintext, after)) :
      Constructed text state [.plain source, .plain rest]
        ((takeToken .done).run ((takeTokens .done (rawTokens rest)).run after).2).2
  | calm {text source rest : List Char} {state after final : Construction} {tokens : List Token} {next : Next}
      {more : List Stretch} (full : text ≠ []) (cut : Cut (inForeign.run state).1 text source rest tokens)
      (taken : (takeTokens .done tokens).run state = (next, after)) (calm : next.IsCalm)
      (later : Constructed rest after more final) : Constructed text state (.plain source :: more) final

theorem notMem_of_raw {tokens : List Token} {state after : Construction} {kind : RawKind} {name : String}
    (taken : (takeTokens .done tokens).run state = (.raw kind name, after)) : '<' ∉ name.toList := by
  have raw : ∀ tag ∈ rawTags, '<' ∉ tag.toList := by decide
  have suits := takeTokens_suits tokens .done state
  rw [taken] at suits
  obtain impossible | ⟨token, -, known, -⟩ := suits
  · cases impossible
  · exact raw name known

theorem construct_nil (rounds : Nat) (state : Construction) :
    construct (rounds + 1) [] state = ([], ((takeToken .done).run state).2) := by
  obtain ⟨next, calm, taken⟩ := exists_calm_done state
  simp only [construct, readTokens, closing?, taken]
  cases next with
  | raw kind name => exact calm.elim
  | plaintext => exact calm.elim
  | done => rfl
  | again token => rfl

/-- The construction goes through such rounds. The induction is on their number: each but the last takes a character.
-/
theorem constructed {rounds : Nat} (text : List Char) (state : Construction) (enough : text.length + 1 ≤ rounds) :
    Constructed text state (construct rounds text state).1 (construct rounds text state).2 := by
  induction rounds generalizing text state with
  | zero => omega
  | succ rounds hypothesis =>
      by_cases full : text = []
      · subst full
        rw [construct_nil]
        exact .finished
      · obtain ⟨source, cut⟩ := exists_cut (inForeign.run state).1 text
        have goOn {behind : List Char} (shorter : behind.length < text.length) (state : Construction) :=
          hypothesis behind state (by omega)
        have more : text.isEmpty = false := List.isEmpty_eq_false_iff.2 full
        rw [construct]
        generalize readTokens (inForeign.run state).1 text = read at cut
        obtain ⟨tokens, rest⟩ := read
        dsimp only at cut ⊢
        rw [cut.passed]
        cases closes : closing? tokens with
        | some tag =>
            obtain ⟨rfl, slash, holds⟩ := closing?_eq_some_iff.1 closes
            exact .pair cut slash holds (goOn (cut.shorter full) _)
        | none =>
            dsimp only
            cases taken : (takeTokens .done tokens).run state with
            | mk next after =>
                cases next with
                | raw kind name =>
                    obtain ⟨raw, parts, -, -⟩ := readRawTokens_expand kind (notMem_of_raw taken) rest
                    have shorter : (readRawTokens kind name rest).2.length ≤ rest.length := by
                      conv_rhs => rw [parts, List.length_append]
                      exact Nat.le_add_left _ _
                    dsimp only
                    rw [passed_eq parts]
                    exact .raw full cut taken parts (goOn (shorter.trans_lt (cut.shorter full)) _)
                | plaintext => exact .plaintext full cut taken
                | done =>
                    simp only [more, Bool.false_eq_true, if_false]
                    exact .calm full cut taken trivial (goOn (cut.shorter full) _)
                | again token =>
                    simp only [more, Bool.false_eq_true, if_false]
                    exact .calm full cut taken trivial (goOn (cut.shorter full) _)

/-- The stretches are cut from all of the text. -/
theorem Constructed.source {state final : Construction} {stretches : List Stretch}
    (constructed : Constructed text state stretches final) : stretches.flatMap Stretch.source = text := by
  induction constructed with
  | finished => rfl
  | pair cut closes holds later hypothesis =>
      obtain ⟨name, content, tagged⟩ := cut.tagged closes
      rw [List.flatMap_cons, hypothesis, tagged.stretch, ← tagged.whole, cut.parts]
  | raw full cut taken parts later hypothesis =>
      rw [List.flatMap_cons, List.flatMap_cons, hypothesis, Stretch.source, Stretch.source, ← parts, cut.parts]
  | plaintext full cut taken => simp [Stretch.source, cut.parts]
  | calm full cut taken calm later hypothesis =>
      rw [List.flatMap_cons, hypothesis, Stretch.source, cut.parts]

end SelfClosing
end HtmlTemplate
