import HtmlTemplate.Template.StandIn
import Mathlib.Data.List.Infix

/-!
# Placeholders put back

A placeholder is found in any text that starts with its source. So a text in which stand-ins were replaced by
placeholders holds these and no others, unless the text itself opens a placeholder or hides a stand-in behind
a backslash.
-/

namespace HtmlTemplate

/-- Is the piece text? -/
def Piece.isText : Piece → Bool
  | text _ => true
  | code _ => false

namespace Placeholder

/-! ## Placeholders in other texts -/

theorem ne_backslash {c : Char} {rest less behind : List Char}
    (unescaped : ∀ next beyond, c = '\\' → rest = next :: beyond → False) (source : rest = less ++ '\x7d' :: behind) :
    c ≠ '\\' := by
  rintro rfl
  cases less with
  | nil => exact unescaped _ _ rfl source
  | cons next less => exact unescaped _ _ rfl source

theorem closeBrace_append {surroundings : Surroundings} {depth : Nat} {text inside after : List Char}
    (closed : closeBrace surroundings depth text = some (inside, after)) (other : List Char) :
    closeBrace surroundings depth (inside ++ '\x7d' :: other) = some (inside, other) := by
  fun_induction closeBrace surroundings depth text generalizing inside with
  | case1 => cases closed
  | case2 surroundings depth c rest hypothesis =>
      obtain ⟨⟨less, behind⟩, found, equal⟩ := Option.map_eq_some_iff.1 closed
      obtain ⟨rfl, rfl⟩ := Prod.mk.inj equal
      rw [List.cons_append, List.cons_append, closeBrace, hypothesis found]
      rfl
  | case3 substitutions depth rest hypothesis =>
      obtain ⟨⟨less, behind⟩, found, equal⟩ := Option.map_eq_some_iff.1 closed
      obtain ⟨rfl, rfl⟩ := Prod.mk.inj equal
      rw [List.cons_append, List.cons_append, closeBrace, hypothesis found]
      rfl
  | case4 quote depth c rest unescaped hypothesis =>
      obtain ⟨⟨less, behind⟩, found, equal⟩ := Option.map_eq_some_iff.1 closed
      obtain ⟨rfl, rfl⟩ := Prod.mk.inj equal
      have plain := ne_backslash unescaped (closeBrace_source found)
      rw [List.cons_append, closeBrace, hypothesis found]
      · rfl
      · exact fun _ _ same _ => plain same
  | case5 substitutions depth c rest unescaped unopened _ =>
      rename_i hypothesis
      obtain ⟨⟨less, behind⟩, found, equal⟩ := Option.map_eq_some_iff.1 closed
      obtain ⟨rfl, rfl⟩ := Prod.mk.inj equal
      have plain := ne_backslash unescaped (closeBrace_source found)
      have unopened : ∀ beyond, c = '$' → less ++ '\x7d' :: other = '\x7b' :: beyond → False := by
        rw [closeBrace_source found] at unopened
        rintro beyond dollar same
        cases less with
        | nil => cases same
        | cons next less => exact unopened _ dollar (by rw [List.cons_append, (List.cons.inj same).1])
      rw [List.cons_append, closeBrace]
      · exact Option.map_eq_some_iff.2 ⟨_, hypothesis found, rfl⟩
      · exact fun _ _ same _ => plain same
      · exact unopened
  | case6 depth c rest unescaped closes =>
      obtain ⟨rfl, rfl⟩ := Prod.mk.inj (Option.some.inj closed)
      rw [List.nil_append, closeBrace, if_pos (by simpa using (Bool.and_eq_true_iff.1 closes).2)]
      exact fun _ _ impossible _ => absurd impossible (by decide)
  | case7 depth c rest unescaped stays _ =>
      rename_i hypothesis
      obtain ⟨⟨less, behind⟩, found, equal⟩ := Option.map_eq_some_iff.1 closed
      obtain ⟨rfl, rfl⟩ := Prod.mk.inj equal
      have plain := ne_backslash unescaped (closeBrace_source found)
      rw [List.cons_append, closeBrace, if_neg stays]
      · exact Option.map_eq_some_iff.2 ⟨_, hypothesis found, rfl⟩
      · exact fun _ _ same _ => plain same

/-- A placeholder is found wherever its source stands. -/
theorem start_source_append {text rest : List Char} {placeholder : Placeholder}
    (found : start text = .piece (.code placeholder) rest) (other : List Char) :
    start (placeholder.source ++ other) = .piece (.code placeholder) other := by
  unfold start at found
  split at found
  · next mark escape behind opened =>
      split at found
      · cases found
      · next inside after closed =>
          dsimp only at found
          split at found
          · cases found
          · next full =>
              obtain ⟨same, rfl⟩ := Start.piece.inj found
              obtain rfl := Piece.code.inj same
              have opens : opening? (mark ++ inside ++ ['\x7d'] ++ other) =
                  some (mark, escape, inside ++ '\x7d' :: other) := by
                unfold opening? at opened
                split at opened
                · obtain ⟨rfl, rfl, rfl⟩ := opened
                  simp [opening?]
                · obtain ⟨rfl, rfl, rfl⟩ := opened
                  simp [opening?]
                · cases opened
              unfold start
              rw [opens]
              dsimp only
              rw [closeBrace_append closed]
              dsimp only
              rw [if_neg full]
  · split at found <;> cases found

theorem eq_nil_of_start {text : List Char} (found : start text = .nothing) : text = [] := by
  unfold start at found
  split at found
  · split at found
    · cases found
    · dsimp only at found
      split at found <;> cases found
  · split at found
    · rfl
    · cases found
    · cases found

theorem pieces_of_nothing {text : List Char} (found : start text = .nothing) : pieces text = .ok [] := by
  rw [pieces]
  split
  · rfl
  · next other => cases found.symm.trans other
  · next other => cases found.symm.trans other

theorem pieces_of_fault {text : List Char} {fault : PieceFault} (found : start text = .fault fault) :
    pieces text = .error (fault, []) := by
  rw [pieces]
  split
  · next other => cases found.symm.trans other
  · next other =>
      cases found.symm.trans other
      rfl
  · next other => cases found.symm.trans other

theorem pieces_of_piece {text rest : List Char} {piece : Piece} (starts : start text = .piece piece rest) :
    pieces text =
      match pieces rest with
      | .ok found => .ok (piece.cons found)
      | .error (fault, before) => .error (fault, piece.source ++ before) := by
  rw [pieces]
  split
  · next other => cases starts.symm.trans other
  · next other => cases starts.symm.trans other
  · next other =>
      obtain ⟨rfl, rfl⟩ := Start.piece.inj (starts.symm.trans other)
      rfl

/-- A text is cut where the piece ends that it starts with. -/
theorem pieces_eq_ok_iff {text rest : List Char} {piece : Piece} {found : List Piece}
    (starts : start text = .piece piece rest) :
    pieces text = .ok found ↔ ∃ others, pieces rest = .ok others ∧ found = piece.cons others := by
  rw [pieces_of_piece starts]
  cases pieces rest with
  | error failed => simp
  | ok others => simp [eq_comm]

theorem code_mem_cons {placeholder : Placeholder} {piece : Piece} {found : List Piece} :
    .code placeholder ∈ piece.cons found ↔ piece = .code placeholder ∨ .code placeholder ∈ found := by
  unfold Piece.cons
  split <;> simp [eq_comm]

theorem head?_source {text rest : List Char} {placeholder : Placeholder}
    (found : start text = .piece (.code placeholder) rest) : placeholder.source.head? = some '$' := by
  have source := start_source found
  have full := start_source_ne_nil found
  unfold start at found
  split at found
  · next mark escape behind opened =>
      have dollar : text.head? = some '$' := by
        unfold opening? at opened
        split at opened
        · rfl
        · rfl
        · cases opened
      change placeholder.source ≠ [] at full
      change text = placeholder.source ++ rest at source
      obtain ⟨c, others, same⟩ := List.exists_cons_of_ne_nil full
      rw [source, same] at dollar
      rw [same]
      exact dollar
  · split at found <;> cases found

/-- A placeholder that is found in a text is found wherever its source stands. -/
theorem start_of_mem_pieces {text : List Char} {found : List Piece} {placeholder : Placeholder}
    (cut : pieces text = .ok found) (member : .code placeholder ∈ found) (other : List Char) :
    start (placeholder.source ++ other) = .piece (.code placeholder) other := by
  induction length : text.length using Nat.strongRecOn generalizing text found with
  | ind length hypothesis =>
      cases starts : start text with
      | nothing =>
          cases (pieces_of_nothing starts).symm.trans cut
          cases member
      | fault fault => cases (pieces_of_fault starts).symm.trans cut
      | piece piece rest =>
          obtain ⟨others, below, rfl⟩ := (pieces_eq_ok_iff starts).1 cut
          rcases code_mem_cons.1 member with rfl | member
          · exact start_source_append starts other
          · exact hypothesis _ (length ▸ length_lt_of_start starts) below member rfl

/-! ## Texts without placeholders -/

/-- The text holds no placeholder, and nothing that fails to be one. -/
def Silent (text : List Char) : Prop :=
  ∃ found, pieces text = .ok found ∧ ∀ placeholder, .code placeholder ∉ found

theorem silent_iff {text : List Char} :
    Silent text ↔ ((pieces text).toOption.map fun found => found.all Piece.isText) = some true := by
  unfold Silent
  cases pieces text with
  | error failed => simp [Except.toOption]
  | ok found =>
      simp only [Except.ok.injEq, exists_eq_left', Except.toOption, Option.map_some, Option.some.injEq,
        List.all_eq_true]
      constructor
      · intro absent piece member
        cases piece with
        | text source => rfl
        | code placeholder => exact absurd member (absent placeholder)
      · intro texts placeholder member
        cases texts _ member

instance (text : List Char) : Decidable (Silent text) :=
  decidable_of_iff' _ silent_iff

theorem Silent.start_cases {text : List Char} (silent : Silent text) :
    text = [] ∨ ∃ source rest, start text = .piece (.text source) rest ∧ Silent rest := by
  obtain ⟨found, cut, absent⟩ := silent
  cases starts : start text with
  | nothing => exact .inl (eq_nil_of_start starts)
  | fault fault => cases (pieces_of_fault starts).symm.trans cut
  | piece piece rest =>
      obtain ⟨others, below, rfl⟩ := (pieces_eq_ok_iff starts).1 cut
      cases piece with
      | code placeholder => exact absurd (code_mem_cons.2 (.inl rfl)) (absent placeholder)
      | text source =>
          exact .inr ⟨source, rest, rfl, others, below, fun placeholder member =>
            absent placeholder (code_mem_cons.2 (.inr member))⟩

/-- A character that starts no placeholder and escapes none is a piece of text. -/
theorem start_cons {c : Char} {rest : List Char} (unopened : opening? (c :: rest) = none)
    (unescaped : c = '\\' → rest.head? ≠ some '$') : start (c :: rest) = .piece (.text [c]) rest := by
  unfold start
  rw [unopened]
  dsimp only
  split
  · next impossible => cases impossible
  · next same =>
      obtain ⟨rfl, rfl⟩ := List.cons.inj same
      exact absurd rfl (unescaped rfl)
  · next same =>
      obtain ⟨rfl, rfl⟩ := List.cons.inj same
      rfl

theorem start_escape (rest : List Char) : start ('\\' :: '$' :: rest) = .piece (.text ['\\', '$']) rest :=
  rfl

/-- A text that starts with no placeholder starts with an escaped dollar, or with a character by itself. -/
theorem Silent.cons_cases {c : Char} {rest : List Char} (silent : Silent (c :: rest)) :
    opening? (c :: rest) = none ∧
      ((∃ behind, c = '\\' ∧ rest = '$' :: behind ∧ Silent behind) ∨
        (c = '\\' → rest.head? ≠ some '$') ∧ Silent rest) := by
  have unopened : opening? (c :: rest) = none := by
    cases opened : opening? (c :: rest) with
    | none => rfl
    | some mark =>
        rcases silent.start_cases with impossible | ⟨source, after, starts, -⟩
        · cases impossible
        · unfold start at starts
          rw [opened] at starts
          dsimp only at starts
          split at starts
          · cases starts
          · split at starts <;> cases starts
  refine ⟨unopened, ?_⟩
  by_cases escape : c = '\\' ∧ rest.head? = some '$'
  · obtain ⟨rfl, dollar⟩ := escape
    obtain ⟨behind, rfl⟩ := List.head?_eq_some_iff.1 dollar
    rcases silent.start_cases with impossible | ⟨source, after, starts, quiet⟩
    · cases impossible
    · cases (start_escape behind).symm.trans starts
      exact .inl ⟨behind, rfl, rfl, quiet⟩
  · have unescaped : c = '\\' → rest.head? ≠ some '$' := fun same dollar => escape ⟨same, dollar⟩
    rcases silent.start_cases with impossible | ⟨source, after, starts, quiet⟩
    · cases impossible
    · cases (start_cons unopened unescaped).symm.trans starts
      exact .inr ⟨unescaped, quiet⟩

end Placeholder

/-! ## Stand-ins and what they stand for -/

namespace StandIn

open Placeholder

variable {sources : List (List Char)} {text rest digits : List Char}

/-- Characters that have no meaning in texts with placeholders. -/
def Plain (text : List Char) : Prop :=
  ∀ c ∈ text, c ≠ '$' ∧ c ≠ '\\'

theorem plain_digits (allDigits : digits.all Text.isDigit = true) : Plain (opening ++ digits ++ closing) := by
  intro c member
  rw [List.append_assoc, List.mem_append, List.mem_append] at member
  have fixed : ∀ c ∈ opening ++ closing, c ≠ '$' ∧ c ≠ '\\' := by
    have all : ((opening ++ closing).all fun c => c != '$' && c != '\\') = true := by decide
    simpa only [List.all_eq_true, Bool.and_eq_true, bne_iff_ne] using all
  rcases member with member | member | member
  · exact fixed c (List.mem_append_left _ member)
  · have digit := List.all_eq_true.1 allDigits c member
    constructor <;> rintro rfl <;> exact absurd digit (by decide)
  · exact fixed c (List.mem_append_right _ member)

theorem read?_source (found : read? text = some (digits, rest)) :
    text = opening ++ digits ++ closing ++ rest ∧ digits.all Text.isDigit = true := by
  unfold read? at found
  split at found
  · next opens =>
      dsimp only at found
      split at found
      · next closes =>
          obtain ⟨rfl, rfl⟩ := Prod.mk.inj (Option.some.inj found)
          refine ⟨?_, List.all_takeWhile⟩
          have first := List.prefix_iff_eq_append.1 (List.isPrefixOf_iff_prefix.1 opens)
          have last := List.prefix_iff_eq_append.1
            (List.isPrefixOf_iff_prefix.1 (Bool.and_eq_true_iff.1 closes).2)
          have run := List.prefix_iff_eq_append.1 (List.takeWhile_prefix Text.isDigit : _ <+: text.drop opening.length)
          rw [List.drop_drop] at run
          rw [List.append_assoc, List.append_assoc, last, run, first]
      · cases found
  · cases found

theorem flatMap_consText {part : StandIn.Part → List Char} (value : List Char)
    (whole : ∀ value, part (.text value) = value) (parts : List Part) :
    (Part.consText value parts).flatMap part = value ++ parts.flatMap part := by
  unfold Part.consText
  split
  · rw [List.flatMap_cons, List.flatMap_cons, whole, whole, List.append_assoc]
  · rw [List.flatMap_cons, whole]

theorem restore_nil : restore sources [] = [] := by
  rw [restore, parts]
  rfl

theorem restore_cons {c : Char} (none : read? (c :: rest) = none) :
    restore sources (c :: rest) = c :: restore sources rest := by
  rw [restore, parts]
  split
  · next found => cases none.symm.trans found
  · exact flatMap_consText [c] (fun _ => rfl) _

/-- A stand-in gives way to a source if it has one, and stays text if not. -/
theorem restore_standIn (found : read? text = some (digits, rest)) :
    (∃ source ∈ sources, restore sources text = source ++ restore sources rest) ∨
      restore sources text = opening ++ digits ++ closing ++ restore sources rest := by
  rw [restore, parts]
  split
  · next other =>
      obtain ⟨rfl, rfl⟩ := Prod.mk.inj (Option.some.inj (found.symm.trans other))
      split
      · next number counted =>
          have within : number < sources.length := by simpa using (Option.filter_eq_some_iff.1 counted).2
          refine .inl ⟨sources[number], List.getElem_mem within, ?_⟩
          rw [List.flatMap_cons]
          dsimp only
          rw [List.getD_eq_getElem?_getD, List.getElem?_eq_getElem within]
          rfl
      · exact .inr (flatMap_consText _ (fun _ => rfl) _)
  · next other => cases found.symm.trans other

/-- What a text starts with when its stand-ins are replaced: a dollar, if it starts with a stand-in, and the
same character otherwise. -/
theorem head?_restore (dollars : ∀ source ∈ sources, source.head? = some '$') :
    (restore sources text).head? = text.head? ∨
      opening <+: text ∧ (restore sources text).head? = some '$' := by
  cases found : read? text with
  | none =>
      cases text with
      | nil => exact .inl (by rw [restore_nil])
      | cons c rest => exact .inl (by rw [restore_cons found]; rfl)
  | some read =>
      obtain ⟨source, -⟩ := read?_source found
      rcases restore_standIn found with ⟨replaced, member, equal⟩ | equal
      · refine .inr ⟨⟨_, by rw [source, List.append_assoc, List.append_assoc]⟩, ?_⟩
        have starts := dollars replaced member
        rw [equal]
        cases replaced with
        | nil => cases starts
        | cons c others => exact starts
      · exact .inl (by rw [equal, source]; rfl)

theorem read?_eq_none {c : Char} (different : c ≠ '_') : read? (c :: rest) = none := by
  unfold read?
  rw [if_neg]
  intro opens
  obtain ⟨behind, same⟩ := List.isPrefixOf_iff_prefix.1 opens
  exact different (List.cons.inj same).1.symm

/-- The text opens no placeholder itself, and hides no stand-in behind a backslash. -/
structure Innocent (text : List Char) : Prop where
  silent : Silent text
  unescaped : ¬ '\\' :: opening <:+: text

instance (text : List Char) : Decidable (Innocent text) :=
  decidable_of_iff (Silent text ∧ ¬ '\\' :: opening <:+: text)
    ⟨fun both => ⟨both.1, both.2⟩, fun innocent => ⟨innocent.silent, innocent.unescaped⟩⟩

theorem Innocent.of_suffix {text rest : List Char} (innocent : Innocent text) (silent : Silent rest)
    (behind : rest <:+ text) : Innocent rest :=
  ⟨silent, fun inside => innocent.unescaped (inside.trans behind.isInfix)⟩

theorem opening?_eq_none {c : Char} (different : c ≠ '$') : opening? (c :: rest) = none := by
  unfold opening?
  split
  · next same => exact absurd (List.cons.inj same).1 different
  · next same => exact absurd (List.cons.inj same).1 different
  · rfl

/-- Dollars do not open more when stand-ins are replaced. -/
theorem opening?_restore (dollars : ∀ source ∈ sources, source.head? = some '$') {c : Char}
    (unopened : opening? (c :: rest) = none) : opening? (c :: restore sources rest) = none := by
  have starts : ∀ {text behind : List Char} {next : Char}, next ≠ '$' → restore sources text = next :: behind →
      ∃ others, text = next :: others := by
    intro text behind next different equal
    rcases head?_restore dollars with same | ⟨-, dollar⟩
    · rw [equal] at same
      exact List.head?_eq_some_iff.1 same.symm
    · rw [equal] at dollar
      exact absurd (Option.some.inj dollar) different
  cases opened : opening? (c :: restore sources rest) with
  | none => rfl
  | some mark =>
      unfold opening? at opened
      split at opened
      · next same =>
          obtain ⟨rfl, brace⟩ := List.cons.inj same
          obtain ⟨others, rfl⟩ := starts (by decide) brace
          cases unopened
      · next same =>
          obtain ⟨rfl, mark⟩ := List.cons.inj same
          obtain ⟨others, rfl⟩ := starts (by decide) mark
          rw [restore_cons (read?_eq_none (by decide))] at mark
          obtain ⟨behind, rfl⟩ := starts (by decide) (List.cons.inj mark).2
          cases unopened
      · cases opened

/-- Plain characters hold no placeholder. -/
theorem pieces_plain {run : List Char} (plain : Plain run) {found : List Piece} {placeholder : Placeholder}
    (cut : pieces (run ++ rest) = .ok found) (member : .code placeholder ∈ found) :
    ∃ others, pieces rest = .ok others ∧ .code placeholder ∈ others := by
  induction run generalizing found with
  | nil => exact ⟨found, cut, member⟩
  | cons c run hypothesis =>
      obtain ⟨dollar, escape⟩ := plain c List.mem_cons_self
      have starts : start (c :: (run ++ rest)) = .piece (.text [c]) (run ++ rest) :=
        start_cons (opening?_eq_none dollar) fun same => absurd same escape
      obtain ⟨others, below, rfl⟩ := (pieces_eq_ok_iff starts).1 cut
      rcases code_mem_cons.1 member with impossible | member
      · cases impossible
      · exact hypothesis (fun c member => plain c (List.mem_cons_of_mem _ member)) below member

theorem silent_plain {run : List Char} (plain : Plain run) (silent : Silent (run ++ rest)) : Silent rest := by
  induction run with
  | nil => exact silent
  | cons c run hypothesis =>
      have later : Plain run := fun c member => plain c (List.mem_cons_of_mem _ member)
      rcases silent.cons_cases.2 with ⟨behind, escape, -, -⟩ | ⟨-, silent⟩
      · exact absurd escape (plain c List.mem_cons_self).2
      · exact hypothesis later silent

/-- A text whose stand-ins are replaced by placeholders holds only these, if it is innocent. -/
theorem mem_of_mem_pieces_restore {placeholders : List Placeholder}
    (genuine : ∀ placeholder ∈ placeholders, ∀ other,
      start (placeholder.source ++ other) = .piece (.code placeholder) other)
    (innocent : Innocent text) {found : List Piece} {placeholder : Placeholder}
    (cut : pieces (restore (placeholders.map Placeholder.source) text) = .ok found)
    (member : .code placeholder ∈ found) : placeholder ∈ placeholders := by
  have allDollars : ∀ source ∈ placeholders.map Placeholder.source, source.head? = some '$' := by
    intro source among
    obtain ⟨other, present, rfl⟩ := List.mem_map.1 among
    exact head?_source (genuine other present [])
  induction length : text.length using Nat.strongRecOn generalizing text found with
  | ind length hypothesis =>
      cases reads : read? text with
      | some read =>
          obtain ⟨digits, rest⟩ := read
          obtain ⟨source, allDigits⟩ := read?_source reads
          have plain := plain_digits allDigits
          have silent : Silent rest := silent_plain plain (source ▸ innocent.silent)
          have later := innocent.of_suffix silent ⟨_, source.symm⟩
          have shorter := length ▸ read?_length reads
          rcases restore_standIn reads with ⟨replaced, among, equal⟩ | equal
          · obtain ⟨other, present, rfl⟩ := List.mem_map.1 among
            rw [equal] at cut
            obtain ⟨others, below, rfl⟩ := (pieces_eq_ok_iff (genuine other present _)).1 cut
            rcases code_mem_cons.1 member with same | member
            · exact Piece.code.inj same ▸ present
            · exact hypothesis _ shorter later below member rfl
          · rw [equal] at cut
            obtain ⟨others, below, member⟩ := pieces_plain plain cut member
            exact hypothesis _ shorter later below member rfl
      | none =>
          cases text with
          | nil =>
              rw [restore_nil] at cut
              cases (pieces_of_nothing rfl).symm.trans cut
              cases member
          | cons c rest =>
              rw [restore_cons reads] at cut
              obtain ⟨unopened, ⟨behind, rfl, rfl, silent⟩ | ⟨unescaped, silent⟩⟩ := innocent.silent.cons_cases
              · rw [restore_cons (read?_eq_none (by decide))] at cut
                obtain ⟨others, below, rfl⟩ := (pieces_eq_ok_iff (start_escape _)).1 cut
                rcases code_mem_cons.1 member with impossible | member
                · cases impossible
                · exact hypothesis behind.length (by rw [← length]; exact Nat.lt_succ_of_lt (Nat.lt_succ_self _))
                    (innocent.of_suffix silent ⟨['\\', '$'], rfl⟩) below member rfl
              · have stays : c = '\\' → (restore (placeholders.map Placeholder.source) rest).head? ≠ some '$' := by
                  rintro rfl dollar
                  rcases head?_restore allDollars with same | ⟨opens, -⟩
                  · exact unescaped rfl (same ▸ dollar)
                  · exact innocent.unescaped (List.prefix_cons_inj _ |>.2 opens).isInfix
                have starts := start_cons (opening?_restore allDollars unopened) stays
                obtain ⟨others, below, rfl⟩ := (pieces_eq_ok_iff starts).1 cut
                rcases code_mem_cons.1 member with impossible | member
                · cases impossible
                · exact hypothesis rest.length (by rw [← length]; exact Nat.lt_succ_self _)
                    (innocent.of_suffix silent ⟨[c], rfl⟩) below member rfl

end StandIn
end HtmlTemplate
