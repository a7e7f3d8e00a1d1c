import HtmlTemplate.Proofs.Placement.Origin

/-!
# Stand-ins give way to their placeholders again

A source is hidden when stand-ins take the place of its placeholders, and restored when these are put back. That
gives the source again if and only if nothing else in it reads as a stand-in for one of its placeholders, and no
text in front of a placeholder ends like a stand-in that breaks off (`Inert`): such an end goes together with
the start of the stand-in behind it.
-/

namespace HtmlTemplate

/-! ## Numbers -/

theorem Text.number?_eq {digits : List Char} (ascii : ∀ c ∈ digits, c.isDigit = true) :
    number? digits = some (Nat.ofDigitChars 10 digits 0) := by
  unfold number?
  generalize 0 = start
  induction digits generalizing start with
  | nil => rfl
  | cons c digits hypothesis =>
    obtain ⟨digit, later⟩ := List.forall_mem_cons.1 ascii
    rw [List.foldl_cons]
    simp only [digit, if_true]
    rw [hypothesis later, Nat.ofDigitChars_cons, Nat.mul_comm]

theorem Text.isDigit_of_ascii {c : Char} (ascii : c.isDigit = true) : isDigit c = true := by
  refine inRanges_eq_true_iff.2 ⟨(0x30, 0x39), List.mem_cons_self, ?_⟩
  simpa [Char.isDigit, UInt32.le_iff_toNat_le] using ascii

/-- A number is read back from its digits. -/
theorem Text.number?_toString (number : Nat) : number? (toString number).toList = some number := by
  rw [Nat.toString_eq_repr, Nat.toList_repr, number?_eq (fun c member => Nat.isDigit_of_mem_toDigits (by decide) (by decide) member)]
  simp

namespace StandIn

variable {text rest digits after : List Char} {count : Nat}

/-! ## What reads as a stand-in -/

theorem takeWhile_digits (allDigits : digits.all Text.isDigit = true) (rest : List Char) :
    (digits ++ '_' :: rest).takeWhile Text.isDigit = digits := by
  rw [List.takeWhile_append_of_pos (List.all_eq_true.1 allDigits), List.takeWhile_cons_of_neg (by decide),
    List.append_nil]

theorem read?_eq_some_iff :
    read? text = some (digits, rest) ↔
      text = opening ++ (digits ++ (closing ++ rest)) ∧ digits ≠ [] ∧ digits.all Text.isDigit = true := by
  constructor
  · intro found
    obtain ⟨source, allDigits⟩ := read?_source found
    refine ⟨by rw [source, List.append_assoc, List.append_assoc], ?_, allDigits⟩
    rintro rfl
    unfold read? at found
    split at found
    · dsimp only at found
      split at found
      · next closes =>
        have empty := (Prod.mk.inj (Option.some.inj found)).1
        rw [empty] at closes
        cases closes
      · cases found
    · cases found
  · rintro ⟨rfl, some, allDigits⟩
    unfold read?
    rw [if_pos (List.isPrefixOf_iff_prefix.2 (List.prefix_append _ _))]
    have run : (digits ++ (closing ++ rest)).takeWhile Text.isDigit = digits := takeWhile_digits allDigits _
    have closes : closing.isPrefixOf (closing ++ rest) = true := List.isPrefixOf_iff_prefix.2 (List.prefix_append _ _)
    dsimp only
    rw [List.drop_left, run, ← List.drop_drop, List.drop_left, List.drop_left, closes, List.drop_left]
    rw [if_pos]
    simpa using some

theorem read?_append (found : read? text = some (digits, rest)) (after : List Char) :
    read? (text ++ after) = some (digits, rest ++ after) := by
  obtain ⟨rfl, numbered, allDigits⟩ := read?_eq_some_iff.1 found
  exact read?_eq_some_iff.2 ⟨by simp only [List.append_assoc], numbered, allDigits⟩

theorem read?_ofNumber (number : Nat) (after : List Char) :
    read? (ofNumber number ++ after) = some ((toString number).toList, after) := by
  refine read?_eq_some_iff.2 ⟨by simp only [ofNumber, List.append_assoc], ?_, ?_⟩
  · rw [Nat.toString_eq_repr, Nat.toList_repr]
    exact Nat.toDigits_ne_nil
  · rw [Nat.toString_eq_repr, Nat.toList_repr, List.all_eq_true]
    intro c member
    exact Text.isDigit_of_ascii (Nat.isDigit_of_mem_toDigits (by decide) (by decide) member)

/-- A text ends like a stand-in that breaks off after its digits, or in the middle of what closes it. -/
def BreaksOff (text : List Char) : Prop :=
  ∃ digits, digits ≠ [] ∧ digits.all Text.isDigit = true ∧
    (text = opening ++ digits ∨ text = opening ++ (digits ++ ['_']))

theorem underscore_notMem (allDigits : digits.all Text.isDigit = true) : '_' ∉ digits := fun member =>
  absurd (List.all_eq_true.1 allDigits _ member) (by decide)

/-- Where a text breaks off, a stand-in behind it makes it look like one. -/
theorem BreaksOff.read?_isSome (breaksOff : BreaksOff text) (after : List Char) :
    (read? (text ++ (opening ++ after))).isSome = true := by
  obtain ⟨digits, numbered, allDigits, rfl | rfl⟩ := breaksOff
  · have found : read? (opening ++ digits ++ (opening ++ after)) = some (digits, opening.drop 2 ++ after) :=
      read?_eq_some_iff.2 ⟨List.append_assoc _ _ _, numbered, allDigits⟩
    rw [found]
    rfl
  · have source : opening ++ (digits ++ ['_']) ++ (opening ++ after) =
        opening ++ (digits ++ (closing ++ (opening.drop 1 ++ after))) := by
      rw [List.append_assoc, List.append_assoc]
      rfl
    rw [read?_eq_some_iff.2 ⟨source, numbered, allDigits⟩]
    rfl

/-- No later part of what opens a stand-in looks like its start, whatever but an underscore comes behind it. -/
theorem not_opening_again {front back more after : List Char} {c : Char} (split : opening = front ++ back)
    (full : front ≠ []) (other : c ≠ '_') : back ++ c :: more ≠ '_' :: '_' :: after := by
  have parts : ∀ place < 12, 0 < place → (opening.drop place).length < 2 ∨ (opening.drop place).take 2 ≠ closing := by
    decide
  have place : front.length < 12 := by
    have lengths := congrArg List.length split
    rw [List.length_append] at lengths
    have whole : opening.length = 11 := by decide
    omega
  have part := parts front.length place (List.length_pos_iff.2 full)
  rw [split, List.drop_left] at part
  intro same
  match back, part with
  | [], _ => exact other (List.cons.inj same).1
  | [_], _ => exact other (List.cons.inj (List.cons.inj same).2).1
  | first :: second :: _, part =>
    obtain ⟨rfl, later⟩ := List.cons.inj same
    obtain ⟨rfl, -⟩ := List.cons.inj later
    rcases part with short | different
    · simp only [List.length_cons] at short
      omega
    · exact different rfl

/-- A stand-in that is found where a text goes over into another one lies in the text, or the text breaks off and
the stand-in goes on with an underscore. -/
theorem read?_or_breaksOff (full : text ≠ []) (found : read? (text ++ (opening ++ after)) = some (digits, rest)) :
    (∃ behind, read? text = some (digits, behind) ∧ rest = behind ++ (opening ++ after)) ∨
      BreaksOff text ∧ ∃ back, opening ++ (digits ++ closing) = text ++ '_' :: back := by
  obtain ⟨source, numbered, allDigits⟩ := read?_eq_some_iff.1 found
  have whole : text ++ (opening ++ after) = opening ++ (digits ++ closing) ++ rest := by
    rw [source]
    simp only [List.append_assoc]
  rcases List.append_eq_append_iff.1 whole with ⟨back, inside, starts⟩ | ⟨behind, outside, left⟩
  · cases back with
    | nil =>
      rw [List.append_nil] at inside
      refine .inl ⟨[], ?_, starts.symm⟩
      exact read?_eq_some_iff.2 ⟨by rw [← inside, List.append_nil], numbered, allDigits⟩
    | cons c back =>
      -- What is left of the stand-in starts like the text behind, so it can be no more than what closes it.
      obtain ⟨rfl, -⟩ := List.cons.inj starts
      refine .inr ⟨?_, back, inside⟩
      rcases List.append_eq_append_iff.1 inside with ⟨late, rfl, middle⟩ | ⟨early, opens, others⟩
      · rcases List.append_eq_append_iff.1 middle with ⟨last, rfl, closes⟩ | ⟨last, ends, closes⟩
        · match last, closes with
          | [], _ => exact ⟨digits, numbered, allDigits, .inl (by rw [List.append_nil])⟩
          | [_], closes =>
            obtain ⟨rfl, -⟩ := List.cons.inj closes
            exact ⟨digits, numbered, allDigits, .inr rfl⟩
          | _ :: _ :: last, closes => simpa using (List.cons.inj (List.cons.inj closes).2).2
        · cases last with
          | nil => exact ⟨digits, numbered, allDigits, .inl (by rw [ends, List.append_nil])⟩
          | cons d last =>
            obtain ⟨rfl, -⟩ := List.cons.inj closes
            exact absurd (ends ▸ List.mem_append_right _ List.mem_cons_self) (underscore_notMem allDigits)
      · obtain ⟨d, more, rfl⟩ := List.exists_cons_of_ne_nil numbered
        have other : d ≠ '_' := by
          rintro rfl
          exact underscore_notMem allDigits List.mem_cons_self
        have again := starts
        rw [others, List.append_assoc] at again
        exact absurd again.symm (not_opening_again opens full other)
  · refine .inl ⟨behind, ?_, left⟩
    exact read?_eq_some_iff.2 ⟨by rw [outside]; simp only [List.append_assoc], numbered, allDigits⟩

/-! ## Text that stays text -/

/-- Text stays as it is when the stand-ins with numbers below `count` give way: nothing in it reads as one of them,
and if it is `followed` by a stand-in, then it nowhere breaks off. -/
inductive Inert (count : Nat) (followed : Bool) : List Char → Prop
  | nil : Inert count followed []
  | cons {c : Char} {rest : List Char} (plain : read? (c :: rest) = none)
      (whole : followed = true → ¬BreaksOff (c :: rest)) (later : Inert count followed rest) :
      Inert count followed (c :: rest)
  | standIn {text digits rest : List Char} (found : read? text = some (digits, rest))
      (unknown : ∀ number, Text.number? digits = some number → count ≤ number) (later : Inert count followed rest) :
      Inert count followed text

/-- The texts among pieces stay as they are when stand-ins give way to placeholders again. -/
def Unmistakable (count : Nat) : List Piece → Prop
  | [] => True
  | .text source :: pieces => Inert count (!pieces.isEmpty) source ∧ Unmistakable count pieces
  | .code _ :: pieces => Unmistakable count pieces

variable {followed : Bool} {sources : List (List Char)} {hidden shown : List Char}

theorem inert_cons_iff {c : Char} (plain : read? (c :: rest) = none) :
    Inert count followed (c :: rest) ↔ (followed = true → ¬BreaksOff (c :: rest)) ∧ Inert count followed rest := by
  constructor
  · rintro (_ | ⟨-, whole, later⟩ | ⟨found, -, -⟩)
    · exact ⟨whole, later⟩
    · cases plain.symm.trans found
  · rintro ⟨whole, later⟩
    exact .cons plain whole later

theorem inert_standIn_iff (found : read? text = some (digits, rest)) :
    Inert count followed text ↔
      (∀ number, Text.number? digits = some number → count ≤ number) ∧ Inert count followed rest := by
  constructor
  · rintro (_ | ⟨plain, -, -⟩ | ⟨other, unknown, later⟩)
    · cases found
    · cases plain.symm.trans found
    · obtain ⟨rfl, rfl⟩ := Prod.mk.inj (Option.some.inj (found.symm.trans other))
      exact ⟨unknown, later⟩
  · rintro ⟨unknown, later⟩
    exact .standIn found unknown later

/-- A stand-in gives way to the source that has its number, and stays text if none has. -/
theorem restore_cases (sources : List (List Char)) (found : read? text = some (digits, rest)) :
    (∃ number source, Text.number? digits = some number ∧ sources[number]? = some source ∧
        restore sources text = source ++ restore sources rest) ∨
      (∀ number, Text.number? digits = some number → sources.length ≤ number) ∧
        restore sources text = opening ++ (digits ++ (closing ++ restore sources rest)) := by
  rw [restore, parts]
  split
  · next others behind other =>
    obtain ⟨rfl, rfl⟩ := Prod.mk.inj (Option.some.inj (found.symm.trans other))
    split
    · next number counted =>
      obtain ⟨numbered, small⟩ := Option.filter_eq_some_iff.1 counted
      have within : number < sources.length := by simpa using small
      refine .inl ⟨number, sources[number], numbered, List.getElem?_eq_getElem within, ?_⟩
      rw [List.flatMap_cons]
      dsimp only
      rw [List.getD_eq_getElem?_getD, List.getElem?_eq_getElem within]
      rfl
    · next uncounted =>
      refine .inr ⟨?_, ?_⟩
      · intro number numbered
        rw [numbered] at uncounted
        simpa [Option.filter] using uncounted
      · rw [flatMap_consText _ (fun _ => rfl), List.append_assoc, List.append_assoc]
        rfl
  · next other => cases found.symm.trans other

/-- A text that starts with a stand-in for a placeholder is not restored: the placeholder starts with a dollar. -/
theorem restore_ne_of_replaced {source later : List Char} (dollar : source.head? = some '$') (full : text ≠ [])
    (found : read? (text ++ hidden) = some (digits, rest))
    (replaced : restore sources (text ++ hidden) = source ++ later) : restore sources (text ++ hidden) ≠ text ++ shown := by
  obtain ⟨c, text, rfl⟩ := List.exists_cons_of_ne_nil full
  obtain ⟨d, source, rfl⟩ := List.exists_cons_of_ne_nil (show source ≠ [] by rintro rfl; cases dollar)
  obtain rfl : d = '$' := Option.some.inj dollar
  obtain rfl : c = '_' := (List.cons.inj (read?_eq_some_iff.1 found).1).1
  rw [replaced]
  intro same
  exact absurd (List.cons.inj same).1 (by decide)

/-- A text that starts with a whole stand-in is restored if and only if that stands for no placeholder and what is
behind it is restored. -/
theorem restore_standIn_iff (dollars : ∀ source ∈ sources, source.head? = some '$')
    (found : read? text = some (digits, rest)) :
    restore sources (text ++ hidden) = text ++ shown ↔
      (∀ number, Text.number? digits = some number → sources.length ≤ number) ∧
        restore sources (rest ++ hidden) = rest ++ shown := by
  obtain ⟨source, numbered, allDigits⟩ := read?_eq_some_iff.1 found
  have full : text ≠ [] := by
    rintro rfl
    cases source
  have outer := read?_append found hidden
  rcases restore_cases sources outer with ⟨number, other, isNumber, there, replaced⟩ | ⟨unknown, kept⟩
  · have member := List.mem_of_getElem? there
    refine ⟨fun same => absurd same (restore_ne_of_replaced (dollars other member) full outer replaced), ?_⟩
    rintro ⟨unknown, -⟩
    have within := (List.getElem?_eq_some_iff.1 there).1
    exact absurd (unknown number isNumber) (Nat.not_le.2 within)
  · have shape : text ++ shown = opening ++ (digits ++ (closing ++ (rest ++ shown))) := by
      rw [source]
      simp only [List.append_assoc]
    rw [kept, shape, List.append_cancel_left_eq, List.append_cancel_left_eq, List.append_cancel_left_eq]
    exact ⟨fun same => ⟨unknown, same⟩, And.right⟩

/-- Where a text breaks off, the stand-in behind it is lost. -/
theorem restore_breaksOff_ne (dollars : ∀ source ∈ sources, source.head? = some '$') (shows : shown.head? = some '$')
    (full : text ≠ []) (found : read? (text ++ (opening ++ after)) = some (digits, rest)) {back : List Char}
    (overlaps : opening ++ (digits ++ closing) = text ++ '_' :: back) :
    restore sources (text ++ (opening ++ after)) ≠ text ++ shown := by
  rcases restore_cases sources found with ⟨number, source, -, there, replaced⟩ | ⟨-, kept⟩
  · exact restore_ne_of_replaced (dollars source (List.mem_of_getElem? there)) full found replaced
  · have shape : opening ++ (digits ++ (closing ++ restore sources rest)) =
        text ++ ('_' :: back ++ restore sources rest) := by
      rw [← List.append_assoc text, ← overlaps]
      simp only [List.append_assoc]
    rw [kept, shape]
    intro same
    rw [← List.append_cancel_left same] at shows
    exact absurd (Option.some.inj shows) (by decide)

/-- Text in front of a stand-in, or at the end, is restored if and only if it is inert. The induction is on the
length of the text. -/
theorem restore_text_iff (dollars : ∀ source ∈ sources, source.head? = some '$')
    (ends : if followed then opening <+: hidden ∧ shown.head? = some '$' else hidden = [] ∧ shown = [])
    (text : List Char) :
    restore sources (text ++ hidden) = text ++ shown ↔
      Inert sources.length followed text ∧ restore sources hidden = shown := by
  induction length : text.length using Nat.strongRecOn generalizing text with
  | ind length hypothesis =>
    cases inner : read? text with
    | some read =>
      obtain ⟨digits, rest⟩ := read
      rw [restore_standIn_iff dollars inner, inert_standIn_iff inner,
        hypothesis rest.length (length ▸ read?_length inner) rest rfl, and_assoc]
    | none =>
      cases text with
      | nil => exact ⟨fun same => ⟨.nil, same⟩, And.right⟩
      | cons c rest =>
        rw [inert_cons_iff inner]
        cases found : read? (c :: (rest ++ hidden)) with
        | none =>
          have whole : followed = true → ¬BreaksOff (c :: rest) := by
            rintro rfl breaksOff
            obtain ⟨after, rfl⟩ := ends.1
            have some := breaksOff.read?_isSome after
            rw [List.cons_append, found] at some
            cases some
          rw [List.cons_append, restore_cons found, List.cons_append, List.cons_inj_right,
            hypothesis rest.length (by rw [← length]; exact Nat.lt_succ_self _) rest rfl, and_iff_right whole]
        | some read =>
          obtain ⟨digits, behind⟩ := read
          cases followed with
          | false =>
            obtain ⟨rfl, rfl⟩ := ends
            rw [List.append_nil] at found
            cases inner.symm.trans found
          | true =>
            obtain ⟨⟨after, rfl⟩, shows⟩ := ends
            rcases read?_or_breaksOff (List.cons_ne_nil c rest) found with ⟨_, some, -⟩ | ⟨breaksOff, back, overlaps⟩
            · cases inner.symm.trans some
            · constructor
              · intro same
                exact absurd same (restore_breaksOff_ne dollars shows (List.cons_ne_nil c rest) found overlaps)
              · rintro ⟨⟨whole, -⟩, -⟩
                exact absurd breaksOff (whole rfl)

end StandIn

/-! ## Pieces of a source -/

namespace Placeholder

/-- What holds of the empty text, and of a text if it holds of what is behind the piece that the text starts with,
holds of all texts and their pieces. -/
theorem pieces_induction {motive : List Char → List Piece → Prop} (nothing : motive [] [])
    (piece : ∀ {text rest : List Char} {piece : Piece} {others : List Piece}, start text = .piece piece rest →
      motive rest others → motive text (piece.cons others))
    {text : List Char} {found : List Piece} (cut : pieces text = .ok found) : motive text found := by
  induction length : text.length using Nat.strongRecOn generalizing text found with
  | ind length hypothesis =>
    cases starts : start text with
    | nothing =>
      cases (pieces_of_nothing starts).symm.trans cut
      rw [show text = [] from eq_nil_of_start starts]
      exact nothing
    | fault fault => cases (pieces_of_fault starts).symm.trans cut
    | piece first rest =>
      obtain ⟨others, below, rfl⟩ := (pieces_eq_ok_iff starts).1 cut
      exact piece starts (hypothesis rest.length (length ▸ length_lt_of_start starts) below rfl)

/-- The sources of its pieces, joined, are the text. -/
theorem flatMap_source {text : List Char} {found : List Piece} (cut : pieces text = .ok found) :
    found.flatMap Piece.source = text := by
  refine pieces_induction (motive := fun text found => found.flatMap Piece.source = text) rfl ?_ cut
  intro text rest piece others starts joined
  rw [start_source starts, ← joined]
  unfold Piece.cons
  split
  · simp only [List.flatMap_cons, Piece.source, List.append_assoc]
  · rw [List.flatMap_cons]

/-- No text stands right behind another one. -/
def Apart : List Piece → Prop
  | .text _ :: .text _ :: _ => False
  | _ :: pieces => Apart pieces
  | [] => True

theorem Apart.tail {piece : Piece} {pieces : List Piece} (apart : Apart (piece :: pieces)) : Apart pieces := by
  unfold Apart at apart
  split at apart
  · exact apart.elim
  · next same => exact (List.cons.inj same).2 ▸ apart
  · next same => cases same

theorem Apart.cons {others : List Piece} (apart : Apart others) (piece : Piece) : Apart (piece.cons others) := by
  cases piece with
  | code placeholder => exact apart
  | text source =>
    match others, apart with
    | [], _ => exact trivial
    | .code _ :: _, apart => exact apart
    | [.text _], _ => exact trivial
    | .text _ :: .code _ :: _, apart => exact apart

theorem apart_of_pieces {text : List Char} {found : List Piece} (cut : pieces text = .ok found) : Apart found :=
  pieces_induction (motive := fun _ found => Apart found) trivial (fun _ apart => apart.cons _) cut

end Placeholder

namespace Template

open StandIn

variable {sources : List (List Char)} {pieces : List Piece}

/-- Hidden pieces are restored if and only if no text among them is mistaken for a stand-in. -/
theorem restore_hide (number : Nat) (position : Position) (dollars : ∀ source ∈ sources, source.head? = some '$')
    (apart : Placeholder.Apart pieces)
    (known : sources.drop number = (sites position pieces).map fun site => site.placeholder.source) :
    StandIn.restore sources (hide number pieces) = pieces.flatMap Piece.source ↔
      Unmistakable sources.length pieces := by
  induction pieces generalizing position number with
  | nil => simp only [hide, restore_nil, List.flatMap_nil, Unmistakable]
  | cons piece pieces hypothesis =>
    cases piece with
    | code placeholder =>
      have there : sources[number]? = some placeholder.source := by
        rw [← Nat.add_zero number, ← List.getElem?_drop, known]
        rfl
      have later : sources.drop (number + 1) = (sites (position.advance placeholder.source) pieces).map
          fun site => site.placeholder.source := by
        rw [← List.drop_drop, known]
        rfl
      rw [hide, List.flatMap_cons, Unmistakable]
      rcases restore_cases sources (read?_ofNumber number (hide (number + 1) pieces)) with
        ⟨other, source, same, found, replaced⟩ | ⟨unknown, -⟩
      · rw [Text.number?_toString] at same
        obtain rfl := Option.some.inj same
        obtain rfl := Option.some.inj (there.symm.trans found)
        rw [replaced, Piece.source, List.append_cancel_left_eq]
        exact hypothesis _ _ apart.tail later
      · have within := (List.getElem?_eq_some_iff.1 there).1
        exact absurd (unknown number (Text.number?_toString number)) (Nat.not_le.2 within)
    | text source =>
      have ends : if (!pieces.isEmpty) = true then
          opening <+: hide number pieces ∧ (pieces.flatMap Piece.source).head? = some '$'
          else hide number pieces = [] ∧ pieces.flatMap Piece.source = [] := by
        cases pieces with
        | nil => exact ⟨rfl, rfl⟩
        | cons next pieces =>
          cases next with
          | text => exact apart.elim
          | code placeholder =>
            have member : placeholder.source ∈ sources := by
              refine List.mem_of_mem_drop (i := number) ?_
              rw [known]
              exact List.mem_cons_self
            obtain ⟨rest, starts⟩ := List.head?_eq_some_iff.1 (dollars _ member)
            constructor
            · rw [hide, ofNumber, List.append_assoc, List.append_assoc]
              exact List.prefix_append _ _
            · rw [List.flatMap_cons, Piece.source, starts]
              rfl
      rw [hide, List.flatMap_cons, Unmistakable, Piece.source, restore_text_iff dollars ends,
        hypothesis _ _ apart.tail known]

/-- The text that is left for markup, with the placeholders put back. -/
def restored (pieces : List Piece) : String :=
  let plan : Plan := { sites := sites .first pieces, rootless := false }
  plan.restore (String.ofList (hide 0 pieces))

/-- A source in which placeholders were replaced by stand-ins is restored, character for character, if and only if
no text in it is mistaken for a stand-in. -/
theorem restored_eq_iff {source : String} {pieces : List Piece} (cut : Placeholder.pieces source.toList = .ok pieces) :
    restored pieces = source ↔ Unmistakable (sites .first pieces).length pieces := by
  have dollars : ∀ other ∈ (sites .first pieces).map (fun site => site.placeholder.source), other.head? = some '$' := by
    intro other member
    obtain ⟨site, present, rfl⟩ := List.mem_map.1 member
    exact Placeholder.head?_source (Placeholder.start_of_mem_pieces cut (code_mem_of_mem_sites present) [])
  have same := restore_hide 0 .first dollars (Placeholder.apart_of_pieces cut) rfl
  rw [Placeholder.flatMap_source cut, List.length_map] at same
  rw [← same, restored, Plan.restore, String.toList_ofList]
  exact ⟨fun equal => by rw [← equal, String.toList_ofList], fun equal => by rw [equal, String.ofList_toList]⟩

/-- Text may look like a stand-in, as long as its number is not that of a placeholder. -/
theorem restored_eq_seven :
    ∃ pieces, Placeholder.pieces "__tpl_expr_7__ $\x7bname\x7d".toList = .ok pieces ∧
      restored pieces = "__tpl_expr_7__ $\x7bname\x7d" := by
  have cut : (Placeholder.pieces "__tpl_expr_7__ $\x7bname\x7d".toList).toOption =
      some [.text "__tpl_expr_7__ ".toList, .code { source := "$\x7bname\x7d".toList, code := "name", escape := true }] := by
    decide +kernel
  cases found : Placeholder.pieces "__tpl_expr_7__ $\x7bname\x7d".toList with
  | error failed =>
    rw [found] at cut
    cases cut
  | ok pieces =>
    rw [found] at cut
    refine ⟨pieces, rfl, (restored_eq_iff found).2 ?_⟩
    obtain rfl := Option.some.inj cut
    have space : Inert 1 true [' '] := by
      refine .cons (by decide) ?_ .nil
      rintro - ⟨digits, -, -, same | same⟩
      · exact absurd (List.cons.inj same).1 (by decide)
      · exact absurd (List.cons.inj same).1 (by decide)
    have seven : read? "__tpl_expr_7__ ".toList = some (['7'], [' ']) := by decide
    refine ⟨.standIn seven ?_ space, trivial⟩
    intro number numbered
    obtain rfl := Option.some.inj numbered
    decide

/-- Text that looks like the stand-in for a placeholder becomes that placeholder. -/
theorem restored_ne_zero :
    ∃ pieces, Placeholder.pieces "__tpl_expr_0__ $\x7bname\x7d".toList = .ok pieces ∧
      restored pieces = "$\x7bname\x7d $\x7bname\x7d" := by
  have made : (Placeholder.pieces "__tpl_expr_0__ $\x7bname\x7d".toList).toOption.map restored =
      some "$\x7bname\x7d $\x7bname\x7d" := by
    decide +kernel
  cases found : Placeholder.pieces "__tpl_expr_0__ $\x7bname\x7d".toList with
  | error failed =>
    rw [found] at made
    cases made
  | ok pieces =>
    rw [found] at made
    exact ⟨pieces, rfl, Option.some.inj made⟩

end Template

end HtmlTemplate
