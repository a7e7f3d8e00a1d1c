import HtmlTemplate.Proofs.Placement.Marking
import HtmlTemplate.Proofs.Placement.Origin
import HtmlTemplate.Proofs.Placement.Scanning

/-!
# Ranges of placeholders

The offsets that a search of bytes finds are those of whole placeholders, one behind the other. What works on bytes at
these offsets works on characters: a source is cut there into its pieces, and with placeholders left blank it is a text
that has the same lines.
-/

namespace HtmlTemplate

open Text (bytes)

namespace Placeholder

variable {escape : Bool} {front rest text source : List Char} {placeholder : Placeholder} {fault : PieceFault}

/-! ## Offsets of whole placeholders -/

/-- The offsets are those of a placeholder in the text: of its mark, of what is inside and of its brace. No backslash is
before it. -/
def Span.Fits (text : List Char) (span : Span) : Prop :=
  ∃ before inside after, text = before ++ (mark span.escape ++ inside ++ ['\x7d'] ++ after) ∧
    span.start = (bytes before).length ∧
    span.stop = (bytes (before ++ (mark span.escape ++ inside ++ ['\x7d']))).length ∧
    span.code = String.ofList (Text.trim inside) ∧ span.code ≠ "" ∧ before.getLast? ≠ some '\\'

theorem Span.Fits.start_lt_stop {span : Span} (fits : span.Fits text) : span.start < span.stop := by
  obtain ⟨before, inside, after, -, start, stop, -⟩ := fits
  have brace : (bytes ['\x7d']).length = 1 := by decide
  rw [start, stop]
  simp only [Text.bytes_append, List.length_append, brace]
  omega

/-- The text goes on in a way that a backslash before it does not hide a dollar. -/
def Unhidden (front text : List Char) : Prop :=
  front.getLast? = some '\\' → text.head? ≠ some '$'

theorem unhidden_nil (text : List Char) : Unhidden [] text := by
  intro backslash
  cases backslash

theorem Unhidden.ne_backslash (unhidden : Unhidden front (mark escape ++ rest)) : front.getLast? ≠ some '\\' := by
  intro backslash
  refine unhidden backslash ?_
  cases escape <;> rfl

/-- No dollar is hidden behind a piece. -/
theorem unhidden_start {piece : Piece} (starts : start text = .piece piece rest) (front : List Char) :
    Unhidden (front ++ piece.source) rest := by
  intro backslash
  cases piece with
  | text source =>
      obtain ⟨-, rfl | ⟨c, rfl, unescaped⟩⟩ := start_text_cases starts
      · simp [Piece.source] at backslash
      · refine unescaped ?_
        simpa [Piece.source] using backslash
  | code placeholder =>
      obtain ⟨inside, -, -, source, -⟩ := start_code_cases starts
      rw [Piece.source, source] at backslash
      simp at backslash

theorem fits_of_mem_spans {found : List Piece} {span : Span} (cut : pieces text = .ok found)
    (unhidden : Unhidden front text) (member : span ∈ spans (bytes front).length found) :
    span.Fits (front ++ text) := by
  refine pieces_induction (motive := fun text found => ∀ front, Unhidden front text →
    ∀ span ∈ spans (bytes front).length found, span.Fits (front ++ text)) ?_ ?_ cut front unhidden span member
  · exact fun _ _ _ none => absurd none List.not_mem_nil
  · intro text rest piece others starts hypothesis front unhidden span member
    have further := hypothesis (front ++ piece.source) (unhidden_start starts front)
    rw [Text.bytes_append, List.length_append, List.append_assoc, ← start_source starts] at further
    rw [spans_cons] at member
    cases piece with
    | text source => exact further span member
    | code placeholder =>
        rcases List.mem_cons.1 member with rfl | later
        · obtain ⟨inside, rfl, -, source, code, full⟩ := start_code_cases starts
          refine ⟨front, inside, rest, ?_, rfl, ?_, code, full, unhidden.ne_backslash⟩
          · simp
          · rw [Text.bytes_append, List.length_append, ← source]
        · exact further span later

theorem le_start_of_mem_spans {offset : Nat} {pieces : List Piece} {span : Span} (member : span ∈ spans offset pieces) :
    offset ≤ span.start := by
  induction pieces generalizing offset with
  | nil => cases member
  | cons piece pieces hypothesis =>
      cases piece with
      | text source => exact Nat.le_trans (Nat.le_add_right _ _) (hypothesis member)
      | code placeholder =>
          rcases List.mem_cons.1 member with rfl | later
          · exact Nat.le_refl _
          · exact Nat.le_trans (Nat.le_add_right _ _) (hypothesis later)

/-- Placeholders do not overlap. -/
theorem pairwise_spans (offset : Nat) (pieces : List Piece) :
    (spans offset pieces).Pairwise fun first second => first.stop ≤ second.start := by
  induction pieces generalizing offset with
  | nil => exact .nil
  | cons piece pieces hypothesis =>
      cases piece with
      | text source => exact hypothesis _
      | code placeholder => exact .cons (fun later member => le_start_of_mem_spans member) (hypothesis _)

/-- Scanning fails at a dollar that opens what is no placeholder. -/
theorem fails_of_pieces {before : List Char} (stops : pieces text = .error (fault, before))
    (unhidden : Unhidden front text) : ∃ escape behind, text = before ++ (mark escape ++ behind) ∧
      Fails fault behind ∧ (front ++ before).getLast? ≠ some '\\' := by
  induction length : text.length using Nat.strongRecOn generalizing front text before with
  | ind length hypothesis =>
      cases starts : start text with
      | nothing => cases (pieces_of_nothing starts).symm.trans stops
      | fault other =>
          cases (pieces_of_fault starts).symm.trans stops
          obtain ⟨escape, behind, rfl, fails⟩ := start_fault_cases starts
          refine ⟨escape, behind, rfl, fails, ?_⟩
          rw [List.append_nil]
          exact unhidden.ne_backslash
      | piece piece rest =>
          rw [pieces_of_piece starts] at stops
          split at stops
          · cases stops
          · next other passed failed =>
              cases stops
              obtain ⟨escape, behind, cut, fails, last⟩ := hypothesis rest.length
                (length ▸ length_lt_of_start starts) failed (unhidden_start starts front) rfl
              refine ⟨escape, behind, ?_, fails, ?_⟩
              · rw [List.append_assoc, ← cut]
                exact start_source starts
              · rwa [List.append_assoc] at last

/-! ## Placeholders left blank -/

/-- The byte that is left of one in a placeholder. -/
def blankByte (byte : UInt8) : UInt8 :=
  if byte = '\n'.toUInt8 then byte else ' '.toUInt8

/-- The bytes with those from one offset up to another one left blank. -/
def blank (first last : Nat) (bytes : List UInt8) : List UInt8 :=
  bytes.mapIdx fun offset byte => if first ≤ offset ∧ offset < last then blankByte byte else byte

/-- The bytes in lower case, with those of placeholders left blank. -/
def masked (bytes : List UInt8) (spans : List Span) : List UInt8 :=
  spans.foldl (fun bytes span => blank span.start span.stop bytes) (bytes.map Text.lowerByte)

theorem length_masked (bytes : List UInt8) (spans : List Span) : (masked bytes spans).length = bytes.length := by
  have start : (bytes.map Text.lowerByte).length = bytes.length := List.length_map _
  unfold masked
  rw [← start]
  clear start
  generalize bytes.map Text.lowerByte = lowered
  induction spans generalizing lowered with
  | nil => rfl
  | cons span spans hypothesis =>
      rw [List.foldl_cons, hypothesis]
      exact List.length_mapIdx

theorem blankByte_eq_lineFeed_iff (byte : UInt8) : blankByte byte = '\n'.toUInt8 ↔ byte = '\n'.toUInt8 := by
  unfold blankByte
  split
  · rfl
  · next other => exact iff_of_false (by decide) other

theorem getElem?_blank_eq_lineFeed_iff (first last : Nat) (bytes : List UInt8) (offset : Nat) :
    (blank first last bytes)[offset]? = some '\n'.toUInt8 ↔ bytes[offset]? = some '\n'.toUInt8 := by
  rw [blank, List.getElem?_mapIdx]
  cases bytes[offset]? with
  | none => rfl
  | some byte =>
      rw [Option.map_some, Option.some.injEq, Option.some.injEq]
      split
      · exact blankByte_eq_lineFeed_iff byte
      · rfl

/-- Lines end where they did. -/
theorem getElem?_masked_eq_lineFeed_iff (bytes : List UInt8) (spans : List Span) (offset : Nat) :
    (masked bytes spans)[offset]? = some '\n'.toUInt8 ↔ bytes[offset]? = some '\n'.toUInt8 := by
  have start : (bytes.map Text.lowerByte)[offset]? = some '\n'.toUInt8 ↔ bytes[offset]? = some '\n'.toUInt8 := by
    simp only [List.getElem?_map, Option.map_eq_some_iff, Text.lowerByte_eq_lineFeed_iff, exists_eq_right]
  unfold masked
  rw [← start]
  clear start
  generalize bytes.map Text.lowerByte = lowered
  induction spans generalizing lowered with
  | nil => rfl
  | cons span spans hypothesis =>
      rw [List.foldl_cons]
      exact (hypothesis _).trans (getElem?_blank_eq_lineFeed_iff _ _ _ _)

/-- What is left of a character in a placeholder, as wide as it is. -/
def blankCharacter (c : Char) : List Char :=
  if c = '\n' then ['\n'] else List.replicate c.utf8Size ' '

/-- The characters that are left of a piece. -/
def maskedCharacters : Piece → List Char
  | .text source => source.map Char.toLower
  | .code placeholder => placeholder.source.flatMap blankCharacter

theorem blank_append (front middle back : List UInt8) :
    blank front.length (front.length + middle.length) (front ++ (middle ++ back)) =
      front ++ (middle.map blankByte ++ back) := by
  refine List.ext_getElem? fun offset => ?_
  rw [blank, List.getElem?_mapIdx]
  by_cases early : offset < front.length
  · rw [List.getElem?_append_left early, List.getElem?_append_left early]
    have outside : ¬(front.length ≤ offset ∧ offset < front.length + middle.length) := by omega
    simp only [if_neg outside, Option.map_id']
  · obtain ⟨more, rfl⟩ := Nat.exists_eq_add_of_le (Nat.le_of_not_lt early)
    rw [getElem?_behind, getElem?_behind]
    by_cases inside : more < middle.length
    · rw [List.getElem?_append_left inside, List.getElem?_append_left (by rwa [List.length_map]), List.getElem?_map]
      have within : front.length ≤ front.length + more ∧ front.length + more < front.length + middle.length := by omega
      simp only [if_pos within]
    · have outside : ¬(front.length ≤ front.length + more ∧ front.length + more < front.length + middle.length) := by
        omega
      simp only [if_neg outside, Option.map_id']
      rw [List.getElem?_append_right (by omega), List.getElem?_append_right (by rw [List.length_map]; omega),
        List.length_map]

theorem bytes_spaces (width : Nat) : bytes (List.replicate width ' ') = List.replicate width ' '.toUInt8 := by
  induction width with
  | zero => rfl
  | succ width hypothesis =>
      rw [List.replicate_succ, Text.bytes_cons_of_ascii (by decide), hypothesis, List.replicate_succ]

theorem ne_lineFeed_of_mem_encode {c : Char} {byte : UInt8} (other : c ≠ '\n')
    (member : byte ∈ String.utf8EncodeChar c) : byte ≠ '\n'.toUInt8 := by
  rcases Text.encode_cases c with ⟨ascii, written⟩ | ⟨-, high⟩
  · rw [written, List.mem_singleton] at member
    rw [member]
    exact mt (Text.toUInt8_inj ascii (by decide)).1 other
  · exact Text.ne_of_high (high byte member) (by decide)

theorem map_blankByte_encode (c : Char) :
    ((String.utf8EncodeChar c).map Text.lowerByte).map blankByte = bytes (blankCharacter c) := by
  unfold blankCharacter
  split
  · next lineFeed =>
      subst lineFeed
      decide
  · next other =>
      have blanks : ∀ byte ∈ String.utf8EncodeChar c, (blankByte ∘ Text.lowerByte) byte = ' '.toUInt8 :=
        fun byte member => if_neg (mt (Text.lowerByte_eq_lineFeed_iff byte).1 (ne_lineFeed_of_mem_encode other member))
      rw [List.map_map, List.map_congr_left blanks, List.map_const', String.length_utf8EncodeChar, bytes_spaces]

theorem map_blankByte (text : List Char) :
    ((bytes text).map Text.lowerByte).map blankByte = bytes (text.flatMap blankCharacter) := by
  induction text with
  | nil => rfl
  | cons c text hypothesis =>
      rw [Text.bytes_cons, List.map_append, List.map_append, hypothesis, map_blankByte_encode, List.flatMap_cons,
        Text.bytes_append]

/-- What is left of the bytes of pieces are the bytes of what is left of the pieces. The induction goes along the
pieces, with what is left of those before in front. -/
theorem foldl_blank (front : List UInt8) (pieces : List Piece) :
    (spans front.length pieces).foldl (fun bytes span => blank span.start span.stop bytes)
      (front ++ (bytes (pieces.flatMap Piece.source)).map Text.lowerByte) =
      front ++ bytes (pieces.flatMap maskedCharacters) := by
  induction pieces generalizing front with
  | nil => rfl
  | cons piece pieces hypothesis =>
      rw [List.flatMap_cons, List.flatMap_cons, Text.bytes_append, Text.bytes_append, List.map_append]
      cases piece with
      | text source =>
          have further := hypothesis (front ++ bytes (source.map Char.toLower))
          have long : (bytes (source.map Char.toLower)).length = (bytes source).length := by
            rw [← Text.bytes_toLower, List.length_map]
          rw [List.length_append, long, List.append_assoc, List.append_assoc] at further
          rw [Piece.source, Text.bytes_toLower]
          exact further
      | code placeholder =>
          have further := hypothesis (front ++ bytes (placeholder.source.flatMap blankCharacter))
          have long : (bytes (placeholder.source.flatMap blankCharacter)).length =
              (bytes placeholder.source).length := by
            rw [← map_blankByte, List.length_map, List.length_map]
          rw [List.length_append, long, List.append_assoc, List.append_assoc] at further
          have own := blank_append front ((bytes placeholder.source).map Text.lowerByte)
            ((bytes (pieces.flatMap Piece.source)).map Text.lowerByte)
          rw [List.length_map, map_blankByte] at own
          rw [spans, List.foldl_cons, Piece.source, own]
          exact further

theorem masked_bytes (pieces : List Piece) :
    masked (bytes (pieces.flatMap Piece.source)) (spans 0 pieces) = bytes (pieces.flatMap maskedCharacters) :=
  foldl_blank [] pieces

/-- A character as it is looked for, as wide as it is in the source. -/
def widened (c looked : Char) : List Char :=
  if c = '\n' then ['\n'] else if looked = ' ' then List.replicate c.utf8Size ' ' else [looked]

theorem eq_space_of_toLower {c : Char} (space : c.toLower = ' ') : c = ' ' := by
  by_cases ascii : c.toNat < 128
  · have each : ∀ n < 128, (Char.ofNat n).toLower = ' ' → Char.ofNat n = ' ' := by decide
    exact Text.forall_ascii (motive := fun c => c.toLower = ' ' → c = ' ') each ascii space
  · rwa [Text.toLower_eq_self (Nat.le_of_not_lt ascii)] at space

theorem widened_toLower (c : Char) : widened c c.toLower = [c.toLower] := by
  unfold widened
  split
  · next lineFeed =>
      subst lineFeed
      rfl
  · split
    · next space =>
        obtain rfl := eq_space_of_toLower space
        rfl
    · rfl

/-- The characters of a source as they are looked for. -/
def overlaid (source looked : List Char) : List Char :=
  (source.zip looked).flatMap fun pair => widened pair.1 pair.2

theorem overlaid_append {source looked : List Char} (same : source.length = looked.length) (others more : List Char) :
    overlaid (source ++ others) (looked ++ more) = overlaid source looked ++ overlaid others more := by
  rw [overlaid, List.zip_append same, List.flatMap_append]
  rfl

theorem overlaid_cons (c looked : Char) (source others : List Char) :
    overlaid (c :: source) (looked :: others) = widened c looked ++ overlaid source others :=
  rfl

theorem overlaid_toLower (source : List Char) :
    overlaid source (source.map Char.toLower) = source.map Char.toLower := by
  induction source with
  | nil => rfl
  | cons c source hypothesis =>
      rw [List.map_cons, overlaid_cons, hypothesis, widened_toLower]
      rfl

theorem overlaid_blank (source : List Char) :
    overlaid source (source.map fun _ => ' ') = source.flatMap blankCharacter := by
  induction source with
  | nil => rfl
  | cons c source hypothesis =>
      rw [List.map_cons, overlaid_cons, hypothesis, List.flatMap_cons]
      rfl

/-- Tags are looked for among the characters that are left, with one character for each one of the source. -/
theorem masked_tagMarks (position : Position) (pieces : List Piece) :
    pieces.flatMap maskedCharacters =
      overlaid (pieces.flatMap Piece.source) ((Template.tagMarks position pieces).map Template.Mark.character) := by
  induction pieces generalizing position with
  | nil => rfl
  | cons piece pieces hypothesis =>
      cases piece with
      | text source =>
          have lowered : ((Template.marks position source).map fun mark =>
              { mark with character := mark.character.toLower }).map Template.Mark.character =
              source.map Char.toLower := by
            conv_rhs => rw [← Template.map_marks position source]
            rw [List.map_map, List.map_map]
            rfl
          rw [Template.tagMarks, List.map_append, lowered, List.flatMap_cons, List.flatMap_cons, Piece.source,
            overlaid_append (List.length_map _).symm, overlaid_toLower, ← hypothesis]
          rfl
      | code placeholder =>
          have blanked : ((Template.marks position placeholder.source).map fun mark =>
              { mark with character := ' ' }).map Template.Mark.character = placeholder.source.map fun _ => ' ' := by
            conv_rhs => rw [← Template.map_marks position placeholder.source]
            rw [List.map_map, List.map_map]
            rfl
          rw [Template.tagMarks, List.map_append, blanked, List.flatMap_cons, List.flatMap_cons, Piece.source,
            overlaid_append (List.length_map _).symm, overlaid_blank, ← hypothesis]
          rfl

/-! ## Values are cut at the ranges -/

/-- The pieces that a text is cut into at the placeholders from an offset on, if all slices are of whole characters. -/
def cut? (bytes : List UInt8) (last : Nat) : List Span → Option (List Piece)
  | [] => if last < bytes.length then (Text.slice? bytes last bytes.length).map ([.text ·]) else some []
  | span :: spans => do
      let source ← Text.slice? bytes span.start span.stop
      let others ← cut? bytes span.stop spans
      let code := .code { source, code := span.code, escape := span.escape } :: others
      if last < span.start then (Text.slice? bytes last span.start).map (.text · :: code) else some code

/-- A placeholder is cut out of a text, if the text behind it comes apart. -/
theorem cut?_code {pieces : List Piece} (offset : Nat) (front behind : List Char) (placeholder : Placeholder)
    (others : cut? (bytes (front ++ (placeholder.source ++ behind))) (bytes (front ++ placeholder.source)).length
      (spans (bytes (front ++ placeholder.source)).length pieces) = some pieces) :
    cut? (bytes (front ++ (placeholder.source ++ behind))) offset
        (spans (bytes front).length (.code placeholder :: pieces)) =
      if offset < (bytes front).length then
        (Text.slice? (bytes (front ++ (placeholder.source ++ behind))) offset (bytes front).length).map
          (.text · :: .code placeholder :: pieces)
      else some (.code placeholder :: pieces) := by
  have own := Text.slice?_bytes front placeholder.source behind
  rw [Text.bytes_append front placeholder.source, List.length_append] at own others
  rw [spans, cut?]
  dsimp only
  rw [own, others]
  rfl

/-- The text that is cut at the placeholders among pieces comes apart into these pieces. -/
theorem cut?_spans (front : List Char) : ∀ pieces : List Piece, Apart pieces →
    (∀ source, .text source ∈ pieces → source ≠ []) →
    cut? (bytes (front ++ pieces.flatMap Piece.source)) (bytes front).length (spans (bytes front).length pieces) =
      some pieces
  | [], _, _ => by
      rw [List.flatMap_nil, List.append_nil, spans, cut?, if_neg (Nat.lt_irrefl _)]
  | .code placeholder :: pieces, apart, full => by
      have others := cut?_spans (front ++ placeholder.source) pieces apart fun source member =>
        full source (List.mem_cons_of_mem _ member)
      rw [List.append_assoc] at others
      rw [List.flatMap_cons, Piece.source, cut?_code _ front _ placeholder others, if_neg (Nat.lt_irrefl _)]
  | [.text source], _, full => by
      have positive := Text.length_bytes_pos (full source List.mem_cons_self)
      have own := Text.slice?_bytes front source []
      rw [List.append_nil] at own
      rw [List.flatMap_singleton, Piece.source, spans, spans, cut?, own, Text.bytes_append, List.length_append,
        if_pos (Nat.lt_add_of_pos_right positive)]
      rfl
  | .text source :: .code placeholder :: pieces, apart, full => by
      have positive := Text.length_bytes_pos (full source List.mem_cons_self)
      have others := cut?_spans (front ++ source ++ placeholder.source) pieces apart fun source member =>
        full source (List.mem_cons_of_mem _ (List.mem_cons_of_mem _ member))
      have before := Text.slice?_bytes front source (placeholder.source ++ pieces.flatMap Piece.source)
      rw [List.append_assoc (front ++ source)] at others
      have code := cut?_code (bytes front).length (front ++ source) _ placeholder others
      rw [← List.append_assoc] at before
      rw [before, Text.bytes_append front source, List.length_append, if_pos (Nat.lt_add_of_pos_right positive)] at code
      rw [List.flatMap_cons, List.flatMap_cons, Piece.source, Piece.source, ← List.append_assoc, spans]
      exact code

theorem cut?_of_pieces {found : List Piece} (cut : pieces text = .ok found) :
    cut? (bytes text) 0 (spans 0 found) = some found := by
  have joined := cut?_spans [] found (apart_of_pieces cut) fun _ => ne_nil_of_mem_pieces cut
  rwa [List.nil_append, flatMap_source cut] at joined

end Placeholder

namespace Value

/-- What a piece of a source is read as. -/
inductive Reads : Piece → Segment → Prop
  | static (source : List Char) : Reads (.text source) (.static (String.ofList (Placeholder.unescape source)))
  | code (placeholder : Placeholder) : Reads (.code placeholder) (.code placeholder.code placeholder.escape)

variable {pieces : List Piece} {segments : List Segment}

/-- Each piece is read as one segment. -/
theorem reads_of_segmentsOf (read : segmentsOf pieces = .ok segments) : List.Forall₂ Reads pieces segments := by
  induction pieces generalizing segments with
  | nil =>
      cases read
      exact .nil
  | cons piece pieces hypothesis =>
      cases piece with
      | text source =>
          rw [segmentsOf] at read
          split at read
          · next others rest =>
              cases read
              exact .cons (.static source) (hypothesis rest)
          · cases read
      | code placeholder =>
          rw [segmentsOf] at read
          split at read
          · cases read
          · split at read
            · next others rest =>
                cases read
                exact .cons (.code placeholder) (hypothesis rest)
            · cases read

/-- Plain text does not vanish with the backslashes of its dollars. -/
theorem unescape_ne_nil {source : List Char} (full : source ≠ []) : Placeholder.unescape source ≠ [] := by
  fun_cases Placeholder.unescape source with
  | case4 => exact absurd rfl full
  | _ => exact List.cons_ne_nil _ _

theorem static_ne_empty (reads : List.Forall₂ Reads pieces segments)
    (full : ∀ source, .text source ∈ pieces → source ≠ []) : .static "" ∉ segments := by
  intro member
  induction reads with
  | nil => cases member
  | cons first others hypothesis =>
      rcases List.mem_cons.1 member with same | later
      · cases first with
        | static source =>
            have empty : (String.ofList (Placeholder.unescape source)).toList = [] :=
              congrArg String.toList (Segment.static.inj same).symm
            rw [String.toList_ofList] at empty
            exact unescape_ne_nil (full source List.mem_cons_self) empty
        | code placeholder => cases same
      · exact hypothesis (fun source among => full source (List.mem_cons_of_mem _ among)) later

/-- No plain text stands behind another one. -/
theorem isChain_of_reads (reads : List.Forall₂ Reads pieces segments) (apart : Placeholder.Apart pieces) :
    segments.IsChain fun first second => (staticPart? first).isSome → staticPart? second = none := by
  induction reads with
  | nil => exact .nil
  | cons first others hypothesis =>
      have behind := hypothesis apart.tail
      cases others with
      | nil => exact .singleton _
      | cons second more =>
          refine .cons_cons ?_ behind
          cases first with
          | code placeholder => exact fun some => absurd some Bool.false_ne_true
          | static source =>
              cases second with
              | code placeholder => exact fun _ => rfl
              | static next => exact absurd apart id

end Value

namespace Placeholder

/-- Where code is none, the offset of its placeholder is known. -/
theorem exists_span_of_segmentsOf {found : List Piece} {fault : ValueFault} {before : List Char} (offset : Nat)
    (fails : Value.segmentsOf found = .error (fault, before)) :
    ∃ span ∈ spans offset found, span.start = offset + (bytes before).length ∧
      ∃ own, Code.check span.code = .error own ∧ fault = .code own := by
  induction found generalizing offset before with
  | nil => cases fails
  | cons piece found hypothesis =>
      cases piece with
      | text source =>
          rw [Value.segmentsOf] at fails
          split at fails
          · cases fails
          · next other passed rest =>
              cases fails
              obtain ⟨span, member, start, wrong⟩ := hypothesis (offset + (bytes source).length) rest
              refine ⟨span, member, ?_, wrong⟩
              rw [start, Text.bytes_append, List.length_append, Nat.add_assoc]
      | code placeholder =>
          rw [Value.segmentsOf] at fails
          split at fails
          · next own wrong =>
              cases fails
              exact ⟨_, List.mem_cons_self, rfl, own, wrong, rfl⟩
          · split at fails
            · cases fails
            · next other passed rest =>
                cases fails
                obtain ⟨span, member, start, wrong⟩ := hypothesis (offset + (bytes placeholder.source).length) rest
                refine ⟨span, List.mem_cons_of_mem _ member, ?_, wrong⟩
                rw [start, Text.bytes_append, List.length_append, Nat.add_assoc]

/-- The offsets of placeholders in a text, and the pieces that it is cut into there. -/
structure Scanned (raw : String) (found : List Span) (parts : List Piece) : Prop where
  increasing : found.Pairwise fun first second => first.start < second.start ∧ first.stop ≤ second.start
  fits : ∀ span ∈ found, span.Fits raw.toList
  cut : cut? (bytes raw.toList) 0 found = some parts
  joined : parts.flatMap Piece.source = raw.toList
  /-- What tags are looked for in is a text. -/
  masked : Text.decode? (masked (bytes raw.toList) found) =
    some (overlaid raw.toList ((Template.tagMarks .first parts).map Template.Mark.character))
  long : (Placeholder.masked (bytes raw.toList) found).length = (bytes raw.toList).length
  lines : ∀ offset : Nat, (Placeholder.masked (bytes raw.toList) found)[offset]? = some '\n'.toUInt8 ↔
    (bytes raw.toList)[offset]? = some '\n'.toUInt8

theorem scanned_of_pieces {raw : String} {parts : List Piece} (cut : pieces raw.toList = .ok parts) :
    Scanned raw (spans 0 parts) parts where
  increasing := by
    refine (pairwise_spans 0 parts).imp_of_mem fun first _ before => ⟨?_, before⟩
    exact Nat.lt_of_lt_of_le (fits_of_mem_spans cut (unhidden_nil _) first).start_lt_stop before
  fits _ := fits_of_mem_spans cut (unhidden_nil _)
  cut := cut?_of_pieces cut
  joined := flatMap_source cut
  masked := by
    have own := masked_bytes parts
    rw [flatMap_source cut] at own
    rw [own, Text.decode?_bytes, masked_tagMarks .first parts, flatMap_source cut]
  long := length_masked _ _
  lines := getElem?_masked_eq_lineFeed_iff _ _

/-- Scanning the bytes of a text either finds all placeholders or stops at a dollar that opens none, and no slice is of
broken characters. A value is read at the offsets that are found: its plain parts are not empty and do not meet, and
code that is none is that of a placeholder. -/
theorem scan_cases (raw : String) :
    match scan raw with
    | .ok found => ∃ parts, pieces raw.toList = .ok parts ∧ Scanned raw found parts ∧
        match Value.parse raw with
        | .ok value => List.Forall₂ Value.Reads parts value.segments ∧ .static "" ∉ value.segments ∧
            value.segments.IsChain fun first second =>
              (Value.staticPart? first).isSome → Value.staticPart? second = none
        | .error (fault, before) => ∃ span ∈ found, span.start = (bytes before.toList).length ∧
            ∃ own, Code.check span.code = .error own ∧ fault = .code own
    | .error (.malformed fault offset) => ∃ before escape behind, raw.toList = before ++ (mark escape ++ behind) ∧
        before.getLast? ≠ some '\\' ∧ Fails fault behind ∧ offset = (bytes before).length ∧
        Value.parse raw = .error (.piece fault, String.ofList before)
    | .error .broken => False := by
  have agrees := scanFrom_bytes [] raw.toList
  change scan raw = _ at agrees
  cases read : pieces raw.toList with
  | error failure =>
      obtain ⟨fault, before⟩ := failure
      obtain ⟨escape, behind, cut, fails, last⟩ := fails_of_pieces read (unhidden_nil _)
      rw [agrees, read]
      refine ⟨before, escape, behind, cut, last, fails, Nat.zero_add _, ?_⟩
      rw [Value.parse, read]
  | ok parts =>
      rw [agrees, read]
      refine ⟨parts, rfl, scanned_of_pieces read, ?_⟩
      split
      · next value parsed =>
          obtain ⟨-, others, same, segments⟩ := Value.pieces_of_parse parsed
          cases read.symm.trans same
          have reads := Value.reads_of_segmentsOf segments
          exact ⟨reads, Value.static_ne_empty reads fun _ => ne_nil_of_mem_pieces read,
            Value.isChain_of_reads reads (apart_of_pieces read)⟩
      · next fault before parsed =>
          rw [Value.parse, read] at parsed
          dsimp only at parsed
          split at parsed
          · next own passed fails =>
              cases parsed
              rw [String.toList_ofList]
              obtain ⟨span, member, start, wrong⟩ := exists_span_of_segmentsOf 0 fails
              exact ⟨span, member, by rw [start, Nat.zero_add], wrong⟩
          · cases parsed

end Placeholder

end HtmlTemplate
