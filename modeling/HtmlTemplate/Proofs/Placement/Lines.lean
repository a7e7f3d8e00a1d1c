import HtmlTemplate.Proofs.Placement.Marking
import HtmlTemplate.Proofs.Placement.Scanning
import Mathlib.Data.List.DropRight

/-!
# Places from offsets

Where something stands can be told from its offset in bytes. The offsets at which lines start are kept in order, the
last one of them up to the offset is searched for by halving, and the characters from there on are counted. What is
found is where a reader of characters comes to, at each offset between characters.
-/

namespace HtmlTemplate

open Text (bytes)

/-! ## Places behind texts -/

namespace Position

theorem advance_append (position : Position) (front back : List Char) :
    position.advance (front ++ back) = (position.advance front).advance back :=
  List.foldl_append

/-- Lines are counted by line feeds, and columns by the characters behind the last one. -/
theorem advance_first (text : List Char) :
    first.advance text =
      { line := 1 + text.count '\n', column := 1 + (text.rtakeWhile (· != '\n')).length } := by
  induction text using List.reverseRecOn with
  | nil => rfl
  | append_singleton front c hypothesis =>
      rw [advance_append, hypothesis, List.count_append, List.rtakeWhile_concat]
      change after _ c = _
      by_cases feed : c = '\n'
      · subst feed
        rfl
      · simp [after, feed, Nat.add_assoc]

/-- A place is no further from the first one than there are characters between them. -/
theorem line_add_column_le (text : List Char) :
    (first.advance text).line + (first.advance text).column ≤ text.length + 2 := by
  have last : (text.rtakeWhile (· != '\n')).count '\n' = 0 :=
    List.count_eq_zero.2 fun member => by simpa using List.mem_rtakeWhile_imp member
  have whole : text.rdropWhile (· != '\n') ++ text.rtakeWhile (· != '\n') = text := List.rdropWhile_append_rtakeWhile
  have feeds := congrArg (List.count '\n') whole
  have lengths := congrArg List.length whole
  rw [List.count_append, last] at feeds
  rw [List.length_append] at lengths
  have fewer : (text.rdropWhile (· != '\n')).count '\n' ≤ (text.rdropWhile (· != '\n')).length := List.count_le_length
  rw [advance_first]
  dsimp only
  omega

end Position

/-! ## Offsets at which lines start -/

/-- The offsets at which lines start in a text behind its first line, if the text starts at an offset itself. -/
def laterStarts (offset : Nat) : List Char → List Nat
  | [] => []
  | c :: text =>
      if c = '\n' then (offset + 1) :: laterStarts (offset + 1) text else laterStarts (offset + c.utf8Size) text

section Starts

variable {offset start : Nat} {text : List Char}

theorem laterStarts_cons (offset : Nat) (c : Char) (text : List Char) :
    laterStarts offset (c :: text) =
      if c = '\n' then (offset + 1) :: laterStarts (offset + 1) text else laterStarts (offset + c.utf8Size) text :=
  rfl

theorem laterStarts_append (offset : Nat) (front back : List Char) :
    laterStarts offset (front ++ back) =
      laterStarts offset front ++ laterStarts (offset + (bytes front).length) back := by
  induction front generalizing offset with
  | nil => rfl
  | cons c front hypothesis =>
      rw [List.cons_append, laterStarts_cons, laterStarts_cons, Text.bytes_cons, List.length_append,
        String.length_utf8EncodeChar, hypothesis, hypothesis]
      split
      · next feed =>
          subst feed
          rw [List.cons_append, Nat.add_assoc]
          rfl
      · rw [Nat.add_assoc]

theorem length_laterStarts (offset : Nat) (text : List Char) : (laterStarts offset text).length = text.count '\n' := by
  induction text generalizing offset with
  | nil => rfl
  | cons c text hypothesis =>
      rw [laterStarts_cons, List.count_cons]
      split
      · next feed => simp [feed, hypothesis]
      · next other => simp [other, hypothesis]

theorem bounds_of_mem_laterStarts (member : start ∈ laterStarts offset text) :
    offset < start ∧ start ≤ offset + (bytes text).length := by
  induction text generalizing offset with
  | nil => exact absurd member List.not_mem_nil
  | cons c text hypothesis =>
      have positive := c.utf8Size_pos
      rw [Text.bytes_cons, List.length_append, String.length_utf8EncodeChar]
      rw [laterStarts_cons] at member
      split at member
      · rcases List.mem_cons.1 member with rfl | later
        · omega
        · have beyond := hypothesis later
          omega
      · have beyond := hypothesis member
        omega

theorem pairwise_starts (offset : Nat) (text : List Char) : (offset :: laterStarts offset text).Pairwise (· < ·) := by
  refine List.pairwise_cons.2 ⟨fun start member => (bounds_of_mem_laterStarts member).1, ?_⟩
  induction text generalizing offset with
  | nil => exact .nil
  | cons c text hypothesis =>
      rw [laterStarts_cons]
      split
      · exact List.pairwise_cons.2 ⟨fun start member => (bounds_of_mem_laterStarts member).1, hypothesis _⟩
      · exact hypothesis _

/-- The last line starts behind the last line feed. -/
theorem getLast?_starts (text : List Char) :
    (0 :: laterStarts 0 text).getLast? = some (bytes (text.rdropWhile (· != '\n'))).length := by
  induction text using List.reverseRecOn with
  | nil => rfl
  | append_singleton front c hypothesis =>
      rw [laterStarts_append, List.rdropWhile_concat]
      by_cases feed : c = '\n'
      · subst feed
        have last : laterStarts (0 + (bytes front).length) ['\n'] = [(bytes front).length + 1] := by
          rw [Nat.zero_add]
          rfl
        rw [last, ← List.cons_append, List.getLast?_concat, if_neg (by decide), Text.bytes_append, List.length_append]
        rfl
      · have none : laterStarts (0 + (bytes front).length) [c] = [] := if_neg feed
        rw [none, List.append_nil, hypothesis, if_pos (by simpa using feed)]

end Starts

/-- A text with the offsets at which its lines start. -/
structure LineIndex where
  source : List Char
  starts : Array Nat
  starts_eq : starts.toList = 0 :: laterStarts 0 source

namespace LineIndex

/-- Finds the lines of a text. -/
def ofSource (source : List Char) : LineIndex where
  source
  starts := (0 :: laterStarts 0 source).toArray
  starts_eq := rfl

/-- Searches offsets in order for one, from an index on and up to another one. An answer is where the offset is, and a
failure is where it would have to be put in. -/
def search (starts : Array Nat) (offset low high : Nat) (within : high ≤ starts.size) : Except Nat Nat :=
  if _more : low < high then
    let middle := low + (high - low) / 2
    have _inside : middle < starts.size := by omega
    if starts[middle] = offset then .ok middle
    else if starts[middle] < offset then search starts offset (middle + 1) high within
    else search starts offset low middle (by omega)
  else .error low
termination_by high - low

/-! ## What a search finds -/

section Search

variable {starts : Array Nat} {offset low high index : Nat}

/-- All that comes before an index is less than the offset, and all that comes from another one on is greater. -/
structure Encloses (starts : Array Nat) (offset low high : Nat) : Prop where
  ordered : low ≤ high
  within : high ≤ starts.size
  below : ∀ index start, index < low → starts[index]? = some start → start < offset
  above : ∀ index start, high ≤ index → starts[index]? = some start → offset < start

/-- What an answer of a search says. -/
def Found (starts : Array Nat) (offset : Nat) : Except Nat Nat → Prop
  | .ok index => starts[index]? = some offset
  | .error index => Encloses starts offset index index

theorem encloses_all (starts : Array Nat) (offset : Nat) : Encloses starts offset 0 starts.size where
  ordered := Nat.zero_le _
  within := Nat.le_refl _
  below _ _ none := absurd none (Nat.not_lt_zero _)
  above _ _ behind here := absurd (Array.getElem?_eq_some_iff.1 here).1 (Nat.not_lt_of_le behind)

theorem lt_of_pairwise (sorted : starts.toList.Pairwise (· < ·)) {first second : Nat} {start next : Nat}
    (before : first < second) (here : starts[first]? = some start) (there : starts[second]? = some next) :
    start < next := by
  obtain ⟨_, rfl⟩ := Array.getElem?_eq_some_iff.1 here
  obtain ⟨_, rfl⟩ := Array.getElem?_eq_some_iff.1 there
  exact List.pairwise_iff_getElem.1 sorted first second _ _ before

/-- A search goes on between indices that enclose the offset, until it finds the offset or the indices meet. -/
theorem found_search (sorted : starts.toList.Pairwise (· < ·)) (within : high ≤ starts.size)
    (encloses : Encloses starts offset low high) : Found starts offset (search starts offset low high within) := by
  fun_induction search starts offset low high within with
  | case1 low high within more middle inside same => exact Array.getElem?_eq_some_iff.2 ⟨inside, same⟩
  | case2 low high within more middle inside other less hypothesis =>
      refine hypothesis ⟨by omega, within, fun index start before here => ?_, encloses.above⟩
      have least : start ≤ starts[middle] := by
        rcases Nat.lt_or_eq_of_le (Nat.le_of_lt_succ before) with earlier | rfl
        · exact (lt_of_pairwise sorted earlier here (Array.getElem?_eq_getElem inside)).le
        · exact (Option.some.inj (here.symm.trans (Array.getElem?_eq_getElem inside))).le
      exact Nat.lt_of_le_of_lt least less
  | case3 low high within more middle inside other notLess hypothesis =>
      refine hypothesis ⟨by omega, by omega, encloses.below, fun index start later here => ?_⟩
      have greatest : starts[middle] ≤ start := by
        rcases Nat.lt_or_eq_of_le later with behind | rfl
        · exact (lt_of_pairwise sorted behind (Array.getElem?_eq_getElem inside) here).le
        · exact (Option.some.inj ((Array.getElem?_eq_getElem inside).symm.trans here)).le
      omega
  | case4 low high within none =>
      obtain rfl : low = high := Nat.le_antisymm encloses.ordered (Nat.le_of_not_lt none)
      exact encloses

end Search

/-! ## The line of an offset -/

variable (index : LineIndex) (offset : Nat)

/-- The number of the line that an offset is in, counted from zero. -/
def line : Nat :=
  match search index.starts offset 0 index.starts.size (Nat.le_refl _) with
  | .ok line => line
  | .error line => line - 1

theorem sorted : index.starts.toList.Pairwise (· < ·) :=
  index.starts_eq ▸ pairwise_starts 0 index.source

theorem starts_zero : index.starts[0]? = some 0 := by
  rw [← Array.getElem?_toList, index.starts_eq]
  rfl

/-- The line of an offset is the last one that starts up to it. -/
theorem line_spec : ∃ start, index.starts[index.line offset]? = some start ∧ start ≤ offset ∧
    ∀ later next, index.line offset < later → index.starts[later]? = some next → offset < next := by
  have found := found_search index.sorted (Nat.le_refl _) (encloses_all index.starts offset)
  unfold line
  generalize search index.starts offset 0 index.starts.size _ = answer at found ⊢
  cases answer with
  | ok line => exact ⟨offset, found, Nat.le_refl _, fun later next behind => lt_of_pairwise index.sorted behind found⟩
  | error line =>
      have positive : 0 < line := by
        refine Nat.pos_of_ne_zero fun none => ?_
        exact absurd (found.above 0 0 none.le index.starts_zero) (Nat.not_lt_zero _)
      have inside : line - 1 < index.starts.size := Nat.lt_of_lt_of_le (Nat.sub_one_lt_of_lt positive) found.within
      have here := Array.getElem?_eq_getElem inside
      refine ⟨_, here, (found.below _ _ (by omega) here).le, fun later next behind => found.above later next ?_⟩
      change line - 1 < later at behind
      omega

theorem line_lt : index.line offset < index.starts.size := by
  obtain ⟨start, here, -⟩ := index.line_spec offset
  exact (Array.getElem?_eq_some_iff.1 here).1

/-- The place at an offset. Offsets behind the end are at the end. -/
def position : Position :=
  let offset := min offset (bytes index.source).length
  have _inside := index.line_lt offset
  let start := index.starts[index.line offset]
  let column := ((Text.slice? (bytes index.source) start offset).map List.length).getD 0
  { line := index.line offset + 1, column := column + 1 }

/-- Behind the front of a text, the line is the last one of the front. -/
theorem line_front {front back : List Char} (source : index.source = front ++ back) :
    index.line (bytes front).length = front.count '\n' ∧
      index.starts[index.line (bytes front).length]? = some (bytes (front.rdropWhile (· != '\n'))).length := by
  have starts : index.starts.toList = (0 :: laterStarts 0 front) ++ laterStarts (bytes front).length back := by
    rw [index.starts_eq, source, laterStarts_append, Nat.zero_add]
    rfl
  have count : (0 :: laterStarts 0 front).length = front.count '\n' + 1 := by
    rw [List.length_cons, length_laterStarts]
  have last : index.starts[front.count '\n']? = some (bytes (front.rdropWhile (· != '\n'))).length := by
    rw [← Array.getElem?_toList, starts, List.getElem?_append_left (by omega), ← getLast?_starts,
      List.getLast?_eq_getElem?, count]
    rfl
  have upToEnd : (bytes (front.rdropWhile (· != '\n'))).length ≤ (bytes front).length :=
    Text.length_bytes_le_of_prefix (List.rdropWhile_prefix _ _)
  obtain ⟨start, here, before, behind⟩ := index.line_spec (bytes front).length
  have same : index.line (bytes front).length = front.count '\n' := by
    rcases Nat.lt_trichotomy (index.line (bytes front).length) (front.count '\n') with earlier | same | later
    · have beyond := behind _ _ earlier last
      omega
    · exact same
    · rw [← Array.getElem?_toList, starts, List.getElem?_append_right (by omega)] at here
      have beyond := bounds_of_mem_laterStarts (List.mem_of_getElem? here)
      omega
  exact ⟨same, same ▸ last⟩

/-- The place at the offset behind the front of a text is the place behind its characters. -/
theorem position_front {front back : List Char} (source : index.source = front ++ back) :
    index.position (bytes front).length = Position.first.advance front := by
  obtain ⟨line, start⟩ := index.line_front source
  obtain ⟨inside, startsAt⟩ := Array.getElem?_eq_some_iff.1 start
  have parts : front.rdropWhile (· != '\n') ++ front.rtakeWhile (· != '\n') = front :=
    List.rdropWhile_append_rtakeWhile
  have column := Text.slice?_bytes (front.rdropWhile (· != '\n')) (front.rtakeWhile (· != '\n')) back
  rw [← List.append_assoc, parts, ← source] at column
  have within : min (bytes front).length (bytes index.source).length = (bytes front).length :=
    Nat.min_eq_left (Text.length_bytes_le_of_prefix ⟨back, source.symm⟩)
  simp only [position, within, startsAt, column, Option.map_some, Option.getD_some]
  rw [line, Position.advance_first, Nat.add_comm, Nat.add_comm (List.length _)]

/-- Offsets behind the end are at the end. -/
theorem position_min : index.position (min offset (bytes index.source).length) = index.position offset := by
  simp only [position, Nat.min_assoc, Nat.min_self]

variable {source : List Char} {offset first second : Nat}

/-- A source can be cut at each offset between characters, and the place there is the one behind what is cut off. -/
theorem exists_front (boundary : Text.isBoundary ((bytes source).drop offset) = true) :
    ∃ front back, source = front ++ back ∧ (bytes front).length = min offset (bytes source).length ∧
      (ofSource source).position offset = Position.first.advance front := by
  obtain ⟨front, back, parts, length⟩ := Text.exists_cut_of_isBoundary boundary
  have place := (ofSource source).position_front parts
  rw [length] at place
  exact ⟨front, back, parts, length, ((ofSource source).position_min offset).symm.trans place⟩

/-- The line and the column of a place are at most two more, together, than the size of the source in bytes. So words
that can count its bytes can hold them. -/
theorem line_add_column_le (boundary : Text.isBoundary ((bytes source).drop offset) = true) :
    ((ofSource source).position offset).line + ((ofSource source).position offset).column ≤
      (bytes source).length + 2 := by
  obtain ⟨front, back, parts, length, place⟩ := exists_front boundary
  have characters := Text.length_le_length_bytes front
  have near := Position.line_add_column_le front
  rw [place]
  omega

/-- Offsets one behind the other lead to places one behind the other. -/
theorem before_of_lt (here : Text.isBoundary ((bytes source).drop first) = true)
    (there : Text.isBoundary ((bytes source).drop second) = true)
    (less : min first (bytes source).length < min second (bytes source).length) :
    ((ofSource source).position first).Before ((ofSource source).position second) := by
  obtain ⟨front, back, parts, length, place⟩ := exists_front here
  obtain ⟨other, rest, otherParts, otherLength, otherPlace⟩ := exists_front there
  rw [← length, ← otherLength] at less
  obtain ⟨c, more, rfl⟩ := Text.exists_between (parts.symm.trans otherParts) less
  rw [place, otherPlace, Position.advance_append]
  exact Position.before_advance _ c more

/-! ## The places of a source that is read -/

/-- Offsets in characters lead to the same places. -/
theorem position_take (source : List Char) (count : Nat) :
    (ofSource source).position (bytes (source.take count)).length = Position.ofOffset source count :=
  (ofSource source).position_front (List.take_append_drop count source).symm

/-- The characters of a source stand where their offsets say. -/
theorem position_of_mem_marks {mark : Template.Mark} (member : mark ∈ Template.marks .first source) :
    ∃ front rest, source = front ++ mark.character :: rest ∧
      mark.position = (ofSource source).position (bytes front).length := by
  obtain ⟨front, rest, parts, place⟩ := Template.mem_marks_iff.1 member
  exact ⟨front, rest, parts, place.trans ((ofSource source).position_front parts).symm⟩

theorem positions_sites_behind (front : List Char) (pieces : List Piece)
    (parts : source = front ++ pieces.flatMap Piece.source) :
    (Template.sites (Position.first.advance front) pieces).map Template.Site.position =
      (Placeholder.spans (bytes front).length pieces).map fun span => (ofSource source).position span.start := by
  induction pieces generalizing front with
  | nil => rfl
  | cons piece pieces hypothesis =>
      rw [List.flatMap_cons, ← List.append_assoc] at parts
      have behind := hypothesis _ parts
      rw [Position.advance_append, Text.bytes_append, List.length_append] at behind
      cases piece with
      | text text => exact behind
      | code placeholder =>
          rw [List.append_assoc] at parts
          have here := (ofSource source).position_front parts
          exact congrArg₂ List.cons here.symm behind

/-- The placeholders of a source stand where the offsets say that a search of its bytes finds for them. -/
theorem positions_sites {pieces : List Piece} (cut : Placeholder.pieces source = .ok pieces) :
    ∃ spans, Placeholder.scanFrom (bytes source) 0 = .ok spans ∧
      (Template.sites .first pieces).map Template.Site.position =
        spans.map fun span => (ofSource source).position span.start := by
  refine ⟨Placeholder.spans 0 pieces, ?_, ?_⟩
  · have scanned := Placeholder.scanFrom_bytes [] source
    rw [cut] at scanned
    exact scanned
  · exact positions_sites_behind [] pieces (Placeholder.flatMap_source cut).symm

/-! ## Places are exact -/

/-- Places are exact. At each offset between the characters of a source, and beyond its end as at the end, the line is
one more than the number of line feeds before the offset, and the column is one more than the number of characters since
the last of them. So places come one behind the other as their offsets do, and are the same for the same offsets only. -/
theorem position_exact (source : List Char) :
    (∀ offset, Text.isBoundary ((bytes source).drop offset) = true →
      ∃ front back, source = front ++ back ∧ (bytes front).length = min offset (bytes source).length ∧
        (ofSource source).position offset = Position.first.advance front ∧
        ((ofSource source).position offset).line = 1 + front.count '\n' ∧
        ((ofSource source).position offset).column = 1 + (front.rtakeWhile (· != '\n')).length) ∧
    ∀ first second, Text.isBoundary ((bytes source).drop first) = true →
      Text.isBoundary ((bytes source).drop second) = true →
        (((ofSource source).position first).Before ((ofSource source).position second) ↔
          min first (bytes source).length < min second (bytes source).length) ∧
        ((ofSource source).position first = (ofSource source).position second ↔
          min first (bytes source).length = min second (bytes source).length) := by
  constructor
  · intro offset boundary
    obtain ⟨front, back, parts, length, place⟩ := exists_front boundary
    refine ⟨front, back, parts, length, place, ?_, ?_⟩
    · rw [place, Position.advance_first]
    · rw [place, Position.advance_first]
  · intro first second here there
    have forward := before_of_lt here there
    have backward := before_of_lt there here
    rcases Nat.lt_trichotomy (min first (bytes source).length) (min second (bytes source).length) with
      less | same | greater
    · refine ⟨iff_of_true (forward less) less, iff_of_false (fun equal => ?_) less.ne⟩
      exact Position.Before.irrefl _ (equal ▸ forward less)
    · have equal : (ofSource source).position first = (ofSource source).position second :=
        ((ofSource source).position_min first).symm.trans
          ((congrArg (ofSource source).position same).trans ((ofSource source).position_min second))
      refine ⟨iff_of_false (fun before => ?_) same.not_lt, iff_of_true equal same⟩
      exact Position.Before.irrefl _ (equal ▸ before)
    · refine ⟨iff_of_false (fun before => ?_) (Nat.lt_asymm greater), iff_of_false (fun equal => ?_) greater.ne'⟩
      · exact Position.Before.irrefl _ (before.trans (backward greater))
      · exact Position.Before.irrefl _ (equal ▸ backward greater)

/-- Offsets at the start, at a line feed, at the start of a line, behind a character of two bytes, at the end and beyond
it. Offsets in the middle of a character are none of those that are meant. -/
theorem position_exact_boundaries :
    let source := "a\nßc\n".toList
    let offsets := [0, 1, 2, 4, 6, 9]
    let places := offsets.map (ofSource source).position
    (∀ offset ∈ offsets, Text.isBoundary ((bytes source).drop offset) = true) ∧
      Text.isBoundary ((bytes source).drop 3) = false ∧
      places.map Position.line = [1, 1, 2, 2, 3, 3] ∧ places.map Position.column = [1, 2, 1, 2, 1, 1] ∧
      (∃ front back, source = front ++ back ∧ (bytes front).length = 4 ∧
        (ofSource source).position 4 = Position.first.advance front) ∧
      ((ofSource source).position 4).Before ((ofSource source).position 9) ∧
      (ofSource source).position 6 = (ofSource source).position 9 := by
  intro source offsets places
  have boundaries : ∀ offset ∈ offsets, Text.isBoundary ((bytes source).drop offset) = true := by decide
  have four := boundaries 4 (by decide)
  have six := boundaries 6 (by decide)
  have nine := boundaries 9 (by decide)
  obtain ⟨front, back, parts, length, place, -⟩ := (position_exact source).1 4 four
  have behind := ((position_exact source).2 4 9 four nine).1.2 (by decide)
  have same := ((position_exact source).2 6 9 six nine).2.2 (by rfl)
  exact ⟨boundaries, by decide +kernel, by decide +kernel, by decide +kernel, ⟨front, back, parts, length, place⟩,
    behind, same⟩

end LineIndex

end HtmlTemplate
