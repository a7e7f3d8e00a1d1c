import HtmlTemplate.LoopHeader
import HtmlTemplate.Proofs.Text.Bytes
import HtmlTemplate.Proofs.Text.Space
import Mathlib.Data.List.DropRight

/-!
# The grammar of loop headers

A loop header is a variable, or two of them in parentheses, then the word `in` with whitespace around it, then what the
loop runs over. Such a text can be divided in one way only, since whitespace, names and signs share no characters: each
part goes on as far as its characters do. So the reader, which takes each part as long as it can, accepts exactly the
texts of the grammar and gives their parts, also where a variable or the source is the word `in` or contains it.
-/

namespace HtmlTemplate

/-! ## Runs of characters -/

/-- The characters of the run are of one kind, and the next one behind it is not. -/
structure IsRun (kind : Char → Bool) (run rest : List Char) : Prop where
  all : ∀ c ∈ run, kind c = true
  stops : ∀ c ∈ rest.head?, kind c = false

namespace IsRun

variable {kind : Char → Bool} {run rest other behind : List Char}

theorem takeWhile_append (isRun : IsRun kind run rest) : (run ++ rest).takeWhile kind = run := by
  rw [List.takeWhile_append_of_pos isRun.all]
  cases rest with
  | nil => exact List.append_nil run
  | cons c rest => rw [List.takeWhile_cons_of_neg (by simp [isRun.stops c rfl]), List.append_nil]

theorem dropWhile_append (isRun : IsRun kind run rest) : (run ++ rest).dropWhile kind = rest := by
  rw [List.dropWhile_append_of_pos isRun.all]
  cases rest with
  | nil => rfl
  | cons c rest => exact List.dropWhile_cons_of_neg (by simp [isRun.stops c rfl])

/-- A text starts with one run of a kind only. -/
theorem unique (first : IsRun kind run rest) (second : IsRun kind other behind)
    (same : run ++ rest = other ++ behind) : run = other ∧ rest = behind := by
  constructor
  · rw [← first.takeWhile_append, same, second.takeWhile_append]
  · rw [← first.dropWhile_append, same, second.dropWhile_append]

end IsRun

namespace LoopHeader

/-! ## The grammar -/

/-- Whitespace, or nothing. -/
abbrev Blank :=
  { text : List Char // Text.isBlank text = true }

/-- Whitespace, of which there is some. -/
abbrev Gap :=
  { text : List Char // Text.isBlank text = true ∧ text ≠ [] }

/-- A name for a variable: a letter, an underscore or a dollar, and then characters of names. -/
abbrev Variable :=
  { name : List Char // ∃ first rest, name = first :: rest ∧ Name.isIdentifierStart first = true ∧
    ∀ c ∈ rest, isVariablePart c = true }

/-- A text that starts and ends with something else than whitespace. -/
abbrev Source :=
  { text : List Char // text ≠ [] ∧ (∀ c ∈ text.head?, Text.isSpace c = false) ∧
    ∀ c ∈ text.getLast?, Text.isSpace c = false }

/-- The variables of a loop, with the whitespace around them. -/
inductive Binder
  | single (item : Variable)
  | pair (beforeItem : Blank) (item : Variable) (behindItem beforeIndex : Blank) (index : Variable)
      (behindIndex : Blank)

/-- The variables as they are written, in front of what follows them. -/
def Binder.write : Binder → List Char → List Char
  | .single item, rest => item.1 ++ rest
  | .pair beforeItem item behindItem beforeIndex index behindIndex, rest =>
      '(' :: (beforeItem.1 ++ (item.1 ++ (behindItem.1 ++
        ',' :: (beforeIndex.1 ++ (index.1 ++ (behindIndex.1 ++ ')' :: rest))))))

/-- The name of the variable for the elements. -/
def Binder.itemName : Binder → List Char
  | .single item => item.1
  | .pair _ item _ _ _ _ => item.1

/-- The name of the variable for the positions. -/
def Binder.indexName? : Binder → Option (List Char)
  | .single _ => none
  | .pair _ _ _ _ index _ => some index.1

/-- A loop header, divided as the grammar says. -/
@[ext]
structure Spelling where
  lead : Blank
  binder : Binder
  before : Gap
  after : Gap
  source : Source
  trail : Blank

namespace Spelling

/-- The text that is divided so. -/
def text (spelling : Spelling) : List Char :=
  spelling.lead.1 ++ spelling.binder.write (spelling.before.1 ++
    'i' :: 'n' :: (spelling.after.1 ++ (spelling.source.1 ++ spelling.trail.1)))

/-- What the header says. -/
def header (spelling : Spelling) : LoopHeader where
  item := String.ofList spelling.binder.itemName
  index := spelling.binder.indexName?.map String.ofList
  source := String.ofList spelling.source.1

end Spelling

/-- A header as it is written, with no more whitespace than it needs. -/
def print (header : LoopHeader) : String :=
  match header.index with
  | none => header.item ++ " in " ++ header.source
  | some index => "(" ++ header.item ++ ", " ++ index ++ ") in " ++ header.source

/-! ## Kinds of characters -/

/-- No character of a name is whitespace. -/
theorem isVariablePart_of_isSpace {c : Char} (space : Text.isSpace c = true) : isVariablePart c = false := by
  have apart : (Text.spaceRanges.all fun gap => Text.wordRanges.all fun word =>
      !(Nat.ble word.1 gap.2 && Nat.ble gap.1 word.2)) = true := by decide +kernel
  have plain : ∀ n < 128, Text.isSpace (Char.ofNat n) = true → isVariablePart (Char.ofNat n) = false := by decide
  rcases Nat.lt_or_ge c.toNat 128 with ascii | other
  · exact Text.forall_ascii (motive := fun c => Text.isSpace c = true → isVariablePart c = false) plain ascii space
  · have sign : c ≠ '$' := by
      rintro rfl
      exact absurd other (by decide)
    have wordless : Text.isWord c = false := by
      unfold Text.isWord
      rw [if_neg (Nat.not_lt.2 other), ← Bool.not_eq_true, Text.inRanges_eq_true_iff]
      rintro ⟨word, inWords, first, last⟩
      obtain ⟨gap, inSpaces, least, greatest⟩ := Text.inRanges_eq_true_iff.1 space
      have between := List.all_eq_true.1 (List.all_eq_true.1 apart gap inSpaces) word inWords
      rw [Nat.ble_eq_true_of_le (Nat.le_trans first greatest), Nat.ble_eq_true_of_le (Nat.le_trans least last)] at between
      cases between
    simp [isVariablePart, wordless, sign]

variable {c mark : Char} {text rest behind name : List Char}

theorem isSpace_of_isVariablePart (part : isVariablePart c = true) : Text.isSpace c = false := by
  rw [← Bool.not_eq_true]
  intro space
  rw [isVariablePart_of_isSpace space] at part
  cases part

theorem isVariablePart_of_isIdentifierStart (starts : Name.isIdentifierStart c = true) : isVariablePart c = true := by
  unfold Name.isIdentifierStart at starts
  unfold isVariablePart Text.isWord
  rw [Bool.or_eq_true, Bool.or_eq_true] at starts
  rcases starts with (letter | underscore) | dollar
  · have plain : c.isAlphanum = true := Bool.or_eq_true_iff.2 (.inl letter)
    rw [if_pos (Text.ascii_of_isAlphanum plain), plain]
    rfl
  · rw [beq_iff_eq.1 underscore]
    decide
  · rw [dollar, Bool.or_true]

theorem Variable.all (name : Variable) : ∀ c ∈ name.1, isVariablePart c = true := by
  obtain ⟨name, first, rest, rfl, starts, parts⟩ := name
  exact List.forall_mem_cons.2 ⟨isVariablePart_of_isIdentifierStart starts, parts⟩

/-! ## Parts of a header go on as far as they can -/

theorem Blank.all (blank : Blank) : ∀ c ∈ blank.1, Text.isSpace c = true :=
  List.all_eq_true.1 blank.2

/-- Whitespace in front of a sign. -/
theorem Blank.isRun (blank : Blank) (stops : ∀ c ∈ rest.head?, Text.isSpace c = false) :
    IsRun Text.isSpace blank.1 rest :=
  ⟨blank.all, stops⟩

theorem Gap.isRun (gap : Gap) (stops : ∀ c ∈ rest.head?, Text.isSpace c = false) : IsRun Text.isSpace gap.1 rest :=
  ⟨List.all_eq_true.1 gap.2.1, stops⟩

/-- A name starts with a letter, whatever follows it. -/
theorem Variable.head? (name : Variable) (rest : List Char) :
    ∀ c ∈ (name.1 ++ rest).head?, Name.isIdentifierStart c = true := by
  obtain ⟨name, first, more, rfl, starts, -⟩ := name
  rintro c member
  obtain rfl := Option.some.inj member
  exact starts

theorem Variable.stops (name : Variable) (rest : List Char) :
    ∀ c ∈ (name.1 ++ rest).head?, Text.isSpace c = false :=
  fun c member => isSpace_of_isVariablePart (isVariablePart_of_isIdentifierStart (name.head? rest c member))

/-- A name in front of whitespace and a sign. -/
theorem Variable.isRun (name : Variable) (blank : Blank) (sign : isVariablePart mark = false) :
    IsRun isVariablePart name.1 (blank.1 ++ mark :: rest) := by
  refine ⟨name.all, fun c member => ?_⟩
  cases spaces : blank.1 with
  | nil =>
      rw [spaces] at member
      exact Option.some.inj member ▸ sign
  | cons d others =>
      rw [spaces] at member
      obtain rfl := Option.some.inj member
      exact isVariablePart_of_isSpace (blank.all d (spaces ▸ List.mem_cons_self))

/-- What follows starts with whitespace. -/
def StartsBlank (rest : List Char) : Prop :=
  ∀ c ∈ rest.head?, Text.isSpace c = true

theorem Gap.startsBlank (gap : Gap) (rest : List Char) : StartsBlank (gap.1 ++ rest) := by
  obtain ⟨gap, blank, full⟩ := gap
  obtain ⟨first, others, rfl⟩ := List.exists_cons_of_ne_nil full
  rintro c member
  obtain rfl := Option.some.inj member
  exact (Text.isBlank_cons.1 blank).1

/-- A name in front of whitespace. -/
theorem Variable.isRun_of_startsBlank (name : Variable) (blank : StartsBlank rest) : IsRun isVariablePart name.1 rest :=
  ⟨name.all, fun c member => isVariablePart_of_isSpace (blank c member)⟩

/-- A sign that is no whitespace. -/
theorem stops_sign (sign : Text.isSpace mark = false) : ∀ c ∈ (mark :: rest).head?, Text.isSpace c = false :=
  fun _ member => Option.some.inj member ▸ sign

/-! ## The grammar is unambiguous -/

theorem Variable.ne_parenthesis (name : Variable) : name.1 ++ rest ≠ '(' :: behind := by
  intro same
  have letter := name.head? rest '(' (by rw [same]; rfl)
  exact absurd letter (by decide)

/-- Variables are written in one way only. -/
theorem Binder.write_inj {first second : Binder} (blank : StartsBlank rest) (other : StartsBlank behind)
    (same : first.write rest = second.write behind) : first = second ∧ rest = behind := by
  match first, second with
  | .single item, .single item' =>
      obtain ⟨names, rests⟩ := (item.isRun_of_startsBlank blank).unique (item'.isRun_of_startsBlank other) same
      exact ⟨congrArg single (Subtype.ext names), rests⟩
  | .single item, .pair .. => exact absurd same item.ne_parenthesis
  | .pair .., .single item => exact absurd same.symm item.ne_parenthesis
  | .pair beforeItem item behindItem beforeIndex index behindIndex,
      .pair beforeItem' item' behindItem' beforeIndex' index' behindIndex' =>
      have comma : isVariablePart ',' = false := by decide
      have close : isVariablePart ')' = false := by decide
      obtain ⟨beforeItems, same⟩ :=
        (beforeItem.isRun (item.stops _)).unique (beforeItem'.isRun (item'.stops _)) (List.cons.inj same).2
      obtain ⟨items, same⟩ := (item.isRun behindItem comma).unique (item'.isRun behindItem' comma) same
      obtain ⟨behindItems, same⟩ := (behindItem.isRun (stops_sign (by decide))).unique
        (behindItem'.isRun (stops_sign (by decide))) same
      obtain ⟨beforeIndices, same⟩ :=
        (beforeIndex.isRun (index.stops _)).unique (beforeIndex'.isRun (index'.stops _)) (List.cons.inj same).2
      obtain ⟨indices, same⟩ := (index.isRun behindIndex close).unique (index'.isRun behindIndex' close) same
      obtain ⟨behindIndices, same⟩ := (behindIndex.isRun (stops_sign (by decide))).unique
        (behindIndex'.isRun (stops_sign (by decide))) same
      rw [Subtype.ext beforeItems, Subtype.ext items, Subtype.ext behindItems, Subtype.ext beforeIndices,
        Subtype.ext indices, Subtype.ext behindIndices]
      exact ⟨rfl, (List.cons.inj same).2⟩

theorem Binder.stops (binder : Binder) (rest : List Char) :
    ∀ c ∈ (binder.write rest).head?, Text.isSpace c = false := by
  cases binder with
  | single item => exact item.stops rest
  | pair => exact stops_sign (by decide)

theorem Source.stops (source : Source) (rest : List Char) :
    ∀ c ∈ (source.1 ++ rest).head?, Text.isSpace c = false := by
  intro c member
  refine source.2.2.1 c ?_
  rwa [List.head?_append_of_ne_nil _ source.2.1] at member

/-- Whitespace behind a source is taken off, and nothing else. -/
theorem Source.trimRight_append (source : Source) (trail : Blank) :
    Text.trimRight (source.1 ++ trail.1) = source.1 := by
  obtain ⟨text, full, -, visible⟩ := source
  obtain ⟨front, last, rfl⟩ := (List.eq_nil_or_concat' text).resolve_left full
  have single : Text.trimRight (last :: trail.1) = [last] := by
    rw [Text.trimRight, Text.trimRight_of_isBlank trail.2]
    exact if_neg (by rw [visible last (by simp)]; exact Bool.false_ne_true)
  have kept : Text.trimRight (last :: trail.1) ≠ [] := single ▸ List.cons_ne_nil last []
  rw [List.append_assoc, List.singleton_append, Text.trimRight_append kept, single]

/-- A header can be divided in one way only. -/
theorem Spelling.text_inj {first second : Spelling} (same : first.text = second.text) : first = second := by
  unfold text at same
  obtain ⟨leads, same⟩ :=
    (first.lead.isRun (first.binder.stops _)).unique (second.lead.isRun (second.binder.stops _)) same
  obtain ⟨binders, same⟩ := Binder.write_inj (first.before.startsBlank _) (second.before.startsBlank _) same
  obtain ⟨befores, same⟩ := (first.before.isRun (stops_sign (by decide))).unique
    (second.before.isRun (stops_sign (by decide))) same
  obtain ⟨afters, same⟩ := (first.after.isRun (first.source.stops _)).unique
    (second.after.isRun (second.source.stops _)) (List.cons.inj (List.cons.inj same).2).2
  have sources : first.source.1 = second.source.1 := by
    rw [← first.source.trimRight_append first.trail, same, second.source.trimRight_append]
  have trails : first.trail.1 = second.trail.1 := by
    rw [sources] at same
    exact List.append_cancel_left same
  exact Spelling.ext (Subtype.ext leads) binders (Subtype.ext befores) (Subtype.ext afters) (Subtype.ext sources)
    (Subtype.ext trails)

/-! ## Reading what the grammar divides -/

theorem readVariable_append (name : Variable) (isRun : IsRun isVariablePart name.1 rest) :
    readVariable (name.1 ++ rest) = some (name.1, rest) := by
  obtain ⟨name, first, more, rfl, starts, parts⟩ := name
  have behind : IsRun isVariablePart more rest := ⟨parts, isRun.stops⟩
  rw [List.cons_append, readVariable, if_pos starts, behind.takeWhile_append, behind.dropWhile_append]

theorem trimLeft_append (blank : Blank) (stops : ∀ c ∈ rest.head?, Text.isSpace c = false) :
    Text.trimLeft (blank.1 ++ rest) = rest :=
  (blank.isRun stops).dropWhile_append

theorem someSpace?_append (gap : Gap) (stops : ∀ c ∈ rest.head?, Text.isSpace c = false) :
    someSpace? (gap.1 ++ rest) = some rest := by
  obtain ⟨gap, blank, full⟩ := gap
  obtain ⟨first, others, rfl⟩ := List.exists_cons_of_ne_nil full
  obtain ⟨space, more⟩ := Text.isBlank_cons.1 blank
  rw [List.cons_append, someSpace?, if_pos space, trimLeft_append ⟨others, more⟩ stops]

theorem afterChar?_cons (mark : Char) (rest : List Char) : afterChar? mark (mark :: rest) = some rest :=
  if_pos (beq_self_eq_true mark)

theorem readVariables_parenthesis (text : List Char) :
    readVariables ('(' :: text) =
      (readVariable (Text.trimLeft text)).bind fun (item, rest) =>
        (afterChar? ',' (Text.trimLeft rest)).bind fun rest =>
          (readVariable (Text.trimLeft rest)).bind fun (index, rest) =>
            (afterChar? ')' (Text.trimLeft rest)).bind fun rest => some (item, some index, rest) :=
  rfl

theorem readVariables_name (name : ∀ rest, text ≠ '(' :: rest) :
    readVariables text = (readVariable text).bind fun (item, rest) => some (item, none, rest) := by
  unfold readVariables
  split
  · next same => exact absurd rfl (name _)
  · rfl

theorem readVariables_write (binder : Binder) (blank : StartsBlank rest) :
    readVariables (binder.write rest) = some (binder.itemName, binder.indexName?, rest) := by
  match binder with
  | .single item =>
      rw [Binder.write, readVariables_name fun _ => item.ne_parenthesis,
        readVariable_append item (item.isRun_of_startsBlank blank)]
      rfl
  | .pair beforeItem item behindItem beforeIndex index behindIndex =>
      have comma : isVariablePart ',' = false := by decide
      have close : isVariablePart ')' = false := by decide
      rw [Binder.write, readVariables_parenthesis, trimLeft_append beforeItem (item.stops _),
        readVariable_append item (item.isRun behindItem comma), Option.bind_some]
      dsimp only
      rw [trimLeft_append behindItem (stops_sign (by decide)), afterChar?_cons, Option.bind_some,
        trimLeft_append beforeIndex (index.stops _), readVariable_append index (index.isRun behindIndex close),
        Option.bind_some]
      dsimp only
      rw [trimLeft_append behindIndex (stops_sign (by decide)), afterChar?_cons]
      rfl

/-- What the grammar divides is read as what its parts say. -/
theorem parse?_text (spelling : Spelling) : parse? (String.ofList spelling.text) = some spelling.header := by
  have full : ¬spelling.source.1.isEmpty = true := by simpa using spelling.source.2.1
  unfold parse? Spelling.text
  rw [String.toList_ofList, trimLeft_append spelling.lead (spelling.binder.stops _),
    readVariables_write spelling.binder (spelling.before.startsBlank _)]
  dsimp only [Option.bind_eq_bind, Option.bind_some]
  rw [someSpace?_append spelling.before (stops_sign (by decide)), Option.bind_some, afterChar?_cons, Option.bind_some,
    afterChar?_cons, Option.bind_some, someSpace?_append spelling.after (spelling.source.stops _), Option.bind_some,
    spelling.source.trimRight_append, if_neg full]
  rfl

/-! ## Dividing what is read -/

theorem exists_trimLeft (text : List Char) : ∃ blank : Blank, text = blank.1 ++ Text.trimLeft text :=
  ⟨⟨text.takeWhile Text.isSpace, List.all_takeWhile⟩, List.takeWhile_append_dropWhile.symm⟩

theorem exists_of_readVariable (reads : readVariable text = some (name, rest)) :
    ∃ found : Variable, found.1 = name ∧ text = found.1 ++ rest := by
  unfold readVariable at reads
  split at reads
  · next first more =>
    split at reads
    · next starts =>
      obtain ⟨rfl, rfl⟩ := Prod.mk.inj (Option.some.inj reads)
      refine ⟨⟨_, first, _, rfl, starts, List.all_eq_true.1 List.all_takeWhile⟩, rfl, ?_⟩
      rw [List.cons_append, List.takeWhile_append_dropWhile]
    · cases reads
  · cases reads

theorem eq_cons_of_afterChar? (after : afterChar? mark text = some rest) : text = mark :: rest := by
  unfold afterChar? at after
  split at after
  · split at after
    · next same =>
      obtain rfl := Option.some.inj after
      rw [beq_iff_eq.1 same]
    · cases after
  · cases after

theorem exists_of_someSpace? (after : someSpace? text = some rest) :
    ∃ gap : Gap, text = gap.1 ++ rest ∧ Text.trimLeft rest = rest := by
  unfold someSpace? at after
  split at after
  · next first more =>
    split at after
    · next space =>
      obtain rfl := Option.some.inj after
      refine ⟨⟨first :: more.takeWhile Text.isSpace, Text.isBlank_cons.2 ⟨space, List.all_takeWhile⟩,
        List.cons_ne_nil _ _⟩, ?_, List.dropWhile_idempotent _ _⟩
      rw [List.cons_append]
      exact congrArg (first :: ·) List.takeWhile_append_dropWhile.symm
    · cases after
  · cases after

theorem exists_of_readVariables {item : List Char} {index : Option (List Char)}
    (reads : readVariables text = some (item, index, rest)) :
    ∃ binder : Binder, text = binder.write rest ∧ binder.itemName = item ∧ binder.indexName? = index := by
  by_cases parenthesis : ∃ inside, text = '(' :: inside
  · obtain ⟨inside, rfl⟩ := parenthesis
    rw [readVariables_parenthesis] at reads
    obtain ⟨⟨_, behindItem⟩, readItem, reads⟩ := Option.bind_eq_some_iff.1 reads
    obtain ⟨afterComma, comma, reads⟩ := Option.bind_eq_some_iff.1 reads
    obtain ⟨⟨_, behindIndex⟩, readIndex, reads⟩ := Option.bind_eq_some_iff.1 reads
    obtain ⟨_, close, reads⟩ := Option.bind_eq_some_iff.1 reads
    cases reads
    obtain ⟨beforeItem, lead⟩ := exists_trimLeft inside
    obtain ⟨item, rfl, items⟩ := exists_of_readVariable readItem
    obtain ⟨blank, between⟩ := exists_trimLeft behindItem
    obtain ⟨beforeIndex, gap⟩ := exists_trimLeft afterComma
    obtain ⟨index, rfl, indices⟩ := exists_of_readVariable readIndex
    obtain ⟨last, trail⟩ := exists_trimLeft behindIndex
    refine ⟨.pair beforeItem item blank beforeIndex index last, ?_, rfl, rfl⟩
    rw [Binder.write, lead, items, between, eq_cons_of_afterChar? comma, gap, indices, trail,
      eq_cons_of_afterChar? close]
  · rw [readVariables_name fun inside same => parenthesis ⟨inside, same⟩] at reads
    obtain ⟨⟨_, behind⟩, readItem, reads⟩ := Option.bind_eq_some_iff.1 reads
    cases reads
    obtain ⟨item, rfl, items⟩ := exists_of_readVariable readItem
    exact ⟨.single item, items, rfl, rfl⟩

/-- What is left of a text, if it starts with something else than whitespace, between two runs of whitespace. -/
theorem exists_of_trimRight (starts : Text.trimLeft text = text) (full : Text.trimRight text ≠ []) :
    ∃ (source : Source) (trail : Blank), text = source.1 ++ trail.1 ∧ source.1 = Text.trimRight text := by
  obtain ⟨trail, divided, blank⟩ := Text.trimRight_source text
  have visible : ∀ c ∈ (Text.trimRight text).head?, Text.isSpace c = false := by
    intro c member
    have stops := List.head?_dropWhile_not Text.isSpace text
    have first : text.head? = some c := by
      rw [divided, List.head?_append_of_ne_nil _ full]
      exact member
    rwa [show text.dropWhile Text.isSpace = text from starts, first] at stops
  exact ⟨⟨_, full, visible, fun _ member => Text.getLast?_trimRight member⟩, ⟨trail, List.all_eq_true.2 blank⟩, divided,
    rfl⟩

/-- What is read can be divided as the grammar says, and its parts say what is read. -/
theorem exists_of_parse? {header : String} {result : LoopHeader} (reads : parse? header = some result) :
    ∃ spelling : Spelling, spelling.text = header.toList ∧ spelling.header = result := by
  unfold parse? at reads
  dsimp only [Option.bind_eq_bind] at reads
  obtain ⟨⟨item, index, behindBinder⟩, readBinder, reads⟩ := Option.bind_eq_some_iff.1 reads
  obtain ⟨word, readBefore, reads⟩ := Option.bind_eq_some_iff.1 reads
  obtain ⟨letters, readI, reads⟩ := Option.bind_eq_some_iff.1 reads
  obtain ⟨behindWord, readN, reads⟩ := Option.bind_eq_some_iff.1 reads
  obtain ⟨rest, readAfter, reads⟩ := Option.bind_eq_some_iff.1 reads
  dsimp only at reads
  split at reads
  · cases reads
  · next full =>
    obtain rfl := Option.some.inj reads
    obtain ⟨lead, leads⟩ := exists_trimLeft header.toList
    obtain ⟨binder, binders, rfl, rfl⟩ := exists_of_readVariables readBinder
    obtain ⟨before, befores, -⟩ : ∃ before : Gap, behindBinder = before.1 ++ word ∧ _ := exists_of_someSpace? readBefore
    obtain ⟨after, afters, starts⟩ := exists_of_someSpace? readAfter
    obtain ⟨source, trail, sources, trimmed⟩ := exists_of_trimRight starts (by simpa using full)
    refine ⟨⟨lead, binder, before, after, source, trail⟩, ?_, ?_⟩
    · rw [Spelling.text, leads, binders, befores, eq_cons_of_afterChar? readI, eq_cons_of_afterChar? readN, afters,
        ← sources]
    · rw [Spelling.header, trimmed]

/-! ## Printing what is read -/

/-- No whitespace. -/
def Blank.empty : Blank :=
  ⟨[], rfl⟩

/-- One space. -/
def Gap.space : Gap :=
  ⟨[' '], rfl, List.cons_ne_nil _ _⟩

/-- The same variables as they are printed. -/
def Binder.plain : Binder → Binder
  | .single item => .single item
  | .pair _ item _ _ index _ => .pair .empty item .empty ⟨[' '], rfl⟩ index .empty

/-- The same header as it is printed. -/
def Spelling.plain (spelling : Spelling) : Spelling where
  lead := .empty
  binder := spelling.binder.plain
  before := .space
  after := .space
  source := spelling.source
  trail := .empty

theorem Spelling.text_plain (spelling : Spelling) : spelling.plain.text = spelling.header.print.toList := by
  obtain ⟨_, binder, _, _, source, _⟩ := spelling
  cases binder <;> simp [plain, text, header, print, Binder.plain, Binder.write, Binder.itemName, Binder.indexName?,
    Blank.empty, Gap.space]

theorem Spelling.header_plain (spelling : Spelling) : spelling.plain.header = spelling.header := by
  obtain ⟨_, binder, _, _, _, _⟩ := spelling
  cases binder <;> rfl

/-- Loop headers have a grammar that is unambiguous. A text is read if and only if it can be divided as the grammar
says; it can be divided in one way only, and what is read is what the parts of that say. What is read can be printed and
is read again. -/
theorem parse?_grammar (header : String) :
    ((parse? header).isSome = true ↔ ∃ spelling : Spelling, spelling.text = header.toList) ∧
    (∀ first second : Spelling, first.text = header.toList → second.text = header.toList → first = second) ∧
    (∀ spelling : Spelling, spelling.text = header.toList → parse? header = some spelling.header) ∧
    ∀ result, parse? header = some result → parse? result.print = some result := by
  have reads : ∀ (spelling : Spelling) (text : String), spelling.text = text.toList →
      parse? text = some spelling.header := by
    intro spelling text divided
    rw [← String.ofList_toList (s := text), ← divided, parse?_text]
  refine ⟨⟨fun accepted => ?_, fun ⟨spelling, divided⟩ => ?_⟩, fun first second one other => ?_,
    fun spelling => reads spelling header, fun result accepted => ?_⟩
  · obtain ⟨result, accepted⟩ := Option.isSome_iff_exists.1 accepted
    obtain ⟨spelling, divided, -⟩ := exists_of_parse? accepted
    exact ⟨spelling, divided⟩
  · rw [reads spelling header divided]
    rfl
  · exact Spelling.text_inj (one.trans other.symm)
  · obtain ⟨spelling, -, rfl⟩ := exists_of_parse? accepted
    rw [reads spelling.plain _ spelling.text_plain, spelling.header_plain]

/-- The variable is the word between the variables and the source, and so is the source. -/
example : parse? " (in , $in)  in in in in " = some { item := "in", index := some "$in", source := "in in in" } := by
  decide

end LoopHeader
end HtmlTemplate
