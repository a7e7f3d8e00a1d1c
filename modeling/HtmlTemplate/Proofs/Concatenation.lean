import HtmlTemplate.Value
import HtmlTemplate.Proofs.Text.Telling
import Mathlib

/-!
# What a printed value comes to

A value with several parts is printed as a JavaScript sum: the plain parts as string literals and the code between
parentheses. JavaScript takes the sum from left to right, and `+` joins texts only where one side is a text. So the
numbers that the parts start with are added first, and only from the first text on everything is written behind it.
-/

namespace HtmlTemplate

/-! ## Data and their sums -/

/-- Numbers that can be added and written. -/
class Numeral (N : Type) where
  /-- The sum of two numbers. -/
  plus : N → N → N
  /-- The number as a text. -/
  written : N → String

/-- Whole numbers are numbers of JavaScript, as long as they are small. -/
instance : Numeral Int where
  plus := (· + ·)
  written := toString

/-- What code comes to: a text or a number. -/
inductive Datum (N : Type)
  | text (value : String)
  | number (value : N)
  deriving DecidableEq

namespace Datum

variable {N : Type} [Numeral N]

/-- The datum as a text. -/
def written : Datum N → String
  | text value => value
  | number value => Numeral.written value

/-- The operator `+`: two numbers are added, and all else is joined as texts. -/
def plus : Datum N → Datum N → Datum N
  | number first, number second => number (Numeral.plus first second)
  | first, second => text (first.written ++ second.written)

/-- Is the datum a number? -/
def isNumber : Datum N → Bool
  | text _ => false
  | number _ => true

/-- The data one after another, each as a text. -/
def concatenated (data : List (Datum N)) : String :=
  String.join (data.map written)

/-- The sum of the data, taken from left to right. -/
def sum : List (Datum N) → Datum N
  | [] => text ""
  | first :: others => others.foldl plus first

/-- The numbers that stand before the first text. -/
def leading (data : List (Datum N)) : List (Datum N) :=
  data.takeWhile isNumber

theorem plus_of_text {first second : Datum N} (some : (first.isNumber && second.isNumber) = false) :
    first.plus second = text (first.written ++ second.written) := by
  cases first <;> cases second <;> first | rfl | cases some

/-- Once there is a text, everything is written behind it. -/
theorem foldl_plus_text (value : String) (data : List (Datum N)) :
    data.foldl plus (text value) = text (value ++ concatenated data) := by
  induction data generalizing value with
  | nil => simp [concatenated]
  | cons datum data hypothesis =>
      rw [List.foldl_cons, plus_of_text rfl, hypothesis]
      simp [concatenated, written, String.append_assoc]

/-- Numbers alone come to a number. -/
theorem foldl_plus_numbers {data : List (Datum N)} (numbers : data.all isNumber = true) (value : N) :
    ∃ total, data.foldl plus (number value) = number total := by
  induction data generalizing value with
  | nil => exact ⟨value, rfl⟩
  | cons datum data hypothesis =>
      obtain ⟨first, others⟩ := Bool.and_eq_true_iff.1 numbers
      cases datum with
      | text => cases first
      | number more => exact hypothesis others (Numeral.plus value more)

/-- The sum of data with a text among them: the sum of the numbers before the text, and the others behind it. -/
theorem sum_append_text (numbers : List (Datum N)) (value : String) (data : List (Datum N)) :
    sum (numbers ++ text value :: data) = text ((sum numbers).written ++ concatenated (text value :: data)) := by
  cases numbers with
  | nil =>
      show (data.foldl plus (text value)) = _
      rw [foldl_plus_text]
      simp [concatenated, sum, written]
  | cons number numbers =>
      rw [List.cons_append, sum, List.foldl_append, List.foldl_cons, plus_of_text (Bool.and_false _), foldl_plus_text]
      simp [concatenated, sum, written, String.append_assoc]

theorem concatenated_append (first second : List (Datum N)) :
    concatenated (first ++ second) = concatenated first ++ concatenated second := by
  simp [concatenated]

omit [Numeral N] in
/-- Data are numbers alone, or there is a first text among them. -/
theorem all_isNumber_or (data : List (Datum N)) :
    data.all isNumber = true ∨ ∃ value others, data = leading data ++ text value :: others := by
  cases behind : data.dropWhile isNumber with
  | nil => exact .inl (List.all_eq_true.2 (List.dropWhile_eq_nil_iff.1 behind))
  | cons datum others =>
      have first := List.head?_dropWhile_not isNumber data
      rw [behind] at first
      cases datum with
      | number => simp [isNumber] at first
      | text value => exact .inr ⟨value, others, by rw [← behind, leading, List.takeWhile_append_dropWhile]⟩

/-- Data come to all of their texts just when the numbers before the first text do. -/
theorem sum_eq_concatenated_iff {data : List (Datum N)} (some : data ≠ []) :
    sum data = text (concatenated data) ↔
      (leading data).length < data.length ∧ (sum (leading data)).written = concatenated (leading data) := by
  obtain numbers | ⟨value, others, found⟩ := all_isNumber_or data
  · -- The sum is a number, and no text stands behind the leading numbers.
    have whole : leading data = data := List.takeWhile_eq_self_iff.2 (List.all_eq_true.1 numbers)
    rw [whole]
    refine ⟨fun equal => ?_, fun ⟨shorter, _⟩ => absurd shorter (lt_irrefl _)⟩
    obtain ⟨first, data, rfl⟩ := List.exists_cons_of_ne_nil some
    obtain ⟨isFirst, others⟩ := Bool.and_eq_true_iff.1 numbers
    cases first with
    | text => cases isFirst
    | number value =>
        obtain ⟨total, sum⟩ := foldl_plus_numbers others value
        exact absurd (sum.symm.trans equal) (by simp)
  · have shorter : (leading data).length < data.length := by
      conv_rhs => rw [found]
      simp
    generalize leading data = numbers at found shorter
    subst found
    rw [sum_append_text, concatenated_append, text.injEq, String.append_left_inj]
    exact ⟨fun equal => ⟨shorter, equal⟩, fun both => both.2⟩

/-- A text among the first two data is enough. -/
theorem sum_eq_concatenated {first second : Datum N} (others : List (Datum N))
    (early : (first.isNumber && second.isNumber) = false) :
    sum (first :: second :: others) = text (concatenated (first :: second :: others)) := by
  rw [sum, List.foldl_cons, plus_of_text early, foldl_plus_text]
  simp [concatenated, String.append_assoc]

end Datum

/-! ## Sums as they are printed -/

section Printed

variable {N : Type}

/-- A character read from a string literal before what is read behind it. -/
def prepend (c : Char) (behind : List Char × List Char) : List Char × List Char :=
  (c :: behind.1, behind.2)

/-- The character that a letter behind a backslash stands for. -/
def escaped : Char → Char
  | 'b' => '\x08'
  | 'f' => '\x0c'
  | 'n' => '\n'
  | 'r' => '\r'
  | 't' => '\t'
  | c => c

/-- Reads a string literal from behind its opening quote on: the text it spells, and what stands behind it. -/
def literal? : List Char → Option (List Char × List Char)
  | '"' :: rest => some ([], rest)
  | '\\' :: 'u' :: p :: q :: a :: b :: rest => (literal? rest).map (prepend (Char.ofNat (Text.hexNumber [p, q, a, b])))
  | '\\' :: c :: rest => (literal? rest).map (prepend (escaped c))
  | c :: rest => (literal? rest).map (prepend c)
  | [] => none

/--
Reads an operand: a string literal, or parentheses around the code whose datum is given next. The data that are
given for later code are left, and the text behind the operand.
-/
def operand? : List (String × Datum N) → List Char → Option (Datum N × List (String × Datum N) × List Char)
  | given, '"' :: text => (literal? text).map fun found => (.text (String.ofList found.1), given, found.2)
  | (code, datum) :: given, '(' :: text =>
      ((code.toList ++ [')']).isPrefixOf? text).map fun rest => (datum, given, rest)
  | _, _ => none

/-- The text goes on with operands until its end, and all that is added to the total comes to the result. -/
inductive Adds [Numeral N] : Datum N → List (String × Datum N) → List Char → Datum N → Prop
  | ends (total : Datum N) : Adds total [] [] total
  | plus {total datum result : Datum N} {given later : List (String × Datum N)} {text rest : List Char}
      (operand : operand? given text = some (datum, later, rest)) (behind : Adds (total.plus datum) later rest result) :
      Adds total given (' ' :: '+' :: ' ' :: text) result

/-- The text is a sum, and it comes to the result, with the data given for its code from left to right. -/
def Evaluates [Numeral N] (given : List (String × Datum N)) (text : List Char) (result : Datum N) : Prop :=
  ∃ datum later rest, operand? given text = some (datum, later, rest) ∧ Adds datum later rest result

theorem adds_plus_iff [Numeral N] {total result : Datum N} {given : List (String × Datum N)} {text : List Char} :
    Adds total given (' ' :: '+' :: ' ' :: text) result ↔
      ∃ datum later rest,
        operand? given text = some (datum, later, rest) ∧ Adds (total.plus datum) later rest result := by
  constructor
  · intro adds
    cases adds with
    | plus operand behind => exact ⟨_, _, _, operand, behind⟩
  · rintro ⟨datum, later, rest, operand, behind⟩
    exact .plus operand behind

/-- A character is read back from its written form. -/
theorem literal_jsonChar (c : Char) (rest : List Char) :
    literal? (Text.jsonChar c ++ rest) = (literal? rest).map (prepend c) := by
  unfold Text.jsonChar
  split_ifs with quote backslash _ _ _ _ _ small
  rotate_left 7
  · obtain ⟨a, b, written, number, -⟩ := Text.hexPadded_control c.toNat small
    have digits : Text.hexNumber ['0', '0', a, b] = c.toNat := number
    rw [written]
    simp only [List.cons_append, List.nil_append, literal?, digits, Char.ofNat_toNat]
  · simp only [beq_iff_eq] at quote backslash
    rw [List.singleton_append, literal?] <;> simp_all
  all_goals simp_all [literal?, escaped]

/-- A printed text is read back. -/
theorem literal_jsonString (value rest : List Char) :
    literal? (value.flatMap Text.jsonChar ++ '"' :: rest) = some (value, rest) := by
  induction value with
  | nil => rfl
  | cons c value hypothesis =>
      rw [List.flatMap_cons, List.append_assoc, literal_jsonChar, hypothesis]
      rfl

end Printed

/-! ## Values with data for their code -/

/-- A value with several parts is printed as a sum. -/
theorem Value.toScript_of_several {value : Value} {resolve : String → String}
    (several : 2 ≤ value.segments.length) :
    value.toScript resolve = String.intercalate " + " (value.segments.map (Value.operand resolve)) := by
  unfold Value.toScript
  split
  · next none => simp [none] at several
  · next alone => simp [alone] at several
  · rfl

/-- A part of a value, with the datum that its code comes to. -/
inductive Filled (N : Type)
  | static (value : String)
  | code (code : String) (escape : Bool) (datum : Datum N)

namespace Filled

variable {N : Type}

/-- The part alone. -/
def segment : Filled N → Segment
  | static value => .static value
  | code source escape _ => .code source escape

/-- What the part comes to. -/
def datum : Filled N → Datum N
  | static value => .text value
  | code _ _ datum => datum

/-- The code of the part as it is printed, with its datum. -/
def given? (resolve : String → String) : Filled N → Option (String × Datum N)
  | static _ => none
  | code source _ datum => some (resolve source, datum)

variable {resolve : String → String}

/-- The first operand of a printed text is the first part. -/
theorem operand_eq (part : Filled N) (parts : List (Filled N)) (rest : List Char) :
    operand? ((part :: parts).filterMap (given? resolve)) ((Value.operand resolve part.segment).toList ++ rest) =
      some (part.datum, parts.filterMap (given? resolve), rest) := by
  cases part with
  | static value =>
      show operand? _ ((Text.jsonString value).toList ++ rest) = _
      rw [Text.jsonString, String.toList_ofList, List.cons_append, List.cons_append, List.append_assoc,
        List.singleton_append]
      rw [operand?, literal_jsonString, List.filterMap_cons_none rfl, Option.map_some, String.ofList_toList]
      rfl
  | code source escape datum =>
      show operand? _ (("(" ++ resolve source ++ ")").toList ++ rest) = _
      simp [operand?, given?, Filled.datum]

variable [Numeral N]

/-- What stands behind an operand adds all other parts to it, from left to right. -/
theorem adds_iff (parts : List (Filled N)) {total result : Datum N} :
    Adds total (parts.filterMap (given? resolve))
        (parts.flatMap fun part => " + ".toList ++ (Value.operand resolve part.segment).toList) result ↔
      result = (parts.map datum).foldl Datum.plus total := by
  induction parts generalizing total with
  | nil =>
      constructor
      · intro adds
        cases adds
        rfl
      · rintro rfl
        exact .ends _
  | cons part parts hypothesis =>
      rw [List.map_cons, List.foldl_cons, ← hypothesis, List.flatMap_cons, List.append_assoc]
      refine adds_plus_iff.trans ?_
      simp only [List.append_eq, List.nil_append, operand_eq, Option.some.injEq, Prod.mk.injEq]
      constructor
      · rintro ⟨_, _, _, ⟨rfl, rfl, rfl⟩, behind⟩
        exact behind
      · exact fun behind => ⟨_, _, _, ⟨rfl, rfl, rfl⟩, behind⟩

/-- A value with several parts comes to the sum of what its parts come to, and to nothing else. -/
theorem evaluates_iff (resolve : String → String) {value : Value} {parts : List (Filled N)}
    (filled : value.segments = parts.map segment) (several : 2 ≤ value.segments.length) {result : Datum N} :
    Evaluates (parts.filterMap (given? resolve)) (value.toScript resolve).toList result ↔
      result = Datum.sum (parts.map datum) := by
  match parts with
  | [] => simp [filled] at several
  | [part] => simp [filled] at several
  | first :: second :: others =>
      have printed : (value.toScript resolve).toList = (Value.operand resolve first.segment).toList ++
          (second :: others).flatMap fun part => " + ".toList ++ (Value.operand resolve part.segment).toList := by
        rw [Value.toScript_of_several several, filled, String.toList_intercalate, List.map_cons, List.map_cons,
          List.map_cons, Tells.intercalate_cons, List.map_map, List.map_map, List.flatMap_map]
        rfl
      rw [printed]
      constructor
      · rintro ⟨datum, later, rest, operand, adds⟩
        rw [operand_eq] at operand
        cases operand
        exact (adds_iff _).1 adds
      · exact fun equal => ⟨_, _, _, operand_eq first _ _, (adds_iff _).2 equal⟩

end Filled

section Concatenation

variable {N : Type} [Numeral N] {value : Value} {parts : List (Filled N)}

/--
A value with several parts comes to the concatenation of their texts just when there is a text among them and the
numbers before it, added up, are written as they are one after another.
-/
theorem Value.concatenates_iff (resolve : String → String) (filled : value.segments = parts.map Filled.segment)
    (several : 2 ≤ value.segments.length) :
    Evaluates (parts.filterMap (Filled.given? resolve)) (value.toScript resolve).toList
        (.text (Datum.concatenated (parts.map Filled.datum))) ↔
      (Datum.leading (parts.map Filled.datum)).length < parts.length ∧
        (Datum.sum (Datum.leading (parts.map Filled.datum))).written =
          Datum.concatenated (Datum.leading (parts.map Filled.datum)) := by
  have some : parts.map Filled.datum ≠ [] := by
    rintro none
    simp [filled, List.map_eq_nil_iff.1 none] at several
  rw [Filled.evaluates_iff _ filled several, eq_comm, Datum.sum_eq_concatenated_iff some, List.length_map]

/-- A plain text before a number: the texts are joined. -/
theorem Value.concatenates_behind_text :
    Evaluates [("x", .number (7 : Int))] (Value.toScript ⟨"a-$\x7bx\x7d", [.static "a-", .code "x" true]⟩ id).toList
      (.text "a-7") := by
  let value : Value := ⟨"a-$\x7bx\x7d", [.static "a-", .code "x" true]⟩
  let parts : List (Filled Int) := [.static "a-", .code "x" true (.number 7)]
  have filled : value.segments = parts.map Filled.segment := rfl
  exact (Value.concatenates_iff id filled (by decide)).2 (by decide)

/-- Two numbers are added, so their texts are not joined. -/
theorem Value.numbers_are_added : ∃ value, Value.parse "$\x7ba\x7d$\x7bb\x7d" = .ok value ∧
    Evaluates [("a", .number 1), ("b", .number 2)] (value.toScript id).toList (.number (3 : Int)) ∧
    ¬ Evaluates [("a", .number 1), ("b", .number (2 : Int))] (value.toScript id).toList (.text "12") := by
  let value : Value := ⟨"$\x7ba\x7d$\x7bb\x7d", [.code "a" true, .code "b" true]⟩
  let parts : List (Filled Int) := [.code "a" true (.number 1), .code "b" true (.number 2)]
  have filled : value.segments = parts.map Filled.segment := rfl
  have evaluates (result : Datum Int) :
      Evaluates [("a", .number 1), ("b", .number 2)] (value.toScript id).toList result ↔ result = .number 3 :=
    Filled.evaluates_iff id filled (by decide)
  exact ⟨value, by decide +kernel, (evaluates _).2 rfl, fun joined => by cases (evaluates _).1 joined⟩

/-- A value whose first or second part is a text comes to the concatenation of all texts. -/
theorem Value.concatenates_early (resolve : String → String) {first second : Filled N} {others : List (Filled N)}
    (filled : value.segments = (first :: second :: others).map Filled.segment)
    (early : (first.datum.isNumber && second.datum.isNumber) = false) :
    Evaluates ((first :: second :: others).filterMap (Filled.given? resolve)) (value.toScript resolve).toList
      (.text (Datum.concatenated ((first :: second :: others).map Filled.datum))) :=
  (Filled.evaluates_iff _ filled (by simp [filled])).2 (Datum.sum_eq_concatenated _ early).symm

end Concatenation

end HtmlTemplate
