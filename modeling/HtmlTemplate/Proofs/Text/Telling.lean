import HtmlTemplate.Text.Quoted
import Mathlib.Data.List.Basic

/-!
# Texts that tell what they are written for

A value can be told from a longer text that it is written into if its own text shows where it ends, whatever
stands behind it. Texts that do so, one after the other or between separators, tell all the values. Debug quotations
and JSON strings tell what is quoted: a character is read back from its written form, whatever follows it.
-/

namespace HtmlTemplate

/-- The texts that are written for fit values tell their `view`, whatever stands behind them, and start with
characters that stand out by `begins`. -/
structure Tells {α β : Type} (fit : α → Prop) (view : α → β) (begins : Char → Prop) (write : α → List Char) : Prop where
  view_eq : ∀ {first second : α} {behind beyond : List Char}, fit first → fit second →
    write first ++ behind = write second ++ beyond → view first = view second ∧ behind = beyond
  starts : ∀ value, fit value → ∃ c rest, write value = c :: rest ∧ begins c

namespace Tells

/-- What stands in front of the first character of a kind, and what stands behind it. -/
theorem eq_of_append_cons {α : Type} {mark : α} {first second behind beyond : List α} (absent : mark ∉ first)
    (alsoAbsent : mark ∉ second) (equal : first ++ mark :: behind = second ++ mark :: beyond) :
    first = second ∧ behind = beyond := by
  rcases List.append_eq_append_iff.1 equal with ⟨more, rfl, rest⟩ | ⟨more, rfl, rest⟩
  · cases more with
    | nil => exact ⟨(List.append_nil _).symm, (List.cons.inj rest).2⟩
    | cons c more =>
      obtain ⟨rfl, -⟩ := List.cons.inj rest
      exact absurd (List.mem_append_right _ List.mem_cons_self) alsoAbsent
  · cases more with
    | nil => exact ⟨List.append_nil _, (List.cons.inj rest).2.symm⟩
    | cons c more =>
      obtain ⟨rfl, -⟩ := List.cons.inj rest
      exact absurd (List.mem_append_right _ List.mem_cons_self) absent

/-- What stands behind the last character of a kind. -/
theorem eq_of_append_cons_last {α : Type} {mark : α} {first second behind beyond : List α} (absent : mark ∉ behind)
    (alsoAbsent : mark ∉ beyond) (equal : first ++ mark :: behind = second ++ mark :: beyond) : behind = beyond := by
  have reversed := congrArg List.reverse equal
  simp only [List.reverse_append, List.reverse_cons, List.append_assoc, List.singleton_append] at reversed
  exact List.reverse_injective (eq_of_append_cons (by simpa using absent) (by simpa using alsoAbsent) reversed).1

variable {α β : Type} {fit : α → Prop} {view : α → β} {begins : Char → Prop} {write : α → List Char}
  {behind beyond : List Char}

/-- Texts that stand one after the other tell all their values. -/
theorem flatMap (tells : Tells fit view begins write) {first second : List α} (firstFit : ∀ value ∈ first, fit value)
    (secondFit : ∀ value ∈ second, fit value) (stops : ∀ c rest, behind = c :: rest → ¬begins c)
    (alsoStops : ∀ c rest, beyond = c :: rest → ¬begins c)
    (equal : first.flatMap write ++ behind = second.flatMap write ++ beyond) :
    first.map view = second.map view ∧ behind = beyond := by
  induction first generalizing second with
  | nil =>
    cases second with
    | nil => exact ⟨rfl, equal⟩
    | cons value others =>
      obtain ⟨c, rest, written, begun⟩ := tells.starts value (secondFit value List.mem_cons_self)
      rw [List.flatMap_cons, written] at equal
      exact absurd begun (stops c _ equal)
  | cons value first hypothesis =>
    cases second with
    | nil =>
      obtain ⟨c, rest, written, begun⟩ := tells.starts value (firstFit value List.mem_cons_self)
      rw [List.flatMap_cons, written] at equal
      exact absurd begun (alsoStops c _ equal.symm)
    | cons other second =>
      obtain ⟨fits, firstFit⟩ := List.forall_mem_cons.1 firstFit
      obtain ⟨alsoFits, secondFit⟩ := List.forall_mem_cons.1 secondFit
      rw [List.flatMap_cons, List.flatMap_cons, List.append_assoc, List.append_assoc] at equal
      obtain ⟨same, rest⟩ := tells.view_eq fits alsoFits equal
      obtain ⟨others, ends⟩ := hypothesis firstFit secondFit rest
      exact ⟨by rw [List.map_cons, List.map_cons, same, others], ends⟩

/-- Texts that stand one after the other in front of a mark do not look like texts of another kind. -/
theorem stops_flatMap (tells : Tells fit view begins write) {values : List α} (allFit : ∀ value ∈ values, fit value)
    {other : Char → Prop} (apart : ∀ c, begins c → ¬other c) {mark : Char} (ends : ¬other mark) {rest : List Char} :
    ∀ c others, values.flatMap write ++ mark :: rest = c :: others → ¬other c := by
  intro c others equal
  cases values with
  | nil => exact (List.cons.inj equal).1 ▸ ends
  | cons value values =>
    obtain ⟨d, text, written, begun⟩ := tells.starts value (allFit value List.mem_cons_self)
    rw [List.flatMap_cons, written] at equal
    exact apart c ((List.cons.inj equal).1 ▸ begun)

/-- Texts for truth values tell them if they start with different characters. -/
theorem ofBool {write : Bool → List Char} {ifFalse ifTrue : Char} {restFalse restTrue : List Char}
    (whenFalse : write false = ifFalse :: restFalse) (whenTrue : write true = ifTrue :: restTrue)
    (different : ifFalse ≠ ifTrue) (beginsFalse : begins ifFalse) (beginsTrue : begins ifTrue) :
    Tells (fun _ => True) id begins write where
  view_eq {first second behind beyond} _ _ equal := by
    cases first with
    | false =>
      cases second with
      | false => exact ⟨rfl, List.append_cancel_left equal⟩
      | true =>
        rw [whenFalse, whenTrue] at equal
        exact absurd (List.cons.inj equal).1 different
    | true =>
      cases second with
      | false =>
        rw [whenFalse, whenTrue] at equal
        exact absurd (List.cons.inj equal).1 different.symm
      | true => exact ⟨rfl, List.append_cancel_left equal⟩
  starts value _ := by
    cases value with
    | false => exact ⟨_, _, whenFalse, beginsFalse⟩
    | true => exact ⟨_, _, whenTrue, beginsTrue⟩

/-- What is told stays told behind a fixed text. -/
theorem behindText (tells : Tells fit view begins write) (c : Char) (text : List Char) :
    Tells fit view (· = c) fun value => c :: text ++ write value where
  view_eq fits alsoFits equal := by
    rw [List.append_assoc, List.append_assoc, List.append_cancel_left_eq] at equal
    exact tells.view_eq fits alsoFits equal
  starts _ _ := ⟨c, _, rfl, rfl⟩

theorem intercalate_cons (separator first : List Char) (others : List (List Char)) :
    separator.intercalate (first :: others) = first ++ others.flatMap (separator ++ ·) := by
  induction others generalizing first with
  | nil => simp
  | cons second others hypothesis =>
    rw [List.intercalate_cons_cons, hypothesis, List.flatMap_cons]
    simp only [List.append_assoc]

/-- Texts between separators tell all their values, in front of a character that shows that they end. -/
theorem separated {write : α → String} (tells : Tells fit view begins fun value => (write value).toList)
    (close : Char) (comma : close ≠ ',') (stops : ¬begins close) {first second : List α}
    (firstFit : ∀ value ∈ first, fit value) (secondFit : ∀ value ∈ second, fit value)
    (equal : (String.intercalate ", " (first.map write)).toList ++ close :: behind =
      (String.intercalate ", " (second.map write)).toList ++ close :: beyond) :
    first.map view = second.map view ∧ behind = beyond := by
  have listed : ∀ values : List α, (String.intercalate ", " (values.map write)).toList =
      [',', ' '].intercalate (values.map fun value => (write value).toList) := by
    intro values
    rw [String.toList_intercalate, List.map_map]
    rfl
  rw [listed, listed] at equal
  cases first with
  | nil =>
    cases second with
    | nil => exact ⟨rfl, (List.cons.inj equal).2⟩
    | cons value others =>
      obtain ⟨c, rest, written, begun⟩ := tells.starts value (secondFit value List.mem_cons_self)
      rw [List.map_cons, intercalate_cons, written] at equal
      exact absurd ((List.cons.inj equal).1 ▸ begun) stops
  | cons value first =>
    cases second with
    | nil =>
      obtain ⟨c, rest, written, begun⟩ := tells.starts value (firstFit value List.mem_cons_self)
      rw [List.map_cons, intercalate_cons, written] at equal
      exact absurd ((List.cons.inj equal).1 ▸ begun) stops
    | cons other second =>
      obtain ⟨fits, firstFit⟩ := List.forall_mem_cons.1 firstFit
      obtain ⟨alsoFits, secondFit⟩ := List.forall_mem_cons.1 secondFit
      rw [List.map_cons, List.map_cons, intercalate_cons, intercalate_cons, List.append_assoc, List.append_assoc] at equal
      obtain ⟨same, rest⟩ := tells.view_eq fits alsoFits equal
      rw [List.flatMap_map, List.flatMap_map] at rest
      obtain ⟨others, ends⟩ := (tells.behindText ',' [' ']).flatMap firstFit secondFit
        (fun c _ starts => (List.cons.inj starts).1 ▸ comma) (fun c _ starts => (List.cons.inj starts).1 ▸ comma) rest
      exact ⟨by rw [List.map_cons, List.map_cons, same, others], (List.cons.inj ends).2⟩

end Tells

namespace Text

/-! ## Quotations -/

/-- Characters are told by written forms that are read back, whatever stands behind them. -/
theorem tells_of_read {read : List Char → Option (Char × List Char)} {write : Char → List Char}
    (reads : ∀ c rest, read (write c ++ rest) = some (c, rest))
    (starts : ∀ c, ∃ d rest, write c = d :: rest ∧ d ≠ '"') : Tells (fun _ => True) id (· ≠ '"') write where
  view_eq {first second behind beyond} _ _ equal := by
    have found := reads first behind
    rw [equal, reads] at found
    exact ⟨(Prod.mk.inj (Option.some.inj found)).1.symm, (Prod.mk.inj (Option.some.inj found)).2.symm⟩
  starts c _ := starts c

/-- What is written between quotes is told if its characters are, and none of them is written like a quote. -/
theorem tells_quoted {write : Char → List Char} (tells : Tells (fun _ => True) id (· ≠ '"') write) :
    Tells (fun _ : String => True) id (· = '"') fun value =>
      (String.ofList ('"' :: value.toList.flatMap write ++ ['"'])).toList where
  view_eq {first second behind beyond} _ _ equal := by
    rw [String.toList_ofList, String.toList_ofList, List.cons_append, List.cons_append, List.cons_append,
      List.cons_append, List.append_assoc, List.append_assoc] at equal
    obtain ⟨same, rest⟩ := tells.flatMap (fun _ _ => trivial) (fun _ _ => trivial)
      (fun c _ starts different => different (List.cons.inj starts).1.symm)
      (fun c _ starts different => different (List.cons.inj starts).1.symm) (List.cons.inj equal).2
    rw [List.map_id, List.map_id] at same
    exact ⟨String.toList_inj.1 same, (List.cons.inj rest).2⟩
  starts _ _ := ⟨'"', _, String.toList_ofList, rfl⟩

/-! ## Numbers in base sixteen -/

theorem hexNumber_digitChar :
    ∀ n < 16, isHexDigit (Nat.digitChar n) = true ∧ (hexValue? (Nat.digitChar n)).getD 0 = n := by
  decide

theorem hexNumber_append (digits : List Char) (last : Char) :
    hexNumber (digits ++ [last]) = hexNumber digits * 16 + (hexValue? last).getD 0 := by
  simp only [hexNumber, List.foldl_append, List.foldl_cons, List.foldl_nil]

/-- A number is read back from its digits. -/
theorem hexNumber_hex (n : Nat) : hexNumber (hex n) = n ∧ ∀ c ∈ hex n, isHexDigit c = true := by
  unfold hex
  induction n using Nat.strongRecOn with
  | ind n hypothesis =>
    by_cases small : n < 16
    · obtain ⟨digit, value⟩ := hexNumber_digitChar n small
      rw [Nat.toDigits_of_lt_base small]
      refine ⟨?_, fun c member => List.mem_singleton.1 member ▸ digit⟩
      rw [← List.nil_append [n.digitChar], hexNumber_append, value]
      exact Nat.zero_add n
    · obtain ⟨number, digits⟩ := hypothesis (n / 16) (by omega)
      obtain ⟨digit, value⟩ := hexNumber_digitChar (n % 16) (by omega)
      rw [Nat.toDigits_of_base_le (by decide) (by omega)]
      constructor
      · rw [hexNumber_append, number, value]
        omega
      · intro c member
        rcases List.mem_append.1 member with member | member
        · exact digits c member
        · exact List.mem_singleton.1 member ▸ digit

/-! ## Debug quotations -/

/-- The character whose written form in a debug quotation a text starts with, and the text behind it. -/
def readDebugChar : List Char → Option (Char × List Char)
  | '\\' :: '0' :: rest => some ('\x00', rest)
  | '\\' :: 'n' :: rest => some ('\n', rest)
  | '\\' :: 'r' :: rest => some ('\r', rest)
  | '\\' :: 't' :: rest => some ('\t', rest)
  | '\\' :: 'u' :: '\x7b' :: rest =>
      let digits := rest.takeWhile isHexDigit
      some (Char.ofNat (hexNumber digits), rest.drop (digits.length + 1))
  | '\\' :: c :: rest => some (c, rest)
  | c :: rest => some (c, rest)
  | [] => none

theorem readDebugChar_plain {c : Char} {rest : List Char} (plain : c ≠ '\\') :
    readDebugChar (c :: rest) = some (c, rest) := by
  unfold readDebugChar
  split <;> simp_all

theorem readDebugChar_hex (c : Char) (rest : List Char) :
    readDebugChar ('\\' :: 'u' :: '\x7b' :: hex c.toNat ++ ['\x7d'] ++ rest) = some (c, rest) := by
  obtain ⟨number, digits⟩ := hexNumber_hex c.toNat
  have run : (hex c.toNat ++ '\x7d' :: rest).takeWhile isHexDigit = hex c.toNat := by
    rw [List.takeWhile_append_of_pos digits, List.takeWhile_cons_of_neg (by decide), List.append_nil]
  change readDebugChar ('\\' :: 'u' :: '\x7b' :: (hex c.toNat ++ ['\x7d'] ++ rest)) = _
  rw [List.append_assoc, List.singleton_append, readDebugChar]
  rw [run, number, ← List.drop_drop, List.drop_left, Char.ofNat_toNat]
  rfl

/-- A character is read back from its written form. -/
theorem readDebugChar_debugChar (c : Char) (rest : List Char) :
    readDebugChar (debugChar c ++ rest) = some (c, rest) := by
  unfold debugChar
  split_ifs with quote backslash
  rotate_right 2
  · exact readDebugChar_plain (by simpa using backslash)
  · exact readDebugChar_hex c rest
  all_goals simp_all [readDebugChar]

theorem head?_debugChar (c : Char) : ∃ d rest, debugChar c = d :: rest ∧ d ≠ '"' := by
  unfold debugChar
  split_ifs with quote
  rotate_right 2
  · exact ⟨c, [], rfl, by simpa using quote⟩
  all_goals exact ⟨_, _, rfl, by decide⟩

/-- No character is written with the one that has no bits. -/
theorem nul_notMem_debugChar (c : Char) : '\x00' ∉ debugChar c := by
  unfold debugChar
  split_ifs with quote backslash nul
  rotate_right 2
  · simpa using Ne.symm (by simpa using nul : c ≠ '\x00')
  · intro member
    have digits := (hexNumber_hex c.toNat).2 '\x00'
    simp only [List.mem_cons, List.mem_append, List.not_mem_nil, or_false] at member
    rcases member with (impossible | impossible | impossible | member) | impossible
    · exact absurd impossible (by decide)
    · exact absurd impossible (by decide)
    · exact absurd impossible (by decide)
    · exact absurd (digits member) (by decide)
    · exact absurd impossible (by decide)
  all_goals decide

/-- A debug quotation tells what is quoted. -/
theorem tells_debugString : Tells (fun _ : String => True) id (· = '"') fun value => (debugString value).toList :=
  tells_quoted (tells_of_read readDebugChar_debugChar head?_debugChar)

/-! ## JSON strings -/

/-- The character whose written form in a JSON string a text starts with, and the text behind it. -/
def readJsonChar : List Char → Option (Char × List Char)
  | '\\' :: 'b' :: rest => some ('\x08', rest)
  | '\\' :: 'f' :: rest => some ('\x0c', rest)
  | '\\' :: 'n' :: rest => some ('\n', rest)
  | '\\' :: 'r' :: rest => some ('\r', rest)
  | '\\' :: 't' :: rest => some ('\t', rest)
  | '\\' :: 'u' :: _ :: _ :: a :: b :: rest => some (Char.ofNat (hexNumber [a, b]), rest)
  | '\\' :: c :: rest => some (c, rest)
  | c :: rest => some (c, rest)
  | [] => none

/-- Control characters are written with two digits that tell which one it is. -/
theorem hexPadded_control :
    ∀ n < 0x20, ∃ a b, hexPadded 4 n = ['0', '0', a, b] ∧ hexNumber [a, b] = n ∧ [a, b].all isHexDigit = true := by
  have each : ∀ n < 0x20, hexPadded 4 n = ['0', '0', (hexPadded 4 n).getD 2 ' ', (hexPadded 4 n).getD 3 ' '] ∧
      hexNumber [(hexPadded 4 n).getD 2 ' ', (hexPadded 4 n).getD 3 ' '] = n ∧
      [(hexPadded 4 n).getD 2 ' ', (hexPadded 4 n).getD 3 ' '].all isHexDigit = true := by decide
  exact fun n small => ⟨_, _, each n small⟩

theorem readJsonChar_plain {c : Char} {rest : List Char} (plain : c ≠ '\\') :
    readJsonChar (c :: rest) = some (c, rest) := by
  unfold readJsonChar
  split <;> simp_all

/-- A character is read back from its written form. -/
theorem readJsonChar_jsonChar (c : Char) (rest : List Char) :
    readJsonChar (jsonChar c ++ rest) = some (c, rest) := by
  unfold jsonChar
  split_ifs with quote backslash _ _ _ _ _ small
  rotate_left 7
  · obtain ⟨a, b, written, number, -⟩ := hexPadded_control c.toNat small
    rw [written]
    simp only [List.cons_append, List.nil_append, readJsonChar, number, Char.ofNat_toNat]
  · exact readJsonChar_plain (by simpa using backslash)
  all_goals simp_all [readJsonChar]

theorem head?_jsonChar (c : Char) : ∃ d rest, jsonChar c = d :: rest ∧ d ≠ '"' := by
  unfold jsonChar
  split_ifs with quote
  rotate_right 1
  · exact ⟨c, [], rfl, by simpa using quote⟩
  all_goals exact ⟨_, _, rfl, by decide⟩

/-- A JSON string tells what is in it. -/
theorem tells_jsonString : Tells (fun _ : String => True) id (· = '"') fun value => (jsonString value).toList :=
  tells_quoted (tells_of_read readJsonChar_jsonChar head?_jsonChar)

/-- Different texts have different JSON strings. -/
theorem jsonString_injective : Function.Injective jsonString := by
  intro first second equal
  have texts : (jsonString first).toList ++ [] = (jsonString second).toList ++ [] := by rw [equal]
  exact (tells_jsonString.view_eq trivial trivial texts).1

end Text

end HtmlTemplate
