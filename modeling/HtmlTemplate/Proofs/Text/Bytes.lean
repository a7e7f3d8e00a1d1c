import Mathlib.Tactic.SplitIfs

/-!
# Text in bytes

Texts are written in UTF-8. Characters of ASCII are written with one byte each, and all bytes of other characters are
none of ASCII. So what looks for characters of ASCII can look at bytes, wherever it starts. Bytes tell where characters
start, so that a text can be cut at such an offset.
-/

namespace HtmlTemplate

namespace Text

/-- The bytes of characters in UTF-8. -/
def bytes (text : List Char) : List UInt8 :=
  text.flatMap String.utf8EncodeChar

/-- The characters that bytes stand for, if they are UTF-8. -/
def decode? (bytes : List UInt8) : Option (List Char) :=
  bytes.toByteArray.utf8Decode?.map Array.toList

/-- Does a character start here, or the text end? -/
def isBoundary (bytes : List UInt8) : Bool :=
  bytes.head?.all fun byte => decide byte.IsUTF8FirstByte

variable {c d : Char} {text front back : List Char}

theorem bytes_cons (c : Char) (text : List Char) : bytes (c :: text) = String.utf8EncodeChar c ++ bytes text :=
  rfl

theorem bytes_append (front back : List Char) : bytes (front ++ back) = bytes front ++ bytes back :=
  List.flatMap_append

theorem decode?_bytes (text : List Char) : decode? (bytes text) = some text := by
  change (List.utf8Encode text).utf8Decode?.map Array.toList = some text
  rw [List.utf8Decode?_utf8Encode]
  rfl

theorem bytes_inj : bytes front = bytes text ↔ front = text := by
  constructor
  · intro same
    have read := decode?_bytes front
    rw [same, decode?_bytes] at read
    exact (Option.some.inj read).symm
  · exact congrArg bytes

/-- A text starts with another one if its bytes start with the bytes of the other one. -/
theorem bytes_prefix_iff : bytes front <+: bytes text ↔ front <+: text := by
  constructor
  · rintro ⟨rest, same⟩
    refine List.isPrefix_of_utf8Encode_append_eq_utf8Encode rest.toByteArray ?_
    have joined : (bytes front).toByteArray ++ rest.toByteArray = (bytes text).toByteArray := by
      rw [← List.toByteArray_append, same]
    exact joined
  · rintro ⟨rest, rfl⟩
    exact ⟨bytes rest, (bytes_append front rest).symm⟩

/-- Strings are kept as the bytes of their characters. -/
theorem bytes_toList (string : String) : bytes string.toList = string.toByteArray.data.toList := by
  rw [← String.utf8Encode_toList, List.utf8Encode, List.toList_data_toByteArray]
  rfl

/-- The bytes of a character in a string are bytes of the string. -/
theorem mem_toByteArray {string : String} {byte : UInt8} (written : byte ∈ String.utf8EncodeChar c)
    (member : c ∈ string.toList) : byte ∈ string.toByteArray.data.toList := by
  rw [← bytes_toList]
  exact List.mem_flatMap.2 ⟨c, member, written⟩

/-- What holds of each code of ASCII holds of the characters. -/
theorem forall_ascii {motive : Char → Prop} (each : ∀ n < 128, motive (Char.ofNat n)) (ascii : c.toNat < 128) :
    motive c := by
  have own := each c.toNat ascii
  rwa [Char.ofNat_toNat] at own

/-- The letters and digits that names are made of are characters of ASCII. -/
theorem ascii_of_isAlphanum (plain : c.isAlphanum = true) : c.toNat < 128 := by
  have below : ∀ greatest : Char, greatest.toNat < 128 → c.val ≤ greatest.val → c.toNat < 128 :=
    fun greatest ascii within => Nat.lt_of_le_of_lt (UInt32.le_iff_toNat_le.1 within) ascii
  rcases Bool.or_eq_true_iff.1 plain with letter | digit
  · rcases Bool.or_eq_true_iff.1 letter with upper | lower
    · exact below 'Z' (by decide) (of_decide_eq_true upper).2
    · exact below 'z' (by decide) (of_decide_eq_true (Bool.and_eq_true_iff.1 lower).2)
  · exact below '9' (by decide) (of_decide_eq_true (Bool.and_eq_true_iff.1 digit).2)

theorem high_ofNat {n : Nat} (low : 128 ≤ n) (high : n < 256) : 128 ≤ UInt8.ofNat n := by
  rw [UInt8.le_iff_toNat_le, UInt8.toNat_ofNat', Nat.mod_eq_of_lt high]
  exact low

/-- Characters of ASCII are written with one byte, and the others with bytes that are none of ASCII. -/
theorem encode_cases (c : Char) :
    c.toNat < 128 ∧ String.utf8EncodeChar c = [c.toUInt8] ∨
      128 ≤ c.toNat ∧ ∀ byte ∈ String.utf8EncodeChar c, 128 ≤ byte := by
  unfold String.utf8EncodeChar
  dsimp only
  change (c.val.toNat < 128 ∧ _) ∨ (128 ≤ c.val.toNat ∧ _)
  split_ifs
  · exact .inl ⟨by omega, rfl⟩
  all_goals
    refine .inr ⟨by omega, ?_⟩
    repeat refine List.forall_mem_cons.2 ⟨high_ofNat (by omega) (by omega), ?_⟩
    exact fun _ none => absurd none List.not_mem_nil

/-- All bytes of a character but the first one are none of ASCII. -/
theorem exists_encode (c : Char) :
    ∃ first others, String.utf8EncodeChar c = first :: others ∧ ∀ byte ∈ others, 128 ≤ byte := by
  rcases encode_cases c with ⟨-, same⟩ | ⟨-, high⟩
  · exact ⟨_, [], same, fun _ none => absurd none List.not_mem_nil⟩
  · have full : String.utf8EncodeChar c ≠ [] := by
      have positive := c.utf8Size_pos
      rw [← String.length_utf8EncodeChar] at positive
      exact List.length_pos_iff.1 positive
    obtain ⟨first, others, same⟩ := List.exists_cons_of_ne_nil full
    exact ⟨first, others, same, fun byte member => high byte (same ▸ List.mem_cons_of_mem _ member)⟩

theorem bytes_cons_of_ascii (ascii : c.toNat < 128) (text : List Char) :
    bytes (c :: text) = c.toUInt8 :: bytes text := by
  rcases encode_cases c with ⟨-, same⟩ | ⟨other, -⟩
  · rw [bytes_cons, same]
    rfl
  · omega

theorem toUInt8_inj (ascii : c.toNat < 128) (other : d.toNat < 128) : c.toUInt8 = d.toUInt8 ↔ c = d := by
  constructor
  · intro same
    have numbers := congrArg UInt8.toNat same
    change (UInt8.ofNat c.toNat).toNat = (UInt8.ofNat d.toNat).toNat at numbers
    rw [UInt8.toNat_ofNat', UInt8.toNat_ofNat', Nat.mod_eq_of_lt (by omega), Nat.mod_eq_of_lt (by omega)] at numbers
    exact Char.toNat_inj.1 numbers
  · rintro rfl
    rfl

/-- No byte of another character is one of ASCII. -/
theorem ne_of_high {byte : UInt8} (high : 128 ≤ byte) (ascii : d.toNat < 128) : byte ≠ d.toUInt8 := by
  rintro rfl
  change 128 ≤ UInt8.ofNat d.toNat at high
  rw [UInt8.le_iff_toNat_le, UInt8.toNat_ofNat', Nat.mod_eq_of_lt (by omega)] at high
  exact absurd high (by simpa using ascii)

theorem length_bytes_pos (full : text ≠ []) : 0 < (bytes text).length := by
  obtain ⟨c, others, rfl⟩ := List.exists_cons_of_ne_nil full
  obtain ⟨first, behind, written, -⟩ := exists_encode c
  rw [bytes_cons, written]
  exact Nat.zero_lt_succ _

theorem length_bytes_le_of_prefix (starts : front <+: text) : (bytes front).length ≤ (bytes text).length := by
  obtain ⟨back, rfl⟩ := starts
  rw [bytes_append, List.length_append]
  exact Nat.le_add_right _ _

theorem length_le_length_bytes (text : List Char) : text.length ≤ (bytes text).length := by
  induction text with
  | nil => exact Nat.le_refl 0
  | cons c text hypothesis =>
      rw [bytes_cons, List.length_append, List.length_cons, String.length_utf8EncodeChar]
      have positive := c.utf8Size_pos
      omega

theorem isBoundary_bytes (text : List Char) : isBoundary (bytes text) = true := by
  cases text with
  | nil => rfl
  | cons c text =>
      have first := @UInt8.isUTF8FirstByte_getElem_zero_utf8EncodeChar c
      obtain ⟨byte, others, same, -⟩ := exists_encode c
      rw [bytes_cons, same]
      simp only [same] at first
      simpa [isBoundary] using first

/-- A text can be cut at each offset where a character starts, and no byte of a character but the first one is such. -/
theorem exists_cut_of_isBoundary {offset : Nat} (boundary : isBoundary ((bytes text).drop offset) = true) :
    ∃ front back, text = front ++ back ∧ (bytes front).length = min offset (bytes text).length := by
  induction text generalizing offset with
  | nil => exact ⟨[], [], rfl, (Nat.min_zero offset).symm⟩
  | cons c text hypothesis =>
      rw [bytes_cons] at boundary ⊢
      rcases Nat.lt_or_ge offset (String.utf8EncodeChar c).length with inside | behind
      · have start : offset = 0 := by
          rw [List.drop_append_of_le_length (Nat.le_of_lt inside), isBoundary, List.head?_append, List.head?_drop,
            List.getElem?_eq_getElem inside] at boundary
          simpa using boundary
        subst start
        exact ⟨[], c :: text, rfl, (Nat.zero_min _).symm⟩
      · rw [List.drop_append, List.drop_eq_nil_of_le behind, List.nil_append] at boundary
        obtain ⟨front, back, rfl, length⟩ := hypothesis boundary
        refine ⟨c :: front, back, rfl, ?_⟩
        rw [bytes_cons, List.length_append, List.length_append, length]
        omega

/-- Of two fronts of a text, the one with fewer bytes is a front of the other one. -/
theorem exists_between {other rest : List Char} (same : front ++ back = other ++ rest)
    (shorter : (bytes front).length < (bytes other).length) :
    ∃ c more, other = front ++ c :: more := by
  rcases List.append_eq_append_iff.1 same with ⟨more, rfl, -⟩ | ⟨more, rfl, -⟩
  · cases more with
    | nil =>
        rw [List.append_nil] at shorter
        exact absurd shorter (Nat.lt_irrefl _)
    | cons c more => exact ⟨c, more, rfl⟩
  · rw [bytes_append, List.length_append] at shorter
    omega

/-- The characters from one place in bytes up to another one, if both are places between characters. -/
def slice? (bytes : List UInt8) (first last : Nat) : Option (List Char) :=
  if isBoundary (bytes.drop first) && isBoundary (bytes.drop last) then decode? ((bytes.take last).drop first) else none

theorem slice?_bytes (front middle back : List Char) :
    slice? (bytes (front ++ (middle ++ back))) (bytes front).length (bytes (front ++ middle)).length = some middle := by
  have last : (bytes (front ++ (middle ++ back))).drop (bytes (front ++ middle)).length = bytes back := by
    rw [← List.append_assoc, bytes_append (front ++ middle), List.drop_left]
  have taken : (bytes (front ++ (middle ++ back))).take (bytes (front ++ middle)).length = bytes (front ++ middle) := by
    rw [← List.append_assoc, bytes_append (front ++ middle), List.take_left]
  unfold slice?
  rw [last, taken, bytes_append front, bytes_append front, List.drop_left, List.drop_left, isBoundary_bytes,
    isBoundary_bytes, decode?_bytes]
  rfl

/-- The byte of the lower-case letter, for letters of ASCII. -/
def lowerByte (byte : UInt8) : UInt8 :=
  if 65 ≤ byte ∧ byte ≤ 90 then byte + 32 else byte

theorem lowerByte_of_high {byte : UInt8} (high : 128 ≤ byte) : lowerByte byte = byte := by
  refine if_neg fun letter => ?_
  have low := UInt8.le_trans high letter.2
  exact absurd low (by decide)

theorem toLower_eq_self (other : 128 ≤ c.toNat) : c.toLower = c := by
  unfold Char.toLower
  split
  · next letter =>
      have low : c.toNat ≤ 90 := letter.2
      omega
  · rfl

theorem lowerByte_eq_lineFeed_iff (byte : UInt8) : lowerByte byte = '\n'.toUInt8 ↔ byte = '\n'.toUInt8 := by
  unfold lowerByte
  split
  · next letter =>
      refine iff_of_false (fun same => ?_) fun same => ?_
      · have least : 65 ≤ byte.toNat := letter.1
        have greatest : byte.toNat ≤ 90 := letter.2
        have sum : (byte.toNat + 32) % 2 ^ 8 = 10 := congrArg UInt8.toNat same
        omega
      · subst same
        exact absurd letter.1 (by decide)
  · rfl

/-- Letters are lowered byte by byte. -/
theorem encode_toLower (c : Char) : (String.utf8EncodeChar c).map lowerByte = String.utf8EncodeChar c.toLower := by
  rcases encode_cases c with ⟨ascii, -⟩ | ⟨other, high⟩
  · have each : ∀ n < 128, (String.utf8EncodeChar (Char.ofNat n)).map lowerByte =
        String.utf8EncodeChar (Char.ofNat n).toLower := by decide
    exact forall_ascii (motive := fun c => (String.utf8EncodeChar c).map lowerByte = String.utf8EncodeChar c.toLower)
      each ascii
  · rw [toLower_eq_self other]
    exact (List.map_congr_left fun byte member => lowerByte_of_high (high byte member)).trans (List.map_id _)

theorem bytes_toLower (text : List Char) : (bytes text).map lowerByte = bytes (text.map Char.toLower) := by
  induction text with
  | nil => rfl
  | cons c text hypothesis => rw [bytes_cons, List.map_append, hypothesis, encode_toLower, List.map_cons, bytes_cons]

end Text

end HtmlTemplate
