import HtmlTemplate.Markup.Reference
import HtmlTemplate.Proofs.Text.Bytes
import HtmlTemplate.Text.Escape
import Mathlib.Data.List.Basic

/-!
# Escaped texts are read back

Escaping writes some characters as references and leaves all others alone. The references that it writes have names
that no other name goes on from, so they are resolved to the characters that they were written for, whatever follows
them. So resolving the references of an escaped text gives the text back, also where the text itself looks like
references, and escaped texts hold none of the characters that would end them.
-/

namespace HtmlTemplate
namespace Markup
namespace Reference

variable {c first : Char} {name more : List Char} {written : Char → List Char} {inAttribute : Bool}

/-! ## Names that are resolved whatever follows them -/

/-- No name of the table goes on from the name. -/
def IsFinal (name : List Char) : Prop :=
  ∀ entry ∈ name.head?.elim [] referencesFrom, name <+: entry.1.toList → entry.1.toList = name

theorem isFinal_iff (name : List Char) : IsFinal name ↔ ∀ entry ∈ name.head?.elim [] referencesFrom,
    Text.bytes name <+: entry.1.toByteArray.data.toList → entry.1.toByteArray.data.toList = Text.bytes name := by
  refine forall₂_congr fun entry _ => ?_
  rw [← Text.bytes_toList, Text.bytes_prefix_iff, Text.bytes_inj]

-- The table is looked through by the bytes of its names, for they need not be decoded.
instance (name : List Char) : Decidable (IsFinal name) :=
  decidable_of_iff _ (isFinal_iff name).symm

/-- The longest name is one of those whose bytes the bytes of the text start with. -/
theorem longestName?_eq_some {entry found : String × List Nat} {entries : List (String × List Nat)}
    (begins : (referencesFrom first).filter (fun entry =>
      entry.1.toByteArray.data.toList.isPrefixOf (Text.bytes (first :: more))) = entry :: entries)
    (longest : entries.foldl longer entry = found) : longestName? (first :: more) = some found := by
  have same : ∀ entry ∈ referencesFrom first, entry.1.toList.isPrefixOf (first :: more) =
      entry.1.toByteArray.data.toList.isPrefixOf (Text.bytes (first :: more)) := by
    intro entry _
    rw [Bool.eq_iff_iff, List.isPrefixOf_iff_prefix, List.isPrefixOf_iff_prefix, ← Text.bytes_toList,
      Text.bytes_prefix_iff]
  unfold longestName?
  dsimp only
  rw [List.filter_congr same, begins]
  exact congrArg some longest

/-- What follows a name that no other one goes on from has no influence on what is read. -/
theorem longestName?_append (final : IsFinal (first :: more)) (rest : List Char) :
    longestName? (first :: more ++ rest) = longestName? (first :: more) := by
  have same : ∀ entry ∈ referencesFrom first, entry.1.toList.isPrefixOf (first :: more ++ rest) =
      entry.1.toList.isPrefixOf (first :: more) := by
    intro entry member
    rw [Bool.eq_iff_iff, List.isPrefixOf_iff_prefix, List.isPrefixOf_iff_prefix]
    constructor
    · intro starts
      rcases List.prefix_or_prefix_of_prefix starts (List.prefix_append _ rest) with within | beyond
      · exact within
      · exact final entry member beyond ▸ List.prefix_refl _
    · exact fun within => within.trans (List.prefix_append _ rest)
  unfold longestName?
  rw [List.cons_append]
  dsimp only
  rw [← List.cons_append, List.filter_congr same]

/-- The name is read as a reference to the character, whatever follows it. -/
def Names (name : List Char) (c : Char) : Prop :=
  ∀ inAttribute rest, read? inAttribute (name ++ rest) = some ([c], name.length)

theorem names_of_longestName? {name : String} (letters : name.toList = first :: more) (plain : first ≠ '#')
    (closed : ";".toList <:+ first :: more) (final : IsFinal (first :: more))
    (longest : longestName? (first :: more) = some (name, [c.toNat])) : Names name.toList c := by
  intro inAttribute rest
  have noNumber : numbered? (first :: more ++ rest) = none := by
    unfold numbered?
    split <;> simp_all
  have ends : name.endsWith ";" = true := by
    rw [String.endsWith_eq_endsWith_toSlice, String.Slice.endsWith_string_iff, String.copy_toSlice, letters]
    exact closed
  unfold read? named?
  rw [letters, noNumber, Option.none_or, longestName?_append final, longest]
  simp only [Option.bind_eq_bind, Option.bind_some, ends, Bool.not_true, Bool.and_false, Bool.false_and,
    Bool.false_eq_true, if_false, Option.pure_def, List.map_cons, List.map_nil, Char.ofNat_toNat, ← letters,
    String.length_toList]

theorem names_amp : Names "amp;".toList '&' :=
  names_of_longestName? (String.toList_ofList (l := ['a', 'm', 'p', ';'])) (by decide) (by decide) (by decide)
    (longestName?_eq_some rfl (by decide))

theorem names_lt : Names "lt;".toList '<' :=
  names_of_longestName? (String.toList_ofList (l := ['l', 't', ';'])) (by decide) (by decide) (by decide +kernel)
    (longestName?_eq_some rfl (by decide))

theorem names_gt : Names "gt;".toList '>' :=
  names_of_longestName? (String.toList_ofList (l := ['g', 't', ';'])) (by decide) (by decide) (by decide)
    (longestName?_eq_some rfl (by decide))

theorem names_quot : Names "quot;".toList '"' :=
  names_of_longestName? (String.toList_ofList (l := ['q', 'u', 'o', 't', ';'])) (by decide) (by decide) (by decide)
    (longestName?_eq_some rfl (by decide))

/-! ## Texts with references for some of their characters -/

/-- Characters are written as they are, or as references by the names. No ampersand is written as it is. -/
structure Writes (written : Char → List Char) (names : List String) : Prop where
  /-- A character is written as itself, or it is what one of the names stands for. -/
  cases : ∀ c, written c = [c] ∧ c ≠ '&' ∨ ∃ name ∈ names, written c = '&' :: name.toList ∧ Names name.toList c
  /-- The names hold no ampersands. -/
  plain : ∀ name ∈ names, '&' ∉ name.toList

/-- Behind each ampersand of the text stands one of the names. -/
def OnlyBegins (names : List String) (text : List Char) : Prop :=
  ∀ back, '&' :: back <:+ text → ∃ name ∈ names, name.toList <+: back

variable {names : List String}

theorem decodeFrom_skip (inAttribute : Bool) (front rest : List Char) :
    decodeFrom inAttribute front.length (front ++ rest) = decode inAttribute rest := by
  induction front with
  | nil => rfl
  | cons c front hypothesis => exact hypothesis

/-- References are resolved to the characters that they were written for. -/
theorem Writes.decode_flatMap (writes : Writes written names) (inAttribute : Bool) (text : List Char) :
    decode inAttribute (text.flatMap written) = text := by
  induction text with
  | nil => rfl
  | cons c text hypothesis =>
      rw [List.flatMap_cons]
      rcases writes.cases c with ⟨same, other⟩ | ⟨name, -, same, stands⟩
      · rw [same, List.singleton_append, decode, decodeFrom, if_neg (by simpa using other)]
        exact congrArg (c :: ·) hypothesis
      · rw [same, List.cons_append, decode, decodeFrom, if_pos (beq_self_eq_true _), stands]
        dsimp only
        rw [decodeFrom_skip, hypothesis]
        rfl

theorem suffix_of_notMem {front back rest : List Char} (plain : '&' ∉ front) (ends : '&' :: back <:+ front ++ rest) :
    '&' :: back <:+ rest := by
  induction front with
  | nil => exact ends
  | cons d front hypothesis =>
      rw [List.mem_cons, not_or] at plain
      rcases List.suffix_cons_iff.1 ends with here | later
      · exact absurd (List.cons.inj here).1 plain.1
      · exact hypothesis plain.2 later

/-- Ampersands stand in a written text only where references begin. -/
theorem Writes.onlyBegins (writes : Writes written names) (text : List Char) :
    OnlyBegins names (text.flatMap written) := by
  induction text with
  | nil => exact fun back ends => absurd (List.suffix_nil.1 ends) (by simp)
  | cons c text hypothesis =>
      intro back ends
      rw [List.flatMap_cons] at ends
      rcases writes.cases c with ⟨same, other⟩ | ⟨name, member, same, -⟩
      · rw [same] at ends
        exact hypothesis back (suffix_of_notMem (by simpa using other.symm) ends)
      · rw [same, List.cons_append] at ends
        rcases List.suffix_cons_iff.1 ends with here | later
        · exact ⟨name, member, (List.cons.inj here).2 ▸ List.prefix_append _ _⟩
        · exact hypothesis back (suffix_of_notMem (writes.plain name member) later)

end Reference
end Markup

namespace Text

open Markup

/-! ## Escaping by replacements -/

/-- A text with every occurrence of a character replaced. -/
def replaceAll (c : Char) (replacement : String) (text : List Char) : List Char :=
  text.flatMap fun d => if d = c then replacement.toList else [d]

theorem escapeTextChar_cases (c : Char) :
    (c = '&' ∧ escapeTextChar c = '&' :: "amp;".toList) ∨ (c = '<' ∧ escapeTextChar c = '&' :: "lt;".toList) ∨
      (c = '>' ∧ escapeTextChar c = '&' :: "gt;".toList) ∨
      (c ≠ '&' ∧ c ≠ '<' ∧ c ≠ '>' ∧ escapeTextChar c = [c]) := by
  unfold escapeTextChar
  split
  · exact .inl ⟨rfl, rfl⟩
  · exact .inr (.inl ⟨rfl, rfl⟩)
  · exact .inr (.inr (.inl ⟨rfl, rfl⟩))
  · next noAmpersand noLess noGreater => exact .inr (.inr (.inr ⟨noAmpersand, noLess, noGreater, rfl⟩))

theorem escapeAttributeChar_cases (c : Char) :
    (c = '&' ∧ escapeAttributeChar c = '&' :: "amp;".toList) ∨
      (c = '"' ∧ escapeAttributeChar c = '&' :: "quot;".toList) ∨
      (c ≠ '&' ∧ c ≠ '"' ∧ escapeAttributeChar c = [c]) := by
  unfold escapeAttributeChar
  split
  · exact .inl ⟨rfl, rfl⟩
  · exact .inr (.inl ⟨rfl, rfl⟩)
  · next noAmpersand noQuote => exact .inr (.inr ⟨noAmpersand, noQuote, rfl⟩)

/-- Ampersands are replaced first, so that no replacement touches what another one wrote. -/
theorem flatMap_escapeTextChar (text : List Char) :
    text.flatMap escapeTextChar = replaceAll '>' "&gt;" (replaceAll '<' "&lt;" (replaceAll '&' "&amp;" text)) := by
  unfold replaceAll
  rw [List.flatMap_assoc, List.flatMap_assoc]
  refine List.flatMap_congr fun c _ => ?_
  rcases escapeTextChar_cases c with ⟨rfl, -⟩ | ⟨rfl, -⟩ | ⟨rfl, -⟩ | ⟨noAmpersand, noLess, noGreater, same⟩
  · decide
  · decide
  · decide
  · rw [same, if_neg noAmpersand, List.flatMap_singleton, if_neg noLess, List.flatMap_singleton, if_neg noGreater]

theorem flatMap_escapeAttributeChar (text : List Char) :
    text.flatMap escapeAttributeChar = replaceAll '"' "&quot;" (replaceAll '&' "&amp;" text) := by
  unfold replaceAll
  rw [List.flatMap_assoc]
  refine List.flatMap_congr fun c _ => ?_
  rcases escapeAttributeChar_cases c with ⟨rfl, -⟩ | ⟨rfl, -⟩ | ⟨noAmpersand, noQuote, same⟩
  · decide
  · decide
  · rw [same, if_neg noAmpersand, List.flatMap_singleton, if_neg noQuote]

/-! ## What is written -/

theorem writes_escapeTextChar : Reference.Writes escapeTextChar ["amp;", "lt;", "gt;"] where
  cases c := by
    rcases escapeTextChar_cases c with ⟨rfl, same⟩ | ⟨rfl, same⟩ | ⟨rfl, same⟩ | ⟨noAmpersand, -, -, same⟩
    · exact .inr ⟨"amp;", by decide, same, Reference.names_amp⟩
    · exact .inr ⟨"lt;", by decide, same, Reference.names_lt⟩
    · exact .inr ⟨"gt;", by decide, same, Reference.names_gt⟩
    · exact .inl ⟨same, noAmpersand⟩
  plain := by decide

theorem writes_escapeAttributeChar : Reference.Writes escapeAttributeChar ["amp;", "quot;"] where
  cases c := by
    rcases escapeAttributeChar_cases c with ⟨rfl, same⟩ | ⟨rfl, same⟩ | ⟨noAmpersand, -, same⟩
    · exact .inr ⟨"amp;", by decide, same, Reference.names_amp⟩
    · exact .inr ⟨"quot;", by decide, same, Reference.names_quot⟩
    · exact .inl ⟨same, noAmpersand⟩
  plain := by decide

theorem notMem_escapeTextChar {mark : Char} (delimits : mark = '<' ∨ mark = '>') (c : Char) :
    mark ∉ escapeTextChar c := by
  rcases escapeTextChar_cases c with ⟨-, same⟩ | ⟨-, same⟩ | ⟨-, same⟩ | ⟨-, noLess, noGreater, same⟩
  · rw [same]; rcases delimits with rfl | rfl <;> decide
  · rw [same]; rcases delimits with rfl | rfl <;> decide
  · rw [same]; rcases delimits with rfl | rfl <;> decide
  · rw [same, List.mem_singleton]
    rcases delimits with rfl | rfl
    · exact noLess.symm
    · exact noGreater.symm

theorem notMem_escapeAttributeChar (c : Char) : '"' ∉ escapeAttributeChar c := by
  rcases escapeAttributeChar_cases c with ⟨-, same⟩ | ⟨-, same⟩ | ⟨-, noQuote, same⟩
  · rw [same]; decide
  · rw [same]; decide
  · rw [same, List.mem_singleton]
    exact noQuote.symm

/-- Escaping can be taken back and leaves no delimiter. An escaped text holds neither bracket, an escaped value holds no
quote, and an ampersand stands in them only where one of the references begins that were written. These are the texts
that come of replacing one character after the other, ampersands first. To resolve their references as they are resolved
in content and in values of attributes gives the text back, whatever it looked like. -/
theorem decode_escape (value : String) :
    ('<' ∉ (escapeText value).toList ∧ '>' ∉ (escapeText value).toList ∧
      Reference.OnlyBegins ["amp;", "lt;", "gt;"] (escapeText value).toList ∧
      (escapeText value).toList =
        replaceAll '>' "&gt;" (replaceAll '<' "&lt;" (replaceAll '&' "&amp;" value.toList)) ∧
      Reference.decode false (escapeText value).toList = value.toList) ∧
    ('"' ∉ (escapeAttribute value).toList ∧
      Reference.OnlyBegins ["amp;", "quot;"] (escapeAttribute value).toList ∧
      (escapeAttribute value).toList = replaceAll '"' "&quot;" (replaceAll '&' "&amp;" value.toList) ∧
      Reference.decode true (escapeAttribute value).toList = value.toList) := by
  unfold escapeText escapeAttribute
  rw [String.toList_ofList, String.toList_ofList]
  have free {written : Char → List Char} {mark : Char} (each : ∀ c, mark ∉ written c) :
      mark ∉ value.toList.flatMap written := by
    intro member
    obtain ⟨c, -, inside⟩ := List.mem_flatMap.1 member
    exact each c inside
  refine ⟨⟨?_, ?_, ?_, ?_, ?_⟩, ?_, ?_, ?_, ?_⟩
  · exact free (notMem_escapeTextChar (.inl rfl))
  · exact free (notMem_escapeTextChar (.inr rfl))
  · exact writes_escapeTextChar.onlyBegins _
  · exact flatMap_escapeTextChar _
  · exact writes_escapeTextChar.decode_flatMap false _
  · exact free notMem_escapeAttributeChar
  · exact writes_escapeAttributeChar.onlyBegins _
  · exact flatMap_escapeAttributeChar _
  · exact writes_escapeAttributeChar.decode_flatMap true _

end Text
end HtmlTemplate
