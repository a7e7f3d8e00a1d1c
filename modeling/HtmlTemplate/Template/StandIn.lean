import HtmlTemplate.Placeholder
import HtmlTemplate.Text.Character

/-!
# Stand-ins for placeholders

Code may hold anything that markup gives a meaning to, so that placeholders are taken out of a template
before its markup is read. A stand-in, which is a plain word with a number, is left in the place of each
one, and is found again in the texts that the markup is read as.
-/

namespace HtmlTemplate
namespace StandIn

/-- How a stand-in starts. -/
def opening : List Char :=
  "__tpl_expr_".toList

/-- How a stand-in ends. -/
def closing : List Char :=
  "__".toList

/-- The stand-in with a number. -/
def ofNumber (number : Nat) : List Char :=
  opening ++ (toString number).toList ++ closing

/-- The text that pieces leave for markup: stand-ins in the place of the placeholders, in order. -/
def hide (number : Nat) : List Piece → List Char
  | [] => []
  | .text source :: pieces => source ++ hide number pieces
  | .code _ :: pieces => ofNumber number ++ hide (number + 1) pieces

/-- The digits of the stand-in that a text starts with, and the text behind it. -/
def read? (text : List Char) : Option (List Char × List Char) :=
  if opening.isPrefixOf text then
    let digits := (text.drop opening.length).takeWhile Text.isDigit
    let rest := text.drop (opening.length + digits.length)
    if !digits.isEmpty && closing.isPrefixOf rest then some (digits, rest.drop closing.length)
    else none
  else none

/-- What follows a stand-in is shorter than the text. -/
theorem read?_length {text digits rest : List Char} (found : read? text = some (digits, rest)) :
    rest.length < text.length := by
  unfold read? at found
  split at found
  · dsimp only at found
    split at found
    · rename_i _ holds
      simp only [Option.some.injEq, Prod.mk.injEq] at found
      obtain ⟨-, rfl⟩ := found
      have isClosing := (List.isPrefixOf_iff_prefix.mp (Bool.and_eq_true_iff.mp holds).2).length_le
      simp only [List.length_drop] at isClosing ⊢
      have : closing.length = 2 := by decide
      omega
    · simp at found
  · simp at found

/-- A part of a text in which stand-ins were looked for. -/
inductive Part
  | text (value : List Char)
  /-- The stand-in for the placeholder with a number. -/
  | standIn (number : Nat)
  deriving DecidableEq, Repr, Inhabited

namespace Part

/-- Puts characters before parts; text grows together. -/
def consText (value : List Char) : List Part → List Part
  | text next :: parts => text (value ++ next) :: parts
  | parts => text value :: parts

end Part

/--
The parts of a text. Only stand-ins with a number below `count` stand for placeholders; others are text.
-/
def parts (count : Nat) (text : List Char) : List Part :=
  match _found : read? text with
  | some (digits, rest) =>
      match (Text.number? digits).filter fun number => number < count with
      | some number => .standIn number :: parts count rest
      | none => Part.consText (opening ++ digits ++ closing) (parts count rest)
  | none =>
      match text with
      | [] => []
      | c :: rest => Part.consText [c] (parts count rest)
termination_by text.length
decreasing_by
  · exact read?_length _found
  · exact read?_length _found
  · simp

/-- A text with the placeholders put back whose sources are given, in the place of their stand-ins. -/
def restore (sources : List (List Char)) (text : List Char) : List Char :=
  (parts sources.length text).flatMap fun
    | .text value => value
    | .standIn number => sources.getD number []

end StandIn
end HtmlTemplate
