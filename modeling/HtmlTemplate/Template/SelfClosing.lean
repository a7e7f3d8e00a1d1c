import HtmlTemplate.Name
import HtmlTemplate.Text.Space

/-!
# Tags that close themselves

Markup takes a slash at the end of a tag for nothing, and the element would go on. In templates the tag of
an element that may have content stands for the element without any, and is written out in full.
-/

namespace HtmlTemplate
namespace SelfClosing

/-- May the character stand in a tag that closes itself? -/
def isInside (c : Char) : Bool :=
  c != '<' && c != '>'

/-- What stands in a tag behind its name, without white space at the end; white space alone keeps one. -/
def trimmed : List Char → List Char
  | [] => []
  | c :: rest => c :: Text.trimRight rest

/--
A tag that closes itself, from its name on: the name, what stands behind it, and the text behind the tag.
-/
def read? (text : List Char) : Option (List Char × List Char × List Char) :=
  match text with
  | c :: _ =>
      if !c.isAlpha then none
      else
        let name := text.takeWhile Name.isTagPart
        let inside := (text.drop name.length).takeWhile isInside
        let content := inside.dropLast
        let startsApart := (content.head?.map Text.isSpace).getD true
        match inside.getLast?, text.drop (name.length + inside.length) with
        | some '/', '>' :: rest => if startsApart then some (name, content, rest) else none
        | _, _ => none
  | [] => none

/-- What follows a tag is shorter than the text. -/
theorem read?_length {text name content rest : List Char}
    (found : read? text = some (name, content, rest)) : rest.length < text.length := by
  unfold read? at found
  split at found
  · split at found
    · simp at found
    · dsimp only at found
      split at found
      · rename_i _ drops
        split at found
        · simp only [Option.some.injEq, Prod.mk.injEq] at found
          obtain ⟨-, -, rfl⟩ := found
          have length := congrArg List.length drops
          simp only [List.length_drop, List.length_cons] at length ⊢
          omega
        · simp at found
      · simp at found
  · simp at found

/-- A tag that closes itself, written out if its element may have content. -/
def expandTag (name content : List Char) : List Char :=
  if Name.isVoid (String.ofList name) then '<' :: name ++ content ++ ['/', '>']
  else '<' :: name ++ trimmed content ++ ['>', '<', '/'] ++ name ++ ['>']

/-- A text with the tags written out that close themselves, those of elements without content aside. -/
def expand (text : List Char) : List Char :=
  match text with
  | [] => []
  | c :: rest =>
      if c == '<' then
        match _found : read? rest with
        | some (name, content, after) => expandTag name content ++ expand after
        | none => c :: expand rest
      else c :: expand rest
termination_by text.length
decreasing_by
  · have shorter := read?_length _found
    simp
    omega
  · simp
  · simp

end SelfClosing
end HtmlTemplate
