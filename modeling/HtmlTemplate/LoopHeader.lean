import HtmlTemplate.Name
import HtmlTemplate.Text.Space
import HtmlTemplate.Text.Word

/-!
# Loop headers

A loop names its variable and, in parentheses, a counter, then what it runs over:
`color in data.colors` or `(color, i) in data.colors`.
-/

namespace HtmlTemplate

/-- What a loop header says. -/
structure LoopHeader where
  /-- The variable for the elements. -/
  item : String
  /-- The variable for the positions, if there is one. -/
  index : Option String
  /-- The code of what the loop runs over. -/
  source : String
  deriving DecidableEq, Repr

namespace LoopHeader

/-- A character inside a loop variable: a letter, digit or mark of any script, an underscore or a dollar. -/
def isVariablePart (c : Char) : Bool :=
  Text.isWord c || c == '$'

/-- A loop variable at the start of a text, and what follows it. -/
def readVariable (text : List Char) : Option (List Char × List Char) :=
  match text with
  | c :: rest =>
      if Name.isIdentifierStart c then
        some (c :: rest.takeWhile isVariablePart, rest.dropWhile isVariablePart)
      else none
  | [] => none

/-- The text behind a character, which has to be its first one. -/
def afterChar? (c : Char) (text : List Char) : Option (List Char) :=
  match text with
  | d :: rest => if d == c then some rest else none
  | [] => none

/-- Whitespace, of which there has to be some. -/
def someSpace? (text : List Char) : Option (List Char) :=
  match text with
  | c :: rest => if Text.isSpace c then some (Text.trimLeft rest) else none
  | [] => none

/-- The variables of a loop, and what follows them. -/
def readVariables (text : List Char) : Option (List Char × Option (List Char) × List Char) := do
  match text with
  | '(' :: rest =>
      let (item, rest) ← readVariable (Text.trimLeft rest)
      let rest ← afterChar? ',' (Text.trimLeft rest)
      let (index, rest) ← readVariable (Text.trimLeft rest)
      let rest ← afterChar? ')' (Text.trimLeft rest)
      return (item, some index, rest)
  | text =>
      let (item, rest) ← readVariable text
      return (item, none, rest)

/-- The header that a text writes, if it writes one. -/
def parse? (header : String) : Option LoopHeader := do
  let (item, index, rest) ← readVariables (Text.trimLeft header.toList)
  let rest ← someSpace? rest
  let rest ← afterChar? 'i' rest
  let rest ← afterChar? 'n' rest
  let rest ← someSpace? rest
  let source := Text.trimRight rest
  if source.isEmpty then none
  else
    return { item := String.ofList item, index := index.map String.ofList,
             source := String.ofList source }

end LoopHeader

end HtmlTemplate
