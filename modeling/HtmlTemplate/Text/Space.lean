import HtmlTemplate.Text.Character

/-!
# Whitespace

Whitespace is the Unicode property White_Space. This module holds the class, the trimming of texts and
the collapsing of whitespace runs outside preserved regions.
-/

namespace HtmlTemplate
namespace Text

/-- The characters with the Unicode property White_Space, as closed ranges of code points. -/
def spaceRanges : List (Nat × Nat) :=
  [(0x9, 0xD), (0x20, 0x20), (0x85, 0x85), (0xA0, 0xA0), (0x1680, 0x1680), (0x2000, 0x200A),
   (0x2028, 0x2029), (0x202F, 0x202F), (0x205F, 0x205F), (0x3000, 0x3000)]

/-- Is the character whitespace? -/
def isSpace (c : Char) : Bool :=
  inRanges spaceRanges c

/-- A text without its leading whitespace. -/
def trimLeft (s : List Char) : List Char :=
  s.dropWhile isSpace

/-- A text without its trailing whitespace. -/
def trimRight : List Char → List Char
  | [] => []
  | c :: rest =>
      match trimRight rest with
      | [] => if isSpace c then [] else [c]
      | kept => c :: kept

/-- A text without its leading and trailing whitespace. -/
def trim (s : List Char) : List Char :=
  trimRight (trimLeft s)

/-- Is the text empty or made of whitespace only? -/
def isBlank (s : List Char) : Bool :=
  s.all isSpace

/-- Each whitespace run becomes one space. The flag tells whether the character before was whitespace. -/
def joinRuns (inRun : Bool) : List Char → List Char
  | [] => []
  | c :: rest =>
      if isSpace c then
        if inRun then joinRuns true rest else ' ' :: joinRuns true rest
      else c :: joinRuns false rest

/-- What is left of a whitespace run at an edge of a text: one space, unless the run breaks the line. -/
def edge (run : List Char) : List Char :=
  if run.isEmpty || run.contains '\n' then [] else [' ']

/--
Outside preserved regions whitespace runs inside a text become one space, runs at either edge are
dropped when they break the line, and whitespace that spans lines disappears altogether.
-/
def collapse? (s : List Char) : Option (List Char) :=
  if s.isEmpty then none
  else if isBlank s then
    if s.contains '\n' then none else some [' ']
  else
    let body := trim s
    let leading := s.takeWhile isSpace
    let trailing := s.drop (leading.length + body.length)
    some (edge leading ++ joinRuns false body ++ edge trailing)

end Text
end HtmlTemplate
