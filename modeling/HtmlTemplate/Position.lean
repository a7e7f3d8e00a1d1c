/-!
# Positions in a source text

Lines and columns count from one, columns in characters; line feeds end lines.
-/

namespace HtmlTemplate

/-- A place in a source text. Line zero stands for no place. -/
structure Position where
  line : Nat := 0
  column : Nat := 0
  deriving DecidableEq, Repr, Inhabited

namespace Position

/-- The first character of a text. -/
def first : Position :=
  { line := 1, column := 1 }

/-- The place behind a character. -/
def after (position : Position) (c : Char) : Position :=
  if c == '\n' then { line := position.line + 1, column := 1 }
  else { position with column := position.column + 1 }

/-- The place behind a piece of text that starts at a place. -/
def advance (position : Position) (text : List Char) : Position :=
  text.foldl after position

/-- The place of the character at an offset, or of the end for offsets beyond it. -/
def ofOffset (source : List Char) (offset : Nat) : Position :=
  first.advance (source.take offset)

end Position

end HtmlTemplate
