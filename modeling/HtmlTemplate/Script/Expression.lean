import HtmlTemplate.Script.Grammar.Operator
import HtmlTemplate.Script.Grammar.Statement

/-!
# Reading an expression

The grammar is recursive in six rules. They are tied together level by level: the rules of a level use
those of the level below, and as many levels as a text can nest are enough to read it.

An expression is read from the start of a text. What follows it is left alone, as long as its first
token can be read.
-/

namespace HtmlTemplate
namespace Script

/-- The rules of the grammar for texts that nest no deeper than the given level. -/
def grammar : Nat → Rules
  | 0 =>
      { assignment := fun _ => failure
        binary := fun _ _ => failure
        unary := fun _ => failure
        member := fun _ => failure
        binding := fun _ => failure
        statement := fun _ => failure }
  | level + 1 =>
      { assignment := fun setting => assignmentRule (grammar level) setting
        binary := fun setting least => binaryRule (grammar level) setting least
        unary := fun setting => unaryRule (grammar level) setting
        member := fun setting => memberRule (grammar level) setting
        binding := fun setting => bindingRule (grammar level) setting
        statement := fun setting => statementRule (grammar level) setting }

/-- A level that no text of the given length nests beyond: at most six rules are used for a character. -/
def levelFor (length : Nat) : Nat :=
  6 * (length + 2)

/-- The setting of an expression that stands in a module, outside all functions. -/
def moduleSetting : Setting :=
  { allowIn := true, await := true, yield := false, mayReturn := false }

/-- An expression and what is known about the text behind it. -/
structure Parsed where
  /-- The expression. -/
  tree : Syntax
  /-- The text from the first token behind the expression on; empty when there is none. -/
  rest : List Char

/-- Is a form left over that only a pattern may hold? -/
def isUnfinished (form : Form) : Bool :=
  form == .shorthandDefault

/-- The expression that a text starts with. -/
def parse? (text : List Char) : Option Parsed := do
  let cursor ← Cursor.ofText? text
  let (tree, cursor) ← sequenceOf (grammar (levelFor text.length)) moduleSetting cursor
  if cursor.flawed || tree.hasForm isUnfinished then none
  else some { tree, rest := cursor.text }

end Script
end HtmlTemplate
