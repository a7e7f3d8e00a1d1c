import HtmlTemplate.Script.Expression

/-!
# Renaming references

A reference is renamed unless a function around it has a parameter of that name. Names bound anywhere
inside a parameter list, also by functions in its defaults, count as parameters; declarations in a body
do not.
-/

namespace HtmlTemplate
namespace Script

/-- New names by old name. -/
abbrev Renames := List (String × String)

/-- A piece of the text that is written anew: where it starts and ends, and its new text. -/
structure Replacement where
  /-- The offset of its first character. -/
  start : Nat
  /-- The offset behind its last character. -/
  stop : Nat
  /-- What is written instead. -/
  text : String
  deriving DecidableEq, Repr

namespace Syntax

mutual

/-- The names bound anywhere in the tree. -/
def bindings : Syntax → List String
  | node (.binding name) _ _ parts => name :: allBindings parts
  | node _ _ _ parts => allBindings parts

/-- The names bound anywhere in the trees. -/
def allBindings : List Syntax → List String
  | [] => []
  | tree :: trees => bindings tree ++ allBindings trees

end

/-- The names that a function hides from the outside: those bound in its parameter list. -/
def parameterNames (parts : List Syntax) : List String :=
  (parts.filter fun part => part.form == .parameters).flatMap bindings

/-- The new name of a reference that is not hidden. -/
def newName? (renames : Renames) (hidden : List String) (name : String) : Option String :=
  if hidden.contains name then none else renames.lookup name

mutual

/-- The pieces to write anew when references are renamed; hidden names keep theirs. -/
def replacements (renames : Renames) (hidden : List String) : Syntax → List Replacement
  | node (.reference name) start stop _ =>
      match newName? renames hidden name with
      | some text => [{ start, stop, text }]
      | none => []
  | node (.shorthand name) start stop _ =>
      match newName? renames hidden name with
      | some text => [{ start, stop, text := name ++ ": " ++ text }]
      | none => []
  | node .function _ _ parts => allReplacements renames (parameterNames parts ++ hidden) parts
  | node .arrow _ _ parts => allReplacements renames (parameterNames parts ++ hidden) parts
  | node _ _ _ parts => allReplacements renames hidden parts

/-- The pieces to write anew in each of the trees. -/
def allReplacements (renames : Renames) (hidden : List String) : List Syntax → List Replacement
  | [] => []
  | tree :: trees => replacements renames hidden tree ++ allReplacements renames hidden trees

end

end Syntax

/-- Writes the pieces, which are in the order of the text, into the text from offset `from` on. -/
def writePieces (position : Nat) : List Char → List Replacement → List Char
  | text, [] => text
  | text, piece :: pieces =>
      text.take (piece.start - position) ++ piece.text.toList ++
        writePieces piece.stop (text.drop (piece.stop - position)) pieces

/-- The code with its references renamed. Code that is no expression stays as it is. -/
def rename (renames : Renames) (code : String) : String :=
  if renames.isEmpty then code
  else
    match parse? code.toList with
    | none => code
    | some parsed =>
        let pieces := (parsed.tree.replacements renames []).mergeSort fun a b => a.start ≤ b.start
        String.ofList (writePieces 0 code.toList pieces)

end Script
end HtmlTemplate
