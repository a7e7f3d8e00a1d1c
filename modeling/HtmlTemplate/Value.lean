import HtmlTemplate.Placeholder
import HtmlTemplate.Script.Expression
import HtmlTemplate.Text.Quoted
import HtmlTemplate.Text.Space

/-!
# Code and values

Code is checked when it comes into a template, by itself or as a part of a value.
-/

namespace HtmlTemplate

/-!
## Code in templates

Code is a JavaScript expression, kept as its text.
-/

/-- Why a text is no code. -/
inductive CodeFault
  /-- It is empty or blank. -/
  | missing
  /-- It does not start with an expression. -/
  | invalid (code : String)
  deriving DecidableEq, Repr

namespace CodeFault

/-- The fault in words. -/
def message : CodeFault → String
  | missing => "Expected an expression"
  | invalid code => "Invalid expression `" ++ code ++ "`"

end CodeFault

namespace Code

/-- Checks that a text is code. -/
def check (code : String) : Except CodeFault Unit :=
  if Text.isBlank code.toList then .error .missing
  else if (Script.parse? code.toList).isSome then .ok ()
  else .error (.invalid code)

end Code

/-!
## Values with placeholders

The value of an attribute is a sequence of plain texts and pieces of code. It is written into the module
as one JavaScript expression.
-/

/-- A part of a value. -/
inductive Segment
  | static (value : String)
  | code (code : String) (escape : Bool)
  deriving DecidableEq, Repr, Inhabited

/-- A value: its source and its parts. -/
structure Value where
  raw : String
  segments : List Segment
  deriving DecidableEq, Repr, Inhabited

/-- Why a text is no value. -/
inductive ValueFault
  | piece (fault : PieceFault)
  | code (fault : CodeFault)
  deriving DecidableEq, Repr

namespace PieceFault

/-- The fault in words. -/
def message : PieceFault → String
  | unterminated => "Unterminated `$\x7b` placeholder"
  | empty => "Empty `$\x7b\x7d` placeholder"

end PieceFault

namespace ValueFault

/-- The fault in words. -/
def message : ValueFault → String
  | piece fault => fault.message
  | code fault => fault.message

end ValueFault

namespace Value

/--
The parts that pieces of text are read as. A fault comes with the source of the pieces before the one
that is at fault.
-/
def segmentsOf : List Piece → Except (ValueFault × List Char) (List Segment)
  | [] => .ok []
  | .text source :: pieces =>
      match segmentsOf pieces with
      | .ok segments => .ok (.static (String.ofList (Placeholder.unescape source)) :: segments)
      | .error (fault, before) => .error (fault, source ++ before)
  | .code placeholder :: pieces =>
      match Code.check placeholder.code with
      | .error fault => .error (.code fault, [])
      | .ok () =>
          match segmentsOf pieces with
          | .ok segments => .ok (.code placeholder.code placeholder.escape :: segments)
          | .error (fault, before) => .error (fault, placeholder.source ++ before)

/-- Reads a value. A fault comes with the text before the placeholder that is at fault. -/
def parse (raw : String) : Except (ValueFault × String) Value :=
  match Placeholder.pieces raw.toList with
  | .error (fault, before) => .error (.piece fault, String.ofList before)
  | .ok pieces =>
      match segmentsOf pieces with
      | .error (fault, before) => .error (fault, String.ofList before)
      | .ok segments => .ok { raw, segments }

/-- A value that is taken as it stands, without placeholders. -/
def literal (value : String) : Value :=
  { raw := value, segments := if value.isEmpty then [] else [.static value] }

/-- Does the value have no parts? -/
def isEmpty (value : Value) : Bool :=
  value.segments.isEmpty

/-- The text of a segment that is plain. -/
def staticPart? : Segment → Option String
  | .static value => some value
  | .code _ _ => none

/-- The text of a value without code. -/
def static? (value : Value) : Option String :=
  (value.segments.mapM staticPart?).map String.join

/-- Is the value without code? -/
def isStatic (value : Value) : Bool :=
  value.static?.isSome

/-- The value of an attribute that is code by nature: a lone placeholder stands for its code. -/
def asCode (value : Value) : String :=
  match value.segments with
  | [.code code _] => code
  | _ => String.ofList (Text.trim value.raw.toList)

/-- A part of a value as an operand of a concatenation. -/
def operand (resolve : String → String) : Segment → String
  | .static value => Text.jsonString value
  | .code code _ => "(" ++ resolve code ++ ")"

/-- The value as a JavaScript expression, with its code passed through `resolve`. -/
def toScript (value : Value) (resolve : String → String) : String :=
  match value.segments with
  | [] => "\"\""
  | [.code code _] => resolve code
  | segments => String.intercalate " + " (segments.map (operand resolve))

end Value

end HtmlTemplate
