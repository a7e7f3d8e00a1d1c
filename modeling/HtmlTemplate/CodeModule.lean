import HtmlTemplate.Lowering
import HtmlTemplate.Text.Escape
import HtmlTemplate.Text.Quoted

/-!
# Generated modules

The code of a module that renders a template, and how it is laid out.
-/

namespace HtmlTemplate

/-!
## Layout of generated code

Generated code is laid out in indented lines. Static markup is gathered, and written by one statement
before the next line.
-/

/-- A part of the code that is generated. -/
inductive Layout
  /-- Markup that is written as it stands. -/
  | markup (text : String)
  /-- A line of code. -/
  | line (text : String)
  /-- A line with nothing on it. -/
  | blank
  /-- Parts that are indented. -/
  | block (parts : List Layout)
  deriving Repr, Inhabited

namespace Layout

/-- A line of code, indented. -/
def indented (depth : Nat) (text : String) : String :=
  String.ofList (List.replicate (2 * depth) ' ') ++ text

/-- The statement that writes the markup gathered so far, if there is any. -/
def flush (depth : Nat) (gathered : String) : List String :=
  if gathered.isEmpty then []
  else [indented depth ("out.w(" ++ Text.jsonString gathered ++ ");")]

mutual

/-- The lines of a part, after some markup was gathered, and the markup that is gathered then. -/
def lines (depth : Nat) (gathered : String) : Layout → List String × String
  | markup text => ([], gathered ++ text)
  | line text => (flush depth gathered ++ [indented depth text], "")
  | blank => (flush depth gathered ++ [""], "")
  | block parts =>
      let (inner, rest) := linesOf (depth + 1) "" parts
      (flush depth gathered ++ inner ++ flush (depth + 1) rest, "")

/-- The lines of parts in order, after some markup was gathered, and the markup that is gathered then. -/
def linesOf (depth : Nat) (gathered : String) : List Layout → List String × String
  | [] => ([], gathered)
  | part :: parts =>
      let (first, gathered) := lines depth gathered part
      let (rest, gathered) := linesOf depth gathered parts
      (first ++ rest, gathered)

end

/-- The text of parts, with each line ended. -/
def render (parts : List Layout) : String :=
  let (first, gathered) := linesOf 0 "" parts
  String.join ((first ++ flush 0 gathered).map fun line => line ++ "\n")

end Layout

/-!
## Generated modules

The code of a module that renders a template: declarations at the top, and a function that writes the
fragments in order.
-/

namespace WrittenValue

/-- The value as a JavaScript expression. -/
def toScript : WrittenValue → String
  | static value => Text.jsonString value
  | dynamic code => code

end WrittenValue

namespace WrittenAttribute

/-- The attribute in a start tag. -/
def layout (written : WrittenAttribute) : Layout :=
  match written.value with
  | .static value =>
      if value.isEmpty then .markup (" " ++ written.name)
      else .markup (" " ++ written.name ++ "=\"" ++ Text.escapeAttribute value ++ "\"")
  | .dynamic code => .line ("out.w(attr(" ++ Text.jsonString written.name ++ ", " ++ code ++ "));")

/-- Attributes as fields of an object. The flag tells whether more fields follow. -/
def fields (more : Bool) : List WrittenAttribute → List Layout
  | [] => []
  | written :: rest =>
      let comma := if rest.isEmpty && !more then "" else ","
      .line (Text.jsonString written.name ++ ": " ++ written.value.toScript ++ comma) :: fields more rest

end WrittenAttribute

namespace Fragment

/-- The pieces of a text between line feeds. -/
def splitLines : List Char → List (List Char)
  | [] => [[]]
  | c :: rest =>
      if c == '\n' then [] :: splitLines rest
      else
        match splitLines rest with
        | [] => [[c]]
        | piece :: pieces => (c :: piece) :: pieces

/-- A comment that stays in the code, line by line and without blank lines. -/
def codeComment (value : String) : List Layout :=
  (((splitLines value.toList).map Text.trim).filter fun piece => !piece.isEmpty).map fun piece =>
    .line ("// " ++ String.ofList piece)

/-- The line that starts a branch. The flag tells whether it is the first one. -/
def branchHead (first : Bool) : Option String → String
  | some test => (if first then "if (" else "\x7d else if (") ++ test ++ ") \x7b"
  | none => if first then "if (true) \x7b" else "\x7d else \x7b"

mutual

/-- The code of a fragment. -/
def layout : Fragment → List Layout
  | element tag attributes children =>
      .markup ("<" ++ tag) :: attributes.map WrittenAttribute.layout ++ .markup ">" ::
        if Name.isVoid tag then [] else layoutAll children ++ [.markup ("</" ++ tag ++ ">")]
  | text value escape => [.markup (if escape then Text.escapeText value else value)]
  | write code escape =>
      [.line ("out.w(" ++ (if escape then "escapeXml" else "str") ++ "(" ++ code ++ "));")]
  | comment value true => [.markup ("<!--" ++ value ++ "-->")]
  | comment value false => codeComment value
  | doctype name => [.markup ("<!DOCTYPE " ++ name ++ ">")]
  | tagCall _ handler attributes body =>
      if attributes.isEmpty && body.isEmpty then [.line (handler ++ "(\x7b\x7d, out);")]
      else
        let rendered : List Layout :=
          if body.isEmpty then []
          else [.line "renderBody: function(out) \x7b", .block (layoutAll body), .line "\x7d"]
        [.line (handler ++ "(\x7b"),
         .block (WrittenAttribute.fields (!body.isEmpty) attributes ++ rendered),
         .line "\x7d, out);"]
  | branching branches =>
      layoutBranches true branches ++ if branches.isEmpty then [] else [.line "\x7d"]
  | loop item index list source body =>
      [.line ("var " ++ item ++ ", " ++ index ++ ", " ++ list ++ ";"),
       .line ("for (" ++ list ++ " = (" ++ source ++ ") || [], " ++ index ++ " = 0; " ++ index ++ " < " ++
         list ++ ".length; " ++ index ++ "++) \x7b"),
       .block (.line (item ++ " = " ++ list ++ "[" ++ index ++ "];") :: layoutAll body),
       .line "\x7d"]

/-- The code of fragments in order. -/
def layoutAll : List Fragment → List Layout
  | [] => []
  | fragment :: fragments => layout fragment ++ layoutAll fragments

/-- The code of branches. The flag tells whether the first of them is the first of its conditional. -/
def layoutBranches (first : Bool) : List (Option String × List Fragment) → List Layout
  | [] => []
  | (test, body) :: branches =>
      .line (branchHead first test) :: .block (layoutAll body) :: layoutBranches false branches

end

end Fragment

/-- The code of a declaration. -/
def Declaration.layout (declaration : Declaration) : Layout :=
  .line ("var " ++ declaration.name ++ " = " ++ declaration.init ++ ";")

/-- What a compilation gives. -/
structure CodeModule where
  file : String
  /-- What is written; nothing, if the code comes from storage. -/
  fragments : List Fragment := []
  hoisted : List Declaration := []
  code : String
  warnings : List Diagnostic := []
  fromCache : Bool := false
  deriving Repr, Inhabited

namespace CodeModule

/-- The code of a module that writes fragments. -/
def codeOf (fragments : List Fragment) (hoisted : List Declaration) : String :=
  Layout.render
    [.line "module.exports = function create(__helpers) \x7b",
     .block
      ([Layout.line "var str = __helpers.s,", Layout.line "  escapeXml = __helpers.x,",
        Layout.line "  attr = __helpers.a,", Layout.line "  loadTag = __helpers.t;"] ++
       hoisted.map Declaration.layout ++
       [Layout.blank, Layout.line "return function render(data, out) \x7b",
        Layout.block (Fragment.layoutAll fragments), Layout.line "\x7d;"]),
     .line "\x7d;"]

/-- The module for the settled tree below a node. -/
def generate (tree : Tree) (choices : Preservation) (root : NodeId) : Except Fault CodeModule := do
  let (fragments, hoisted) ← tree.lower choices root
  return { file := tree.file, fragments, hoisted, code := codeOf fragments hoisted }

/-- The module for code that was generated before. -/
def stored (file code : String) : CodeModule :=
  { file, code, fromCache := true }

end CodeModule

end HtmlTemplate
