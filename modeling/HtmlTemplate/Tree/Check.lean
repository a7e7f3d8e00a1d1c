import HtmlTemplate.Name
import HtmlTemplate.Tree

/-!
# What nodes may hold

The checks that every kind and attribute passes before it becomes part of a tree.
-/

namespace HtmlTemplate

/-- May the character stand in an attribute name? -/
def isAttributeNameChar (c : Char) : Bool :=
  !(Text.isSpace c || c == '/' || c == '>' || c == '=' || c == '"' || c == '\'')

/-- Is the text the name of an attribute? -/
def isAttributeName (name : String) : Bool :=
  !name.isEmpty && name.toList.all isAttributeNameChar

/-- Does the text hold two dashes in a row? -/
def hasDoubleDash : List Char → Bool
  | '-' :: '-' :: _ => true
  | _ :: rest => hasDoubleDash rest
  | [] => false

/-- Would a comment with this text end early, or never, when it is written out? -/
def breaksComment (value : String) : Bool :=
  let text := value.toList
  hasDoubleDash text || text.head? == some '>' || text.getLast? == some '-'

namespace Kind

/-- Checks code in a place of a node. -/
def checkCode (role : CodeRole) (code : String) : Except Cause Unit :=
  match Code.check code with
  | .ok () => .ok ()
  | .error fault => .error (.code role fault)

/-- Checks a tag name. -/
def checkTag (tag : String) : Except Cause Unit :=
  if Name.isTag tag then .ok () else .error (.tagName tag)

/-- Checks a loop variable. -/
def checkVariable (name : String) : Except Cause Unit :=
  if Name.isIdentifier name then .ok () else .error (.loopVariable name)

/-- Checks what a node of this kind holds. -/
def check : Kind → Except Cause Unit
  | element tag => checkTag tag
  | customTag name renderer => do
      checkTag name
      if Text.isBlank renderer.toList then .error .missingRenderer else .ok ()
  | comment value true => if breaksComment value then .error .commentText else .ok ()
  | placeholder code _ => checkCode .placeholder code
  | branch (some test) => checkCode .branchTest test
  | iteration item index source => do
      checkVariable item
      if let some index := index then checkVariable index
      checkCode .loopSource source
  | _ => .ok ()

end Kind

namespace Attribute

/-- Reads an attribute from its name and the source of its value. -/
def parse (name raw : String) (position : Position) : Except Cause Attribute :=
  if isAttributeName name then
    match Value.parse raw with
    | .ok value => .ok { name, value, position }
    | .error (fault, _) => .error (.attributeValue name fault)
  else .error (.attributeName name)

end Attribute

end HtmlTemplate
