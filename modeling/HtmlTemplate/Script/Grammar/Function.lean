import HtmlTemplate.Script.Grammar.Binding

/-!
# Functions and classes
-/

namespace HtmlTemplate
namespace Script

/-- The statements between braces. -/
def blockRule (rules : Rules) (setting : Setting) : Read Syntax := do
  let start ← Read.start
  Read.expectPunct "\x7b"
  let statements ← Read.repeatFrom [] fun found => do
    if ← Read.eatPunct "\x7d" then return .inr found.reverse
    else return .inl ((← rules.statement setting) :: found)
  Read.finishNode .block start statements

/-- Parameters and a body. -/
def functionTail (rules : Rules) (start : Nat) (name : List Syntax) (isAsync isGenerator : Bool) :
    Read Syntax := do
  let setting : Setting := { allowIn := true, await := isAsync, yield := isGenerator, mayReturn := true }
  let parameters ← parametersRule rules setting
  let body ← blockRule rules setting
  Read.finishNode .function start (name ++ [parameters, body])

/-- A function from its keyword on. A declaration has to have a name, which is bound outside it. -/
def functionRule (rules : Rules) (setting : Setting) (start : Nat) (isAsync isDeclaration : Bool) :
    Read Syntax := do
  Read.expectWord "function"
  let isGenerator ← Read.eatPunct "*"
  let own : Setting := { setting with await := isAsync, yield := isGenerator }
  let name ←
    if ← Read.atPunct "(" then
      if isDeclaration then failure else pure []
    else pure [← bindingName (if isDeclaration then setting else own)]
  functionTail rules start name isAsync isGenerator

/-- May the token follow a word that qualifies a member, such as `get` or `static`? -/
def followsQualifier : Token → Bool
  | .name _ _ => true
  | .privateName => true
  | .string => true
  | .number => true
  | .punct text => text == "[" || text == "\x7b" || text == "*" || text == "..."
  | _ => false

/-- Moves past a word that qualifies the member it stands before; some have to stand on its line. -/
def qualifier (word : String) (sameLine : Bool) : Read Bool := do
  if ← Read.atWord word then
    let next ← Read.lookahead do
      Read.advance
      return followsQualifier (← Read.token) && !(sameLine && (← Read.onNewLine))
    if next == some true then
      Read.advance
      return true
  return false

/-- Accessors take no parameter, or one that is no rest parameter. -/
def accessorFits (isGetter : Bool) : Syntax → Bool
  | .node .function _ _ (.node .parameters _ _ parameters :: _) =>
      match parameters with
      | [] => isGetter
      | [parameter] => !isGetter && parameter.form != .rest
      | _ => false
  | _ => false

/-- Ends a statement: a semicolon, a closing brace, the end of the text or a new line. -/
def endStatement : Read Unit := do
  if ← Read.eatPunct ";" then return
  if (← Read.atPunct "\x7d") || (← Read.token) == .finish || (← Read.onNewLine) then return
  failure

/-- A member of a class. -/
def elementRule (rules : Rules) (heritage : Read Syntax) (setting : Setting) : Read Syntax := do
  let start ← Read.start
  let decorators ← Read.repeatFrom [] fun found => do
    if ← Read.eatPunct "@" then return .inl ((← heritage) :: found) else return .inr found.reverse
  let isStatic ← qualifier "static" false
  if isStatic && (← Read.atPunct "\x7b") then
    let body ← blockRule rules { allowIn := true, await := true, yield := false, mayReturn := false }
    return ← Read.finishNode .element start (decorators ++ [body])
  let _ ← qualifier "accessor" true
  let isAsync ← qualifier "async" true
  let isGetter ← if isAsync then pure false else qualifier "get" false
  let isSetter ← if isAsync || isGetter then pure false else qualifier "set" false
  let isGenerator ← Read.eatPunct "*"
  Read.flawIf (← Read.atSpelling "#constructor")
  let key ← propertyKey rules setting true
  if isAsync || isGetter || isSetter || isGenerator || (← Read.atPunct "(") then
    Read.flawIf (key.name == some "constructor" && !isStatic &&
      (isAsync || isGetter || isSetter || isGenerator))
    Read.flawIf (key.name == some "prototype" && isStatic)
    let method ← functionTail rules (← Read.start) [] isAsync isGenerator
    Read.flawIf ((isGetter || isSetter) && !accessorFits isGetter method)
    Read.finishNode .element start (decorators ++ key.computed ++ [method])
  else
    Read.flawIf (key.name == some "constructor")
    let value ←
      if ← Read.eatPunct "=" then
        pure [← rules.assignment { setting with allowIn := true, await := false, yield := false }]
      else pure []
    endStatement
    Read.finishNode .element start (decorators ++ key.computed ++ value)

/-- A class from its keyword on. A declaration has to have a name. -/
def classRule (rules : Rules) (heritage : Read Syntax) (setting : Setting) (isDeclaration : Bool) :
    Read Syntax := do
  let start ← Read.start
  Read.expectWord "class"
  let name ←
    if isBindable (← Read.token) then pure [← bindingName setting]
    else if isDeclaration then failure
    else pure []
  let parent ← if ← Read.eatWord "extends" then pure [← heritage] else pure []
  Read.expectPunct "\x7b"
  let elements ← Read.repeatFrom [] fun found => do
    if ← Read.eatPunct "\x7d" then return .inr found.reverse
    else if ← Read.eatPunct ";" then return .inl found
    else return .inl ((← elementRule rules heritage setting) :: found)
  Read.finishNode .classBody start (name ++ parent ++ elements)

end Script
end HtmlTemplate
