import HtmlTemplate.Script.Cursor

/-!
# Bindings and parameters

What can be bound in a parameter list, a declaration or a handler: a name, or a pattern of an array or
an object, each element with an optional default.
-/

namespace HtmlTemplate
namespace Script

/-- A name that is bound. -/
def bindingName (setting : Setting) : Read Syntax := do
  let start ← Read.start
  match ← Read.token with
  | .name text _ =>
      unless isFreeWord text do failure
      Read.flawIf ((text == "await" && setting.await) || (text == "yield" && setting.yield))
      Read.advance
      Read.finishNode (.binding text) start []
  | _ => failure

/-- The key of a property: whether it is a plain name, and the expression of a computed key. -/
structure Key where
  /-- The name, when the key is written as one. -/
  name : Option String
  /-- The expression in brackets. -/
  computed : List Syntax

/-- The key of a property. Private names are allowed in classes only. -/
def propertyKey (rules : Rules) (setting : Setting) (inClass : Bool) : Read Key := do
  match ← Read.token with
  | .name text _ =>
      Read.advance
      return { name := some text, computed := [] }
  | .string =>
      Read.advance
      return { name := none, computed := [] }
  | .number =>
      Read.advance
      return { name := none, computed := [] }
  | .privateName =>
      Read.flawIf (!inClass)
      Read.advance
      return { name := none, computed := [] }
  | .punct "[" =>
      Read.advance
      let key ← rules.assignment { setting with allowIn := true }
      Read.expectPunct "]"
      return { name := none, computed := [key] }
  | _ => failure

/-- A binding with an optional default. -/
def bindingWithDefault (rules : Rules) (setting : Setting) : Read Syntax := do
  let start ← Read.start
  let target ← rules.binding setting
  if ← Read.eatPunct "=" then
    let value ← rules.assignment { setting with allowIn := true }
    Read.finishNode .patternDefault start [target, value]
  else return target

/-- Is the token a closing parenthesis, bracket or brace? -/
def closes (token : Token) : Bool :=
  token == .punct ")" || token == .punct "]" || token == .punct "\x7d"

/-- Three dots and a binding, which has to be the last one; not even a comma may follow it. -/
def restBinding (rules : Rules) (setting : Setting) : Read Syntax := do
  let start ← Read.start
  Read.expectPunct "..."
  let target ← rules.binding setting
  if ← Read.eatPunct "=" then
    Read.flaw
    let _ ← rules.assignment { setting with allowIn := true }
  if ← Read.atPunct "," then
    let next ← Read.lookahead do
      Read.advance
      return closes (← Read.token)
    if next == some true then Read.flaw else failure
  Read.finishNode .rest start [target]

/-- An element of an array pattern. -/
def elementBinding (rules : Rules) (setting : Setting) : Read Syntax := do
  if ← Read.atPunct "," then
    let start ← Read.start
    return .node .hole start start []
  if ← Read.atPunct "..." then restBinding rules setting
  else bindingWithDefault rules setting

/-- A property of an object pattern. -/
def propertyBinding (rules : Rules) (setting : Setting) : Read Syntax := do
  if ← Read.atPunct "..." then restBinding rules setting
  else
    let start ← Read.start
    let bindable := isBindable (← Read.token)
    let key ← propertyKey rules setting false
    match key.name, bindable && !(← Read.atPunct ":") with
    | some name, true =>
        Read.flawIf ((name == "await" && setting.await) || (name == "yield" && setting.yield))
        let target ← Read.finishNode (.binding name) start []
        if ← Read.eatPunct "=" then
          let value ← rules.assignment { setting with allowIn := true }
          let target ← Read.finishNode .patternDefault start [target, value]
          Read.finishNode .property start [target]
        else Read.finishNode .property start [target]
    | _, _ =>
        Read.expectPunct ":"
        let target ← bindingWithDefault rules setting
        Read.finishNode .property start (key.computed ++ [target])

/-- A name or a pattern. -/
def bindingRule (rules : Rules) (setting : Setting) : Read Syntax := do
  let start ← Read.start
  match ← Read.token with
  | .punct "[" =>
      Read.advance
      let (elements, _) ← Read.elementsUntil "]" (elementBinding rules setting)
      Read.expectPunct "]"
      Read.finishNode .arrayPattern start elements
  | .punct "\x7b" =>
      Read.advance
      let (properties, _) ← Read.elementsUntil "\x7d" (propertyBinding rules setting)
      Read.expectPunct "\x7d"
      Read.finishNode .objectPattern start properties
  | _ => bindingName setting

/-- The parameters of a function, with their parentheses. -/
def parametersRule (rules : Rules) (setting : Setting) : Read Syntax := do
  let start ← Read.start
  Read.expectPunct "("
  let (parameters, _) ← Read.elementsUntil ")" do
    if ← Read.atPunct "..." then restBinding rules setting
    else bindingWithDefault rules setting
  Read.expectPunct ")"
  Read.finishNode .parameters start parameters

end Script
end HtmlTemplate
