import HtmlTemplate.Script.Grammar.Primary

/-!
# Statements and declarations

Expressions hold statements in the bodies of their functions.
-/

namespace HtmlTemplate
namespace Script

/-- A token that starts the binding of a `let` declaration. -/
def startsBinding : Token → Bool
  | .name text escaped => escaped || (isFreeWord text)
  | .punct text => text == "[" || text == "\x7b"
  | _ => false

/-- Does the word `using` stand before a name on its line, so that it declares something? -/
def usingDeclares : Read Bool := do
  let next ← Read.lookahead do
    Read.expectWord "using"
    return isBindable (← Read.token) && !(← Read.atWord "of") && !(← Read.onNewLine)
  return next == some true

/-- The word that a declaration of variables starts with, if one starts here. -/
def variableWord? (setting : Setting) : Read (Option String) := do
  if ← Read.atWord "var" then return some "var"
  else if ← Read.atWord "const" then return some "const"
  else if ← Read.atWord "let" then
    let next ← Read.lookahead do
      Read.advance
      return startsBinding (← Read.token)
    return if next == some true then some "let" else none
  else if ← usingDeclares then return some "using"
  else if setting.await && (← Read.atWord "await") then
    let next ← Read.lookahead do
      Read.advance
      return !(← Read.onNewLine) && (← usingDeclares)
    return if next == some true then some "await" else none
  else return none

/-- Does the declarator lack the value that it has to have? Constants and patterns have to have one. -/
def lacksValue (word : String) (declarator : Syntax) : Bool :=
  match declarator.form with
  | .patternDefault => false
  | .binding _ => word == "const"
  | _ => true

/-- A declaration of variables from its word on. In the head of a loop the values may be missing. -/
def variablesRule (rules : Rules) (setting : Setting) (word : String) (inLoopHead : Bool) :
    Read Syntax := do
  let start ← Read.start
  Read.advance
  if word == "await" then Read.advance
  let declarators ← Read.repeatFrom [] fun found => do
    let start ← Read.start
    let target ← rules.binding setting
    let declarator ←
      if ← Read.eatPunct "=" then
        let value ← rules.assignment setting
        Read.finishNode .patternDefault start [target, value]
      else
        Read.flawIf (!inLoopHead && (word == "using" || word == "await" || lacksValue word target))
        pure target
    if ← Read.eatPunct "," then return .inl (declarator :: found)
    else return .inr (declarator :: found).reverse
  Read.finishNode (.variables (word != "var")) start declarators

/-- Does a declaration start here that may stand in a list of statements only? -/
def startsListed (setting : Setting) : Read Bool := do
  match ← variableWord? setting with
  | some word => return word != "var"
  | none =>
      let isSpecialFunction ← Read.lookahead do
        let isAsync ← Read.eatWord "async"
        let broken ← Read.onNewLine
        Read.expectWord "function"
        return isAsync && !broken || (← Read.atPunct "*")
      return (← Read.atWord "class") || isSpecialFunction == some true

/--
A statement that is a part of another one. No declaration but that of a plain function may stand here, so
that `let` before the end of its line is a name.
-/
def partRule (rules : Rules) (setting : Setting) : Read Syntax := do
  let start ← Read.start
  let listed ← startsListed setting
  let isName ← Read.lookahead do
    Read.expectWord "let"
    return (← Read.onNewLine) && !(← Read.atPunct "[")
  if listed && isName == some true then
    Read.advance
    Read.finishNode .statement start [← Read.finishNode (.reference "let") start []]
  else
    Read.flawIf listed
    rules.statement setting

/-- An expression in parentheses, as statements have it in their heads. -/
def headExpression (rules : Rules) (setting : Setting) : Read Syntax := do
  Read.expectPunct "("
  let expression ← sequenceOf rules { setting with allowIn := true }
  Read.expectPunct ")"
  return expression

/--
What a `for` loop runs over or counts with, from behind its opening parenthesis on. A loop that waits
runs over something, and one that does not cannot assign to `async`.
-/
def loopHead (rules : Rules) (setting : Setting) (waits : Bool) : Read (List Syntax) := do
  let noIn := { setting with allowIn := false }
  let withIn := { setting with allowIn := true }
  let asyncOf ← Read.lookahead do
    Read.expectWord "async"
    Read.atWord "of"
  let initial ←
    if ← Read.atPunct ";" then pure none
    else match ← variableWord? setting with
      | some word => pure (some (some word, ← variablesRule rules noIn word true))
      | none => pure (some (none, ← sequenceOf rules noIn))
  if ← Read.atPunct ";" then
    Read.flawIf waits
    if let some (some word, declaration) := initial then
      Read.flawIf (declaration.parts.any (lacksValue word))
    Read.advance
    let test ← if ← Read.atPunct ";" then pure [] else pure [← sequenceOf rules withIn]
    Read.expectPunct ";"
    let step ← if ← Read.atPunct ")" then pure [] else pure [← sequenceOf rules withIn]
    return (initial.map Prod.snd).toList ++ test ++ step
  else
    match initial with
    | none => failure
    | some (word, initial) =>
        let initial ←
          match word, initial.target? with
          | some _, _ => pure initial
          | none, some target => pure target
          | none, none => failure
        if ← Read.eatWord "of" then
          Read.flawIf (!waits && asyncOf == some true)
          return [initial, ← rules.assignment withIn]
        else if ← Read.eatWord "in" then
          Read.flawIf waits
          return [initial, ← sequenceOf rules withIn]
        else failure

/-- A `for` loop. -/
def forRule (rules : Rules) (setting : Setting) : Read Syntax := do
  let start ← Read.start
  Read.expectWord "for"
  let waits ← Read.eatWord "await"
  Read.flawIf (waits && !setting.await)
  Read.expectPunct "("
  let head ← loopHead rules setting waits
  Read.expectPunct ")"
  let body ← partRule rules setting
  Read.finishNode .loop start (head ++ [body])

/-- The cases of a `switch`, with their braces. -/
def casesRule (rules : Rules) (setting : Setting) : Read Syntax := do
  let start ← Read.start
  Read.expectPunct "\x7b"
  let parts ← Read.repeatFrom [] fun found => do
    if ← Read.eatPunct "\x7d" then return .inr found.reverse
    let test ←
      if ← Read.eatWord "case" then pure [← sequenceOf rules { setting with allowIn := true }]
      else
        Read.expectWord "default"
        pure []
    Read.expectPunct ":"
    let body ← Read.repeatFrom [] fun body => do
      if (← Read.atWord "case") || (← Read.atWord "default") || (← Read.atPunct "\x7d") then
        return .inr body
      else return .inl ((← rules.statement setting) :: body)
    return .inl (body ++ test ++ found)
  Read.finishNode .block start parts

/-- A `try` with its handler and its last block, at least one of which is there. -/
def tryRule (rules : Rules) (setting : Setting) : Read Syntax := do
  let start ← Read.start
  Read.expectWord "try"
  let body ← blockRule rules setting
  let handlerStart ← Read.start
  let handler ←
    if ← Read.eatWord "catch" then
      let binding ←
        if ← Read.eatPunct "(" then
          let binding ← rules.binding setting
          Read.expectPunct ")"
          pure [binding]
        else pure []
      let body ← blockRule rules setting
      pure [← Read.finishNode .handler handlerStart (binding ++ [body])]
    else pure []
  let last ← if ← Read.eatWord "finally" then pure [← blockRule rules setting] else pure []
  Read.flawIf (handler.isEmpty && last.isEmpty)
  Read.finishNode .statement start (body :: handler ++ last)

/-- A jump to a label, if one stands on the same line. -/
def jumpRule (start : Nat) : Read Syntax := do
  Read.advance
  if isBindable (← Read.token) && !(← Read.onNewLine) then Read.advance
  endStatement
  Read.finishNode .statement start []

/-- An expression as a statement, or a statement with a label. -/
def expressionStatement (rules : Rules) (setting : Setting) (start : Nat) : Read Syntax := do
  let expression ← sequenceOf rules { setting with allowIn := true }
  if expression.isReference && (← Read.atPunct ":") then
    Read.advance
    let body ← partRule rules setting
    Read.finishNode .statement start [body]
  else
    endStatement
    Read.finishNode .statement start [expression]

/-- A statement that starts with a reserved word. -/
def keywordStatement (rules : Rules) (setting : Setting) (word : String) (start : Nat) :
    Read Syntax := do
  let withIn := { setting with allowIn := true }
  match word with
  | "if" =>
      Read.advance
      let test ← headExpression rules setting
      let first ← partRule rules setting
      let second ← if ← Read.eatWord "else" then pure [← partRule rules setting] else pure []
      Read.finishNode .statement start ([test, first] ++ second)
  | "for" => forRule rules setting
  | "while" =>
      Read.advance
      let test ← headExpression rules setting
      let body ← partRule rules setting
      Read.finishNode .loop start [test, body]
  | "do" =>
      Read.advance
      let body ← partRule rules setting
      Read.expectWord "while"
      let test ← headExpression rules setting
      let _ ← Read.eatPunct ";"
      Read.finishNode .loop start [body, test]
  | "with" =>
      Read.advance
      let object ← headExpression rules setting
      let body ← partRule rules setting
      Read.finishNode .statement start [object, body]
  | "switch" =>
      Read.advance
      let value ← headExpression rules setting
      let cases ← casesRule rules setting
      Read.finishNode .statement start [value, cases]
  | "try" => tryRule rules setting
  | "continue" => jumpRule start
  | "break" => jumpRule start
  | "debugger" =>
      Read.advance
      endStatement
      Read.finishNode .statement start []
  | "return" =>
      Read.flawIf (!setting.mayReturn)
      Read.advance
      let ends := (← Read.atPunct ";") || (← Read.atPunct "\x7d") || (← Read.token) == .finish ||
        (← Read.onNewLine)
      let value ← if ends then pure [] else pure [← sequenceOf rules withIn]
      endStatement
      Read.finishNode .statement start value
  | "throw" =>
      Read.advance
      Read.flawIf (← Read.onNewLine)
      let value ← sequenceOf rules withIn
      endStatement
      Read.finishNode .statement start [value]
  | "function" => functionRule rules setting start false true
  | "class" => classRule rules (callRule rules setting) setting true
  | _ => expressionStatement rules setting start

/-- A statement or declaration. -/
def statementRule (rules : Rules) (setting : Setting) : Read Syntax := do
  let start ← Read.start
  match ← Read.token with
  | .punct "\x7b" => blockRule rules setting
  | .punct ";" =>
      Read.advance
      Read.finishNode .statement start []
  | .name word false =>
      match ← variableWord? setting with
      | some word =>
          let declaration ← variablesRule rules { setting with allowIn := true } word false
          endStatement
          return declaration
      | none =>
          let beforeFunction ← Read.lookahead do
            Read.advance
            return (← Read.atWord "function") && !(← Read.onNewLine)
          if word == "async" && beforeFunction == some true then
            Read.advance
            functionRule rules setting start true true
          else keywordStatement rules setting word start
  | _ => expressionStatement rules setting start

end Script
end HtmlTemplate
