import HtmlTemplate.Script.Grammar.Primary

/-!
# Operators, assignments and arrow functions
-/

namespace HtmlTemplate
namespace Script

/-- Operators written before their operand, other than the ones that change it. -/
def isUnaryOperator : Token → Bool
  | .punct text => ["+", "-", "!", "~"].contains text
  | .name text false => ["typeof", "void", "delete"].contains text
  | _ => false

/-- Does a word follow that an `await` would wait for, on the same line? -/
def awaitsOnSameLine : Read Bool := do
  let next ← Read.lookahead do
    Read.advance
    if ← Read.onNewLine then return false
    match ← Read.token with
    | .name text false => return !(["in", "instanceof", "of"].contains text)
    | .number => return true
    | .string => return true
    | _ => return false
  return next == some true

/-- An increment or decrement, or less. -/
def updateRule (rules : Rules) (setting : Setting) : Read Syntax := do
  let start ← Read.start
  if (← Read.atPunct "++") || (← Read.atPunct "--") then
    Read.advance
    match (← rules.unary setting).simpleTarget? with
    | some target => Read.finishNode .update start [target]
    | none => failure
  else
    let operand ← callRule rules setting
    if ((← Read.atPunct "++") || (← Read.atPunct "--")) && !(← Read.onNewLine) then
      Read.advance
      match operand.simpleTarget? with
      | some target => Read.finishNode .update start [target]
      | none => failure
    else return operand

/-- A unary operator with its operand, or less. -/
def unaryRule (rules : Rules) (setting : Setting) : Read Syntax := do
  let start ← Read.start
  if isUnaryOperator (← Read.token) then
    Read.advance
    let operand ← rules.unary setting
    Read.finishNode .unary start [operand]
  else if ← Read.atWord "await" then
    if setting.await then
      Read.advance
      let operand ← rules.unary setting
      Read.finishNode .await start [operand]
    else if ← awaitsOnSameLine then
      Read.flaw
      Read.advance
      let operand ← rules.unary { setting with await := true }
      Read.finishNode .await start [operand]
    else updateRule rules setting
  else updateRule rules setting

/-- The form of a binary expression with the given operator. -/
def binaryForm : Token → Form
  | .punct text =>
      if text == "??" then .coalesce
      else if text == "||" || text == "&&" then .logical
      else .binary
  | _ => .binary

/--
May the operator join the operands? The operator for missing values does not mix with conjunctions and
disjunctions that stand without parentheses, and the power operator takes no unary operator on its left.
-/
def mayJoin (operator : Token) (left right : Syntax) (leftInGroup rightInGroup : Bool) : Bool :=
  if operator == .punct "??" then
    if right.form == .logical then rightInGroup
    else if right.form == .coalesce && !rightInGroup then true
    else !(left.form == .logical && !leftInGroup)
  else if operator == .punct "**" then
    leftInGroup || !(left.form == .unary || left.form == .await)
  else true

/-- Does an operator of this strength stay outside the operand of an operator of strength `least`? -/
def staysOutside (strength least : Nat) : Bool :=
  if strength == powerStrength then decide (strength < least) else decide (strength ≤ least)

/-- The operators behind an operand that bind stronger than `least`. -/
def binaryTail (rules : Rules) (setting : Setting) (start : Nat) (leftInGroup : Bool) (least : Nat)
    (left : Syntax) : Read Syntax :=
  Read.repeatFrom left fun left => do
    let operator ← Read.token
    match operator.strength? with
    | none => return .inr left
    | some strength =>
        if staysOutside strength least || (operator == .name "in" false && !setting.allowIn) then
          return .inr left
        Read.advance
        let rightInGroup ← Read.atPunct "("
        let right ← rules.binary setting strength
        Read.flawIf (!mayJoin operator left right leftInGroup rightInGroup)
        return .inl (← Read.finishNode (binaryForm operator) start [left, right])

/-- Operators that bind stronger than `least`, with their operands. -/
def binaryRule (rules : Rules) (setting : Setting) (least : Nat) : Read Syntax := do
  let start ← Read.start
  let leftInGroup ← Read.atPunct "("
  let left ←
    if setting.allowIn && (← Read.token) == .privateName then
      Read.advance
      Read.expectWord "in"
      let object ← rules.binary setting comparisonStrength
      if object.form == .privateIn || least ≥ comparisonStrength then failure
      Read.finishNode .privateIn start [object]
    else rules.unary setting
  binaryTail rules setting start leftInGroup least left

/-- The body of an arrow function, from the arrow on. -/
def arrowTail (rules : Rules) (setting : Setting) (start : Nat) (parameters : Syntax)
    (isAsync : Bool) : Read Syntax := do
  Read.flawIf (← Read.onNewLine)
  Read.expectPunct "=>"
  let own := { setting with await := isAsync, yield := false }
  let body ←
    if ← Read.atPunct "\x7b" then blockRule rules { own with allowIn := true, mayReturn := true }
    else rules.assignment own
  Read.finishNode .arrow start [parameters, body]

/-- An arrow function whose parameter, a lone name, has been read as a reference. -/
def loneArrow (rules : Rules) (setting : Setting) (start : Nat) (parameter : Syntax)
    (isAsync : Bool) : Read Syntax := do
  match parameter with
  | .node (.reference name) nameStart nameStop _ =>
      Read.flawIf (isAsync && name == "await")
      let parameters : Syntax :=
        .node .parameters nameStart nameStop [.node (.binding name) nameStart nameStop []]
      arrowTail rules setting start parameters isAsync
  | _ => failure

/-- How sure a glance at the next tokens is that an arrow function starts here. -/
inductive Likelihood
  | no
  | maybe
  | yes
  deriving DecidableEq

/-- A glance at the tokens that follow tells whether parentheses hold the parameters of an arrow function. -/
def arrowGlance : Read Likelihood := do
  if ← Read.eatWord "async" then
    if ← Read.onNewLine then return .no
  if !(← Read.eatPunct "(") then return .no
  let second ← Read.token
  match second with
  | .punct ")" =>
      Read.advance
      if (← Read.atPunct "=>") || (← Read.atPunct "\x7b") then return .yes else return .no
  | .punct "[" => return .maybe
  | .punct "\x7b" => return .maybe
  | .punct "..." => return .yes
  | _ =>
      if !isBindable second && second != .name "this" false then return .no
      Read.advance
      match ← Read.token with
      | .punct ":" => return .yes
      | .punct "?" =>
          Read.advance
          if (← Read.atPunct ":") || (← Read.atPunct ",") || (← Read.atPunct "=") || (← Read.atPunct ")")
          then return .yes else return .no
      | .punct "," => return .maybe
      | .punct "=" => return .maybe
      | .punct ")" => return .maybe
      | _ => return .no

/-- The parameters of an arrow function in parentheses, up to the arrow. -/
def arrowHead (rules : Rules) (setting : Setting) : Read (Syntax × Bool) := do
  let isAsync ← Read.eatWord "async"
  let parameters ← parametersRule rules { setting with await := setting.await || isAsync }
  unless ← Read.atPunct "=>" do failure
  return (parameters, isAsync)

/-- An arrow function whose parameters stand in parentheses, if one starts here. -/
def groupedArrow? (rules : Rules) (setting : Setting) : Read (Option Syntax) := do
  let start ← Read.start
  match (← Read.lookahead arrowGlance).getD .no with
  | .no => return none
  | .yes =>
      let (parameters, isAsync) ← arrowHead rules setting
      return some (← arrowTail rules setting start parameters isAsync)
  | .maybe =>
      match ← Read.attempt (arrowHead rules setting) with
      | none => return none
      | some (parameters, isAsync) =>
          return some (← arrowTail rules setting start parameters isAsync)

/-- An asynchronous arrow function with a lone parameter, if one starts here. -/
def asyncArrow? (rules : Rules) (setting : Setting) : Read (Option Syntax) := do
  if ← Read.atWord "async" then
    let start ← Read.start
    let fits ← Read.lookahead do
      Read.advance
      if (← Read.onNewLine) || (← Read.atPunct "=>") then return false
      let parameter ← rules.binary setting 0
      return !(← Read.onNewLine) && parameter.isReference && (← Read.atPunct "=>")
    if fits == some true then
      Read.advance
      let parameter ← rules.binary setting 0
      return some (← loneArrow rules setting start parameter true)
  return none

/-- A `yield` with its operand, if it has one. -/
def yieldRule (rules : Rules) (setting : Setting) : Read Syntax := do
  let start ← Read.start
  Read.expectWord "yield"
  if ← Read.onNewLine then Read.finishNode .yield start []
  else
    let delegates ← Read.eatPunct "*"
    let ends := match ← Read.token with
      | .punct text => [";", "\x7d", "]", ")", ":", ","].contains text
      | .name text false => text == "in"
      | .finish => true
      | _ => false
    if ends && !delegates then Read.finishNode .yield start []
    else
      let operand ← rules.assignment setting
      Read.finishNode .yield start [operand]

/-- What may follow the left side of an assignment or choice. -/
def assignmentTail (rules : Rules) (setting : Setting) (start : Nat) (left : Syntax) : Read Syntax := do
  match ← Read.token with
  | .punct "=>" => if left.isReference then loneArrow rules setting start left false else return left
  | .punct "?" =>
      Read.advance
      let first ← rules.assignment { setting with allowIn := true }
      Read.expectPunct ":"
      let second ← rules.assignment setting
      Read.finishNode .choice start [left, first, second]
  | .punct text =>
      if assignmentOperators.contains text then
        match if text == "=" then left.target? else left.simpleTarget? with
        | none => failure
        | some target =>
            Read.advance
            let value ← rules.assignment setting
            Read.finishNode (.assignment (text == "=")) start [target, value]
      else return left
  | _ => return left

/-- An expression without a comma at its top. -/
def assignmentRule (rules : Rules) (setting : Setting) : Read Syntax := do
  if setting.yield && (← Read.atWord "yield") then yieldRule rules setting
  else
    match ← groupedArrow? rules setting with
    | some arrow => return arrow
    | none =>
        match ← asyncArrow? rules setting with
        | some arrow => return arrow
        | none =>
            let start ← Read.start
            let left ← rules.binary setting 0
            assignmentTail rules setting start left

end Script
end HtmlTemplate
