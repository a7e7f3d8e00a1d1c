import HtmlTemplate.Script.Grammar.Function

/-!
# Primary expressions, accesses and calls
-/

namespace HtmlTemplate
namespace Script

/-- An expression or, after three dots, the elements of one. -/
def spreadOr (rules : Rules) (setting : Setting) : Read Syntax := do
  let start ← Read.start
  if ← Read.eatPunct "..." then
    let argument ← rules.assignment { setting with allowIn := true }
    Read.finishNode .spread start [argument]
  else rules.assignment { setting with allowIn := true }

/-- An array literal. -/
def arrayRule (rules : Rules) (setting : Setting) : Read Syntax := do
  let start ← Read.start
  Read.expectPunct "["
  let (elements, trailingComma) ← Read.elementsUntil "]" do
    if ← Read.atPunct "," then
      let start ← Read.start
      return .node .hole start start []
    else spreadOr rules setting
  Read.expectPunct "]"
  Read.finishNode (.array trailingComma) start elements

/-- A property of an object literal. -/
def propertyRule (rules : Rules) (setting : Setting) : Read Syntax := do
  if ← Read.atPunct "..." then spreadOr rules setting
  else
    let start ← Read.start
    let isAsync ← qualifier "async" true
    let isGetter ← if isAsync then pure false else qualifier "get" false
    let isSetter ← if isAsync || isGetter then pure false else qualifier "set" false
    let isGenerator ← Read.eatPunct "*"
    let mayStandAlone := setting.isIdentifier (← Read.token)
    let key ← propertyKey rules setting false
    if isAsync || isGetter || isSetter || isGenerator || (← Read.atPunct "(") then
      let method ← functionTail rules (← Read.start) [] isAsync isGenerator
      Read.flawIf ((isGetter || isSetter) && !accessorFits isGetter method)
      Read.finishNode .property start (key.computed ++ [method])
    else
      match key.name, mayStandAlone && !(← Read.atPunct ":") with
      | some name, true =>
          if ← Read.atPunct "=" then
            let reference ← Read.finishNode (.reference name) start []
            Read.advance
            let value ← rules.assignment { setting with allowIn := true }
            Read.finishNode .shorthandDefault start [reference, value]
          else Read.finishNode (.shorthand name) start []
      | _, _ =>
          Read.expectPunct ":"
          let value ← rules.assignment { setting with allowIn := true }
          Read.finishNode .property start (key.computed ++ [value])

/-- An object literal. -/
def objectRule (rules : Rules) (setting : Setting) : Read Syntax := do
  let start ← Read.start
  Read.expectPunct "\x7b"
  let (properties, trailingComma) ← Read.elementsUntil "\x7d" (propertyRule rules setting)
  Read.expectPunct "\x7d"
  Read.finishNode (.object trailingComma) start properties

/-- One or more expressions in parentheses. -/
def groupRule (rules : Rules) (setting : Setting) : Read Syntax := do
  let start ← Read.start
  Read.expectPunct "("
  let innerStart ← Read.start
  let (expressions, trailingComma) ←
    Read.elementsUntil ")" (rules.assignment { setting with allowIn := true })
  if trailingComma then failure
  let inner ← match expressions with
    | [] => failure
    | [expression] => pure expression
    | expressions => Read.finishNode .sequence innerStart expressions
  Read.expectPunct ")"
  Read.finishNode .group start [inner]

/-- Reads the current token anew as a regular expression. -/
def patternRule : Read Syntax := do
  let cursor ← get
  match pattern? (cursor.text.drop 1) with
  | none => failure
  | some rest =>
      let start ← Read.start
      set { cursor with token := .pattern, rest }
      Read.advance
      Read.finishNode .atom start []

/-- Reads the closing brace of a substitution anew as the start of the next piece of the template. -/
def continueTemplate : Read Unit := do
  unless ← Read.atPunct "\x7d" do failure
  let cursor ← get
  match templateTail true (cursor.text.drop 1) with
  | none => failure
  | some (closed, wellFormed, rest) => set { cursor with token := .template closed wellFormed, rest }

/-- A template literal. Ill-formed escapes are allowed in a tagged one only. -/
def templateRule (rules : Rules) (setting : Setting) (tagged : Bool) : Read Syntax := do
  let start ← Read.start
  let substitutions ← Read.repeatFrom [] fun found => do
    match ← Read.token with
    | .template closed wellFormed =>
        Read.flawIf (!tagged && !wellFormed)
        Read.advance
        if closed then return .inr found.reverse
        else
          let substitution ← sequenceOf rules { setting with allowIn := true }
          continueTemplate
          return .inl (substitution :: found)
    | _ => failure
  Read.finishNode .template start substitutions

/-- The arguments of a call, with their parentheses. -/
def argumentsRule (rules : Rules) (setting : Setting) : Read (List Syntax) := do
  Read.expectPunct "("
  let (arguments, _) ← Read.elementsUntil ")" (spreadOr rules setting)
  Read.expectPunct ")"
  return arguments

/-- The name of a member after a point. -/
def memberName : Read Unit := do
  match ← Read.token with
  | .name _ _ => Read.advance
  | .privateName => Read.advance
  | _ => failure

/-- The accesses and tags behind an expression, and whether one of them has a question mark. -/
def accesses (rules : Rules) (setting : Setting) (start : Nat) (object : Syntax) (chained : Bool) :
    Read (Syntax × Bool) :=
  Read.repeatFrom (object, chained) fun (object, chained) => do
    match ← Read.token with
    | .punct "." =>
        Read.advance
        memberName
        return .inl (← Read.finishNode .member start [object], chained)
    | .punct "[" =>
        Read.advance
        let key ← sequenceOf rules { setting with allowIn := true }
        Read.expectPunct "]"
        return .inl (← Read.finishNode .member start [object, key], chained)
    | .punct "?." =>
        let next ← Read.lookahead do
          Read.advance
          Read.token
        match next with
        | some (.name _ _) =>
            Read.advance
            memberName
            return .inl (← Read.finishNode .member start [object], true)
        | some .privateName =>
            Read.advance
            memberName
            return .inl (← Read.finishNode .member start [object], true)
        | some (.punct "[") =>
            Read.advance
            Read.advance
            let key ← sequenceOf rules { setting with allowIn := true }
            Read.expectPunct "]"
            return .inl (← Read.finishNode .member start [object, key], true)
        | some (.punct "(") => return .inr (object, chained)
        | _ => failure
    | .template _ _ =>
        Read.flawIf chained
        let quasi ← templateRule rules setting true
        return .inl (← Read.finishNode .call start [object, quasi], chained)
    | _ => return .inr (object, chained)

/-- A primary expression with accesses and calls behind it. -/
def callRule (rules : Rules) (setting : Setting) : Read Syntax := do
  let start ← Read.start
  let (callee, chained) ← rules.member setting
  let (result, chained) ← Read.repeatFrom (callee, chained) fun (callee, chained) => do
    let (callee, chained) ← accesses rules setting start callee chained
    if ← Read.eatPunct "?." then
      let arguments ← argumentsRule rules setting
      return .inl (← Read.finishNode .call start (callee :: arguments), true)
    else if ← Read.atPunct "(" then
      let arguments ← argumentsRule rules setting
      return .inl (← Read.finishNode .call start (callee :: arguments), chained)
    else return .inr (callee, chained)
  if chained then Read.finishNode .chain start [result] else return result

/-- A construction, or the word for the constructor that is called. -/
def newRule (rules : Rules) (setting : Setting) : Read Syntax := do
  let start ← Read.start
  Read.expectWord "new"
  if ← Read.eatPunct "." then
    Read.expectWord "target"
    Read.finishNode .atom start []
  else
    let (callee, chained) ← rules.member setting
    let arguments ← if ← Read.atPunct "(" then argumentsRule rules setting else
      Read.flawIf (← Read.atPunct "?.")
      pure []
    Read.flawIf (chained || callee.form == .importCall)
    Read.finishNode .call start (callee :: arguments)

/-- The specifier and options of an import call. -/
def importArguments (rules : Rules) (setting : Setting) (start : Nat) : Read Syntax := do
  let own := { setting with allowIn := true }
  Read.expectPunct "("
  let specifier ← rules.assignment own
  let options ←
    if ← Read.eatPunct "," then
      if ← Read.atPunct ")" then pure [] else pure [← rules.assignment own]
    else pure []
  let _ ← Read.eatPunct ","
  Read.expectPunct ")"
  Read.finishNode .importCall start (specifier :: options)

/-- A call of `import`, or its meta property. -/
def importRule (rules : Rules) (setting : Setting) : Read Syntax := do
  let start ← Read.start
  Read.expectWord "import"
  if ← Read.eatPunct "." then
    if ← Read.eatWord "meta" then Read.finishNode .atom start []
    else if (← Read.atWord "source") || (← Read.atWord "defer") then
      Read.advance
      importArguments rules setting start
    else failure
  else importArguments rules setting start

/-- `super`, which has to be accessed or called. -/
def superRule : Read Syntax := do
  let start ← Read.start
  Read.expectWord "super"
  Read.flawIf !((← Read.atPunct ".") || (← Read.atPunct "[") || (← Read.atPunct "("))
  Read.finishNode .atom start []

/-- An expression that starts with a word. -/
def wordRule (rules : Rules) (setting : Setting) (text : String) (escaped : Bool) : Read Syntax := do
  let start ← Read.start
  if !escaped && ["this", "null", "true", "false"].contains text then
    Read.advance
    Read.finishNode .atom start []
  else if !escaped && text == "function" then functionRule rules setting start false false
  else if !escaped && text == "class" then classRule rules (callRule rules setting) setting false
  else if !escaped && text == "new" then newRule rules setting
  else if !escaped && text == "import" then importRule rules setting
  else if !escaped && text == "super" then superRule
  else
    let beforeFunction ← Read.lookahead do
      Read.advance
      return (← Read.atWord "function") && !(← Read.onNewLine)
    if !escaped && text == "async" && beforeFunction == some true then
      Read.advance
      functionRule rules setting start true false
    else if setting.isIdentifier (.name text escaped) then
      Read.advance
      Read.finishNode (.reference text) start []
    else failure

/-- A class with decorators before it. -/
def decoratedClass (rules : Rules) (setting : Setting) : Read Syntax := do
  let start ← Read.start
  let decorators ← Read.repeatFrom [] fun found => do
    if ← Read.eatPunct "@" then return .inl ((← callRule rules setting) :: found)
    else return .inr found.reverse
  let inner ← classRule rules (callRule rules setting) setting false
  Read.finishNode .group start (decorators ++ [inner])

/-- A primary expression. -/
def primaryRule (rules : Rules) (setting : Setting) : Read Syntax := do
  let start ← Read.start
  match ← Read.token with
  | .name text escaped => wordRule rules setting text escaped
  | .number =>
      Read.advance
      Read.finishNode .atom start []
  | .string =>
      Read.advance
      Read.finishNode .atom start []
  | .template _ _ => templateRule rules setting false
  | .punct "/" => patternRule
  | .punct "/=" => patternRule
  | .punct "[" => arrayRule rules setting
  | .punct "\x7b" => objectRule rules setting
  | .punct "(" => groupRule rules setting
  | .punct "@" => decoratedClass rules setting
  | _ => failure

/-- A primary expression with the accesses behind it. -/
def memberRule (rules : Rules) (setting : Setting) : Read (Syntax × Bool) := do
  let start ← Read.start
  let object ← primaryRule rules setting
  accesses rules setting start object false

end Script
end HtmlTemplate
