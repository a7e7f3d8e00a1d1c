import HtmlTemplate.Script.Lexer
import HtmlTemplate.Script.Syntax

/-!
# Reading a token at a time

A cursor stands on one token of a text. Readers move it and fail when the grammar does not allow what
they see; a flaw is a fault that does not stop the reading but makes the whole text invalid.
-/

namespace HtmlTemplate
namespace Script

/-- A place in a text: the token there and what is known about its neighbourhood. -/
structure Cursor where
  /-- The length of the whole text. -/
  size : Nat
  /-- The text from the first character of the token on. -/
  text : List Char
  /-- The token. -/
  token : Token
  /-- The text behind the token. -/
  rest : List Char
  /-- Did a line end between the token before and this one? -/
  broken : Bool
  /-- The offset behind the token before. -/
  lastStop : Nat
  /-- Was a fault seen that does not stop the reading? -/
  flawed : Bool

namespace Cursor

/-- The offset of the token's first character. -/
def start (cursor : Cursor) : Nat :=
  cursor.size - cursor.text.length

/-- The offset behind the token. -/
def stop (cursor : Cursor) : Nat :=
  cursor.size - cursor.rest.length

/-- The cursor on the next token. -/
def next? (cursor : Cursor) : Option Cursor := do
  let (broken, text) ← skipGap .between false cursor.rest
  let (token, rest) ← token? text
  some { cursor with text, token, rest, broken, lastStop := cursor.stop }

/-- The cursor on the first token of a text. -/
def ofText? (text : List Char) : Option Cursor :=
  next?
    { size := text.length, text, token := .finish, rest := text, broken := false, lastStop := 0,
      flawed := false }

end Cursor

/-- A reader moves a cursor and gives a value, or fails. -/
abbrev Read (α : Type) := StateT Cursor Option α

namespace Read

/-- The current token. -/
def token : Read Token := do
  return (← get).token

/-- The offset of the current token. -/
def start : Read Nat := do
  return (← get).start

/-- The offset behind the token read last. -/
def lastStop : Read Nat := do
  return (← get).lastStop

/-- Did a line end before the current token? -/
def onNewLine : Read Bool := do
  return (← get).broken

/-- Moves to the next token. -/
def advance : Read Unit := fun cursor => cursor.next?.map fun next => ((), next)

/-- Notes a fault and goes on. -/
def flaw : Read Unit :=
  modify fun cursor => { cursor with flawed := true }

/-- Notes a fault when the condition holds. -/
def flawIf (condition : Bool) : Read Unit :=
  if condition then flaw else pure ()

/-- Is the current token this punctuator? -/
def atPunct (text : String) : Read Bool := do
  return (← token) == .punct text

/-- Is the current token this word, spelled without escapes? -/
def atWord (text : String) : Read Bool := do
  return (← token) == .name text false

/-- Is the current token spelled like this? -/
def atSpelling (text : String) : Read Bool := do
  let cursor ← get
  return cursor.text.take (cursor.stop - cursor.start) == text.toList

/-- Moves past the punctuator if it is there, and tells whether it was. -/
def eatPunct (text : String) : Read Bool := do
  if ← atPunct text then
    advance
    return true
  else return false

/-- Moves past the word if it is there, and tells whether it was. -/
def eatWord (text : String) : Read Bool := do
  if ← atWord text then
    advance
    return true
  else return false

/-- Moves past the punctuator, which has to be there. -/
def expectPunct (text : String) : Read Unit := do
  unless ← eatPunct text do failure

/-- Moves past the word, which has to be there. -/
def expectWord (text : String) : Read Unit := do
  unless ← eatWord text do failure

/-- Runs a reader without moving the cursor; a failure is an answer too. -/
def lookahead (reader : Read α) : Read (Option α) := fun cursor =>
  some ((reader cursor).map Prod.fst, cursor)

/-- Runs a reader, and goes back to where it started when it fails. -/
def attempt (reader : Read α) : Read (Option α) := fun cursor =>
  match reader cursor with
  | some (value, next) => some (some value, next)
  | none => some (none, cursor)

/-- Repeats a step until it gives a result. The budget bounds the number of rounds. -/
def repeatWithin (step : σ → Read (σ ⊕ α)) : Nat → σ → Read α
  | 0, _ => failure
  | budget + 1, state => do
      match ← step state with
      | .inl state => repeatWithin step budget state
      | .inr result => return result

/--
Repeats a step until it gives a result. Every round but the last reads a character, so a round for each
character left is enough.
-/
def repeatFrom (state : σ) (step : σ → Read (σ ⊕ α)) : Read α := do
  repeatWithin step ((← get).text.length + 2) state

/--
Elements between commas up to a closing punctuator, which stays unread, and whether a comma stands
behind the last one.
-/
def elementsUntil (close : String) (element : Read α) : Read (List α × Bool) :=
  repeatFrom [] fun elements => do
    if ← atPunct close then return .inr (elements.reverse, !elements.isEmpty)
    let elements := (← element) :: elements
    if ← atPunct close then return .inr (elements.reverse, false)
    expectPunct ","
    return .inl elements

/-- The node that starts at an offset and ends behind the token read last. -/
def finishNode (form : Form) (start : Nat) (parts : List Syntax) : Read Syntax := do
  return .node form start (← lastStop) parts

end Read

/-- What the surroundings of an expression or statement allow. -/
structure Setting where
  /-- Is the word `in` an operator here? -/
  allowIn : Bool
  /-- Is `await` an operator here? -/
  await : Bool
  /-- Is `yield` an operator here? -/
  yield : Bool
  /-- Is there a function to return from? -/
  mayReturn : Bool

/-- May the token be an identifier that refers to something? -/
def Setting.isIdentifier (setting : Setting) : Token → Bool
  | .name text _ =>
      if text == "await" then !setting.await
      else if text == "yield" then !setting.yield
      else isFreeWord text
  | _ => false

/-- May the token be bound? The words for waiting and yielding may, but are flaws where they operate. -/
def isBindable : Token → Bool
  | .name text _ => isFreeWord text
  | _ => false

/--
The readers that the grammar is built from and that it is recursive in. Each takes the setting that it
is read in.
-/
structure Rules where
  /-- An expression without a comma at its top. -/
  assignment : Setting → Read Syntax
  /-- Operators that bind stronger than the given strength, with their operands. -/
  binary : Setting → Nat → Read Syntax
  /-- A unary operator with its operand, or less. -/
  unary : Setting → Read Syntax
  /-- A primary expression with its accesses, and whether one of them has a question mark. -/
  member : Setting → Read (Syntax × Bool)
  /-- A binding: a name or a pattern. -/
  binding : Setting → Read Syntax
  /-- A statement or declaration. -/
  statement : Setting → Read Syntax

/-- An expression, with commas allowed at its top. -/
def sequenceOf (rules : Rules) (setting : Setting) : Read Syntax := do
  let start ← Read.start
  let first ← rules.assignment setting
  if ← Read.atPunct "," then
    let all ← Read.repeatFrom [first] fun found => do
      if ← Read.eatPunct "," then return .inl ((← rules.assignment setting) :: found)
      else return .inr found.reverse
    Read.finishNode .sequence start all
  else return first

end Script
end HtmlTemplate
