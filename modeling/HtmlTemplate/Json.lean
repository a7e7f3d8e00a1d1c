import HtmlTemplate.Text.Character
import HtmlTemplate.Text.Quoted

/-!
# JSON

Values keep what their text says: numbers their digits, objects the order of their fields and fields
that are written twice. The reader accepts exactly the JSON grammar; a string that holds half of a
surrogate pair is a value of its own kind, since no text is equal to it.
-/

namespace HtmlTemplate

/-- A JSON value. -/
inductive Json
  | null
  | bool (value : Bool)
  /-- A number, by its text. -/
  | number (literal : String)
  | string (value : String)
  /-- A string with half of a surrogate pair in it. -/
  | unpaired
  | array (elements : List Json)
  | object (fields : List (String × Json))
  deriving Inhabited, Repr

namespace Json

/-! ## Reading -/

/-- The white space between the parts of a JSON text. -/
def isGap (c : Char) : Bool :=
  c == ' ' || c == '\n' || c == '\t' || c == '\r'

/-- The text from the next part on. -/
def skipGap (text : List Char) : List Char :=
  text.dropWhile isGap

/-- The unit that four digits in base sixteen write. -/
def hexUnit? (digits : List Char) : Option Nat :=
  if digits.all Text.isHexDigit then some (Text.hexNumber digits) else none

/-- The character that an escape of one letter stands for. -/
def shortEscape? (c : Char) : Option Char :=
  if c == '"' || c == '\\' || c == '/' then some c
  else if c == 'b' then some '\x08'
  else if c == 'f' then some '\x0c'
  else if c == 'n' then some '\n'
  else if c == 'r' then some '\r'
  else if c == 't' then some '\t'
  else none

/-- Is the unit the first half of a surrogate pair? -/
def isHighUnit (unit : Nat) : Bool :=
  0xD800 ≤ unit && unit < 0xDC00

/-- Is the unit the second half of a surrogate pair? -/
def isLowUnit (unit : Nat) : Bool :=
  0xDC00 ≤ unit && unit < 0xE000

/-- One UTF-16 unit, or a character that is written as itself. -/
abbrev Unit16 := Nat

/-- The units of a string up to its closing quote, and the text behind it. -/
def stringUnits : List Char → Option (List Unit16 × List Char)
  | [] => none
  | '"' :: rest => some ([], rest)
  | '\\' :: 'u' :: a :: b :: c :: d :: rest => do
      let unit ← hexUnit? [a, b, c, d]
      let (units, rest) ← stringUnits rest
      pure (unit :: units, rest)
  | '\\' :: c :: rest => do
      let c ← shortEscape? c
      let (units, rest) ← stringUnits rest
      pure (c.toNat :: units, rest)
  | c :: rest =>
      if c.toNat < 0x20 then none
      else do
        let (units, rest) ← stringUnits rest
        pure (c.toNat :: units, rest)

/-- The characters that units write, if all surrogates among them come in pairs. -/
def pairUnits : List Unit16 → Option (List Char)
  | [] => some []
  | high :: low :: units =>
      if isHighUnit high then
        if isLowUnit low then
          (pairUnits units).map (Char.ofNat (0x10000 + (high - 0xD800) * 0x400 + (low - 0xDC00)) :: ·)
        else none
      else if isLowUnit high then none
      else (pairUnits (low :: units)).map (Char.ofNat high :: ·)
  | [unit] => if isHighUnit unit || isLowUnit unit then none else some [Char.ofNat unit]

/-- The digits at the start of a text, of which there has to be at least one, and what follows. -/
def digits? (text : List Char) : Option (List Char × List Char) :=
  match text.takeWhile Char.isDigit with
  | [] => none
  | digits => some (digits, text.dropWhile Char.isDigit)

/-- The sign of a number, if it has one. -/
def sign (text : List Char) : List Char × List Char :=
  match text with
  | '-' :: rest => (['-'], rest)
  | rest => ([], rest)

/-- The whole part of a number, which starts with a zero only if it is one. -/
def whole? (text : List Char) : Option (List Char × List Char) :=
  match text with
  | '0' :: rest => some (['0'], rest)
  | text => digits? text

/-- The fraction of a number, if it has one. -/
def fraction? (text : List Char) : Option (List Char × List Char) :=
  match text with
  | '.' :: rest => (digits? rest).map fun (digits, rest) => ('.' :: digits, rest)
  | rest => some ([], rest)

/-- The exponent of a number, if it has one. -/
def exponent? (text : List Char) : Option (List Char × List Char) :=
  match text with
  | mark :: rest =>
      if mark == 'e' || mark == 'E' then
        match rest with
        | '+' :: rest => (digits? rest).map fun (digits, rest) => (mark :: '+' :: digits, rest)
        | '-' :: rest => (digits? rest).map fun (digits, rest) => (mark :: '-' :: digits, rest)
        | rest => (digits? rest).map fun (digits, rest) => (mark :: digits, rest)
      else some ([], text)
  | [] => some ([], [])

/-- A number at the start of a text. -/
def number? (text : List Char) : Option (Json × List Char) := do
  let (minus, text) := sign text
  let (whole, text) ← whole? text
  let (fraction, text) ← fraction? text
  let (exponent, text) ← exponent? text
  return (.number (String.ofList (minus ++ whole ++ fraction ++ exponent)), text)

/-- A word at the start of a text. -/
def word? (word : String) (value : Json) (text : List Char) : Option (Json × List Char) :=
  if word.toList.isPrefixOf text then some (value, text.drop word.length) else none

/-- The key of a field and the colon behind it. -/
def key? (text : List Char) : Option (String × List Char) := do
  match skipGap text with
  | '"' :: rest =>
      let (units, rest) ← stringUnits rest
      let key ← pairUnits units
      match skipGap rest with
      | ':' :: rest => return (String.ofList key, rest)
      | _ => failure
  | _ => failure

mutual

/-- A value at the start of a text. The budget bounds the number of parts. -/
def value? : Nat → List Char → Option (Json × List Char)
  | 0, _ => none
  | budget + 1, text =>
      match skipGap text with
      | '"' :: rest => do
          let (units, rest) ← stringUnits rest
          match pairUnits units with
          | some chars => pure (.string (String.ofList chars), rest)
          | none => pure (.unpaired, rest)
      | '[' :: rest =>
          match skipGap rest with
          | ']' :: rest => some (.array [], rest)
          | rest => do
              let (elements, rest) ← elements? budget rest
              pure (.array elements, rest)
      | '\x7b' :: rest =>
          match skipGap rest with
          | '\x7d' :: rest => some (.object [], rest)
          | rest => do
              let (fields, rest) ← fields? budget rest
              pure (.object fields, rest)
      | 'n' :: rest => word? "null" .null ('n' :: rest)
      | 't' :: rest => word? "true" (.bool true) ('t' :: rest)
      | 'f' :: rest => word? "false" (.bool false) ('f' :: rest)
      | rest => number? rest

/-- One or more values between commas, and the bracket that closes them. -/
def elements? : Nat → List Char → Option (List Json × List Char)
  | 0, _ => none
  | budget + 1, text => do
      let (element, rest) ← value? budget text
      match skipGap rest with
      | ',' :: rest =>
          let (elements, rest) ← elements? budget rest
          pure (element :: elements, rest)
      | ']' :: rest => pure ([element], rest)
      | _ => none

/-- One or more fields between commas, and the brace that closes them. -/
def fields? : Nat → List Char → Option (List (String × Json) × List Char)
  | 0, _ => none
  | budget + 1, text => do
      let (key, rest) ← key? text
      let (value, rest) ← value? budget rest
      match skipGap rest with
      | ',' :: rest =>
          let (fields, rest) ← fields? budget rest
          pure ((key, value) :: fields, rest)
      | '\x7d' :: rest => pure ([(key, value)], rest)
      | _ => none

end

/-- The value that a whole text writes. -/
def parse? (text : String) : Option Json := do
  let chars := text.toList
  let (value, rest) ← value? (2 * chars.length + 2) chars
  if (skipGap rest).isEmpty then some value else none

/-! ## Writing -/

mutual

/-- The shortest text of a value: no white space, fields in their order. -/
def render : Json → String
  | null => "null"
  | bool true => "true"
  | bool false => "false"
  | number literal => literal
  | string value => Text.jsonString value
  | unpaired => "\"\\ud800\""
  | array elements => "[" ++ renderElements elements ++ "]"
  | object fields => "\x7b" ++ renderFields fields ++ "\x7d"

/-- The values between commas. -/
def renderElements : List Json → String
  | [] => ""
  | [element] => render element
  | element :: elements => render element ++ "," ++ renderElements elements

/-- The fields between commas. -/
def renderFields : List (String × Json) → String
  | [] => ""
  | [(key, value)] => Text.jsonString key ++ ":" ++ render value
  | (key, value) :: fields => Text.jsonString key ++ ":" ++ render value ++ "," ++ renderFields fields

end

/-! ## Looking into values -/

/-- The first field of an object with a key. -/
def field? (key : String) : Json → Option Json
  | object fields => fields.lookup key
  | _ => none

/-- The text of a string. -/
def string? : Json → Option String
  | string value => some value
  | _ => none

/-- The value of a truth value. -/
def bool? : Json → Option Bool
  | bool value => some value
  | _ => none

/-- The number that is written with digits only. -/
def nat? : Json → Option Nat
  | number literal => if literal.toList.all Char.isDigit then literal.toNat? else none
  | _ => none

/-- The elements of an array. -/
def array? : Json → Option (List Json)
  | array elements => some elements
  | _ => none

/-- The fields of an object. -/
def object? : Json → Option (List (String × Json))
  | object fields => some fields
  | _ => none

/-- A natural number as a value. -/
def ofNat (n : Nat) : Json :=
  .number (toString n)

/-- A text as a value, or nothing. -/
def ofString? : Option String → Json
  | some value => .string value
  | none => .null

end Json

end HtmlTemplate
