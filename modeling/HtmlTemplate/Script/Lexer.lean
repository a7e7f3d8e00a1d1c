import HtmlTemplate.Script.NameChar
import HtmlTemplate.Text.Character

/-!
# Tokens of JavaScript and how they are read
-/

namespace HtmlTemplate
namespace Script

/-!
## Tokens of JavaScript

A token keeps what the grammar asks about: the text of a name and whether it was spelled with escapes,
whether a template piece is the last of its literal, the text of a punctuator.
-/

/-- The tokens of JavaScript. -/
inductive Token
  /-- An identifier or a keyword, by its decoded text. -/
  | name (text : String) (escaped : Bool)
  /-- A name after a number sign. -/
  | privateName
  /-- A number, with or without the suffix of big integers. -/
  | number
  /-- A string literal. -/
  | string
  /-- A piece of a template literal up to a substitution, or up to the end when it is closed. -/
  | template (closed wellFormed : Bool)
  /-- A regular expression literal. -/
  | pattern
  /-- A punctuator or operator. -/
  | punct (text : String)
  /-- The end of the text. -/
  | finish
  deriving DecidableEq, Repr, Inhabited

/-- Words that no binding, reference or label may use. -/
def reservedWords : List String :=
  ["break", "case", "catch", "class", "const", "continue", "debugger", "default", "delete", "do",
   "else", "enum", "export", "extends", "false", "finally", "for", "function", "if", "import", "in",
   "instanceof", "new", "null", "return", "super", "switch", "this", "throw", "true", "try", "typeof",
   "var", "void", "while", "with"]

/-- May the word name something, leaving aside await and yield? -/
def isFreeWord (word : String) : Bool :=
  !reservedWords.contains word

/-- The punctuators, longest first, so that the first one that fits is the one read. -/
def punctuators : List String :=
  [">>>=",
   "...", "===", "!==", "**=", "<<=", ">>=", ">>>", "&&=", "||=", "??=",
   "=>", "==", "!=", "<=", ">=", "&&", "||", "??", "?.", "++", "--", "+=", "-=", "*=", "/=", "%=",
   "&=", "|=", "^=", "<<", ">>", "**",
   "\x7b", "\x7d", "(", ")", "[", "]", ";", ",", "<", ">", "+", "-", "*", "/", "%", "&", "|", "^",
   "!", "~", "?", ":", "=", ".", "@"]

/-- The operators that assign to the target on their left. -/
def assignmentOperators : List String :=
  ["=", "+=", "-=", "*=", "/=", "%=", "**=", "<<=", ">>=", ">>>=", "&=", "|=", "^=", "&&=", "||=",
   "??="]

/-- The binding strength of a binary operator; a stronger one binds its operands first. -/
def Token.strength? : Token → Option Nat
  | .punct text =>
      if text == "??" then some 1
      else if text == "||" then some 2
      else if text == "&&" then some 3
      else if text == "|" then some 4
      else if text == "^" then some 5
      else if text == "&" then some 6
      else if ["==", "!=", "===", "!=="].contains text then some 7
      else if ["<", ">", "<=", ">="].contains text then some 8
      else if ["<<", ">>", ">>>"].contains text then some 9
      else if ["+", "-"].contains text then some 10
      else if ["*", "/", "%"].contains text then some 11
      else if text == "**" then some 12
      else none
  | .name text false => if text == "in" || text == "instanceof" then some 8 else none
  | _ => none

/-- The strength of the comparison operators, among them the word `in`. -/
def comparisonStrength : Nat := 8

/-- The strength of the power operator, the only one that groups to the right. -/
def powerStrength : Nat := 12

/-!
## Reading JavaScript tokens

Every function here takes the characters from some point of the text on and gives back the characters
after what it read, or nothing when no token can be read there. Two tokens are read on demand of the
grammar only: regular expressions and the pieces of a template after a substitution.
-/

open Text (isHexDigit hexNumber)

/-! ### Between tokens -/

/-- Does the character end a line? -/
def isLineBreak (c : Char) : Bool :=
  c == '\n' || c == '\r' || c == '\u2028' || c == '\u2029'

/-- Characters that separate tokens without ending a line. -/
def isGap (c : Char) : Bool :=
  c == ' ' || c == '\t' || c == '\x0b' || c == '\x0c' || c == '\u0085' || c == '\u00a0' ||
  c == '\u1680' || (0x2000 ≤ c.toNat && c.toNat ≤ 0x200B) || c == '\u202f' || c == '\u205f' ||
  c == '\u3000' || c == '\ufeff'

/-- Where a reader that skips from one token to the next stands. -/
inductive Gap
  | between
  | lineComment
  | blockComment
  deriving DecidableEq

/--
Skips blanks and comments. The answer tells whether a line ended on the way; there is none when a
comment is left open.
-/
def skipGap : Gap → Bool → List Char → Option (Bool × List Char)
  | .between, broken, '/' :: '/' :: rest => skipGap .lineComment broken rest
  | .between, broken, '/' :: '*' :: rest => skipGap .blockComment broken rest
  | .blockComment, broken, '*' :: '/' :: rest => skipGap .between broken rest
  | .blockComment, _, [] => none
  | _, broken, [] => some (broken, [])
  | .between, broken, c :: rest =>
      if isLineBreak c then skipGap .between true rest
      else if isGap c then skipGap .between broken rest
      else some (broken, c :: rest)
  | .lineComment, broken, c :: rest =>
      if isLineBreak c then skipGap .between true rest else skipGap .lineComment broken rest
  | .blockComment, broken, c :: rest => skipGap .blockComment (broken || isLineBreak c) rest

/-! ### Escapes -/

/-- The code point after a backslash and a letter u: four digits, or any number of them in braces. -/
def codePoint? : List Char → Option (Nat × List Char)
  | '\x7b' :: rest =>
      let digits := rest.takeWhile isHexDigit
      match rest.dropWhile isHexDigit with
      | '\x7d' :: after =>
          if digits.isEmpty || hexNumber digits > 0x10FFFF then none else some (hexNumber digits, after)
      | _ => none
  | a :: b :: c :: d :: rest =>
      if [a, b, c, d].all isHexDigit then some (hexNumber [a, b, c, d], rest) else none
  | _ => none

/-- May the character `c` with `rest` behind it stand after a backslash in a string or a template? -/
def isEscape (inTemplate : Bool) (c : Char) (rest : List Char) : Bool :=
  if c == 'x' then (rest.take 2).length == 2 && (rest.take 2).all isHexDigit
  else if c == 'u' then (codePoint? rest).isSome
  else if inTemplate && c.isDigit then c == '0' && !(rest.take 1).any Char.isDigit
  else true

/-! ### Names -/

/--
The characters of a name, decoded, with whether it holds escapes. The budget bounds the number of
characters; the length of the text is enough.
-/
def nameTail : Nat → List Char → Option (List Char × Bool × List Char)
  | 0, rest => some ([], false, rest)
  | budget + 1, '\\' :: 'u' :: rest => do
      let (code, after) ← codePoint? rest
      let c := Char.ofNat code
      if code == c.toNat && isNamePart c then
        let (tail, _, rest) ← nameTail budget after
        pure (c :: tail, true, rest)
      else none
  | _ + 1, '\\' :: _ => none
  | budget + 1, c :: rest =>
      if isNamePart c then do
        let (tail, escaped, rest) ← nameTail budget rest
        pure (c :: tail, escaped, rest)
      else some ([], false, c :: rest)
  | _ + 1, [] => some ([], false, [])

/-- A name at the start of the text: its decoded text, whether it holds escapes, and what follows. -/
def name? (text : List Char) : Option (List Char × Bool × List Char) := do
  let (name, escaped, rest) ← nameTail text.length text
  match name with
  | c :: _ => if isNameStart c then some (name, escaped, rest) else none
  | [] => none

/-! ### Numbers -/

/-- Drops digits, with single underscores allowed between them. -/
def dropDigits (isDigit : Char → Bool) : List Char → Option (List Char)
  | '_' :: d :: rest => if isDigit d then dropDigits isDigit rest else none
  | ['_'] => none
  | c :: rest => if isDigit c then dropDigits isDigit rest else some (c :: rest)
  | [] => some []

/-- A number has to be followed by something that is no digit and starts no name. -/
def endNumber (rest : List Char) : Option (List Char) :=
  if (rest.take 1).any fun c => c.isDigit || isNameStart c || c == '\\' then none else some rest

/-- Drops digits of which there has to be at least one. -/
def someDigits (isDigit : Char → Bool) (text : List Char) : Option (List Char) :=
  if (text.take 1).any isDigit then dropDigits isDigit text else none

/-- The digits of a number with a base mark, and the suffix of big integers. -/
def basedNumber (isDigit : Char → Bool) (text : List Char) : Option (List Char) := do
  match ← someDigits isDigit text with
  | 'n' :: rest => endNumber rest
  | rest => endNumber rest

/-- An optional exponent, which ends the number. -/
def exponent (text : List Char) : Option (List Char) := do
  match text with
  | c :: rest =>
      if c == 'e' || c == 'E' then
        let digits := match rest with
          | '+' :: digits => digits
          | '-' :: digits => digits
          | digits => digits
        endNumber (← someDigits Char.isDigit digits)
      else endNumber text
  | [] => some []

/-- What may follow the decimal point of a number. -/
def fraction (text : List Char) : Option (List Char) := do
  if (text.take 1).any Char.isDigit then exponent (← dropDigits Char.isDigit text) else exponent text

/-- A number at the start of the text, which holds a digit or a point and a digit there. -/
def number? : List Char → Option (List Char)
  | '.' :: rest => fraction rest
  | '0' :: c :: rest =>
      if c == 'x' || c == 'X' then basedNumber isHexDigit rest
      else if c == 'o' || c == 'O' then basedNumber (fun d => '0' ≤ d && d ≤ '7') rest
      else if c == 'b' || c == 'B' then basedNumber (fun d => d == '0' || d == '1') rest
      else if c == '.' then fraction rest
      else if c == 'n' then endNumber rest
      else if c.isDigit then
        let digits := c :: rest.takeWhile Char.isDigit
        let after := rest.dropWhile Char.isDigit
        if digits.any fun d => d == '8' || d == '9' then
          match after with
          | '.' :: after => fraction after
          | after => exponent after
        else endNumber after
      else exponent (c :: rest)
  | text => do
      match ← dropDigits Char.isDigit text with
      | '.' :: rest => fraction rest
      | 'n' :: rest => endNumber rest
      | rest => exponent rest

/-! ### Strings, templates and regular expressions -/

/-- What follows the closing quote of a string. -/
def stringTail (quote : Char) : List Char → Option (List Char)
  | [] => none
  | '\\' :: '\r' :: '\n' :: rest => stringTail quote rest
  | '\\' :: c :: rest => if isEscape false c rest then stringTail quote rest else none
  | c :: rest =>
      if c == quote then some rest
      else if c == '\n' || c == '\r' then none
      else stringTail quote rest

/--
What follows a piece of a template, whether the piece closes the literal, and whether all its escapes
are well formed.
-/
def templateTail (wellFormed : Bool) : List Char → Option (Bool × Bool × List Char)
  | [] => none
  | '\x60' :: rest => some (true, wellFormed, rest)
  | '$' :: '\x7b' :: rest => some (false, wellFormed, rest)
  | '\\' :: c :: rest => templateTail (wellFormed && isEscape true c rest) rest
  | _ :: rest => templateTail wellFormed rest

/-- What follows the closing slash of a regular expression; brackets hide slashes. -/
def patternTail (inClass : Bool) : List Char → Option (List Char)
  | [] => none
  | '\\' :: c :: rest => if isLineBreak c then none else patternTail inClass rest
  | c :: rest =>
      if isLineBreak c then none
      else if c == '[' then patternTail true rest
      else if c == ']' then patternTail false rest
      else if c == '/' && !inClass then some rest
      else patternTail inClass rest

/-- The characters that run on from the closing slash of a regular expression. -/
def isFlagChar (c : Char) : Bool :=
  c.isAlphanum || c == '$' || c == '_'

/-- A regular expression whose opening slash has been read: its flags are known and differ. -/
def pattern? (text : List Char) : Option (List Char) := do
  let rest ← patternTail false text
  let flags := rest.takeWhile isFlagChar
  if flags.all (fun c => ['d', 'g', 'i', 'm', 's', 'u', 'v', 'y'].contains c) && decide flags.Nodup then
    some (rest.dropWhile isFlagChar)
  else none

/-! ### Tokens -/

/-- The first of the given texts that the input starts with, and what follows it. -/
def firstMatch? (texts : List String) (input : List Char) : Option (String × List Char) :=
  texts.findSome? fun text =>
    if text.toList.isPrefixOf input then some (text, input.drop text.length) else none

/-- A punctuator. A question mark and a point before a digit are two tokens. -/
def punct? (text : List Char) : Option (String × List Char) :=
  match text with
  | '?' :: '.' :: c :: rest =>
      if c.isDigit then some ("?", '.' :: c :: rest) else some ("?.", c :: rest)
  | _ => firstMatch? punctuators text

/-- The token at the start of a text that begins with no gap, and what follows it. -/
def token? (text : List Char) : Option (Token × List Char) :=
  match text with
  | [] => some (.finish, [])
  | '"' :: rest => (stringTail '"' rest).map fun rest => (.string, rest)
  | '\'' :: rest => (stringTail '\'' rest).map fun rest => (.string, rest)
  | '\x60' :: rest =>
      (templateTail true rest).map fun (closed, wellFormed, rest) => (.template closed wellFormed, rest)
  | '#' :: rest => (name? rest).map fun (_, _, rest) => (.privateName, rest)
  | c :: rest =>
      if c.isDigit || (c == '.' && (rest.take 1).any Char.isDigit) then
        (number? text).map fun rest => (.number, rest)
      else if isNameStart c || c == '\\' then
        (name? text).map fun (name, escaped, rest) => (.name (String.ofList name) escaped, rest)
      else (punct? text).map fun (punct, rest) => (.punct punct, rest)

end Script
end HtmlTemplate
