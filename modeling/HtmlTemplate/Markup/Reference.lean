import HtmlTemplate.Markup.ReferenceTable
import HtmlTemplate.Text.Character

/-!
# Character references

A reference stands for one or two characters, and is written with a name or a number behind an ampersand.
A name is read as far as it goes on; an ampersand that starts no reference stands for itself.
-/

namespace HtmlTemplate
namespace Markup
namespace Reference

/-- The characters that numbers of an old code page stand for. -/
def codePage : List (Nat × Nat) :=
  [(0x80, 0x20AC), (0x82, 0x201A), (0x83, 0x192), (0x84, 0x201E), (0x85, 0x2026), (0x86, 0x2020),
   (0x87, 0x2021), (0x88, 0x2C6), (0x89, 0x2030), (0x8A, 0x160), (0x8B, 0x2039), (0x8C, 0x152),
   (0x8E, 0x17D), (0x91, 0x2018), (0x92, 0x2019), (0x93, 0x201C), (0x94, 0x201D), (0x95, 0x2022),
   (0x96, 0x2013), (0x97, 0x2014), (0x98, 0x2DC), (0x99, 0x2122), (0x9A, 0x161), (0x9B, 0x203A),
   (0x9C, 0x153), (0x9E, 0x17E), (0x9F, 0x178)]

/-- The character for what stands for none. -/
def replacement : Char :=
  '\uFFFD'

/-- The character with a number. -/
def ofNumber (number : Nat) : Char :=
  if number == 0 || 0x10FFFF < number || (0xD800 ≤ number && number ≤ 0xDFFF) then replacement
  else Char.ofNat ((codePage.lookup number).getD number)

/-- The number of characters that a semicolon at the start of a text takes. -/
def semicolon : List Char → Nat
  | ';' :: _ => 1
  | _ => 0

/-- The number that digits write, and how many characters it takes with a semicolon behind it. -/
def digits? (base : Nat) (isDigit : Char → Bool) (text : List Char) : Option (Nat × Nat) :=
  match text.takeWhile isDigit with
  | [] => none
  | digits =>
      some (digits.foldl (fun value c => value * base + (Text.hexValue? c).getD 0) 0,
        digits.length + semicolon (text.drop digits.length))

/-- A reference by number, from the text behind the ampersand: its characters and its length. -/
def numbered? (text : List Char) : Option (List Char × Nat) :=
  let found : Option (Nat × Nat) :=
    match text with
    | '#' :: 'x' :: rest => (digits? 16 Text.isHexDigit rest).map fun (value, used) => (value, used + 2)
    | '#' :: 'X' :: rest => (digits? 16 Text.isHexDigit rest).map fun (value, used) => (value, used + 2)
    | '#' :: rest => (digits? 10 Char.isDigit rest).map fun (value, used) => (value, used + 1)
    | _ => none
  found.map fun (value, used) => ([ofNumber value], used)

/-- The longer of two names with their characters. -/
def longer (left right : String × List Nat) : String × List Nat :=
  if left.1.length < right.1.length then right else left

/-- The longest name that a text starts with, and the characters it stands for. -/
def longestName? (text : List Char) : Option (String × List Nat) :=
  match text with
  | [] => none
  | c :: _ =>
      match (referencesFrom c).filter fun entry => entry.1.toList.isPrefixOf text with
      | [] => none
      | entry :: entries => some (entries.foldl longer entry)

/-- Does a name without a semicolon not count in an attribute, for what follows it? -/
def goesOn : List Char → Bool
  | c :: _ => c == '=' || c.isAlphanum
  | [] => false

/-- A reference by name, from the text behind the ampersand: its characters and its length. -/
def named? (inAttribute : Bool) (text : List Char) : Option (List Char × Nat) := do
  let (name, codes) ← longestName? text
  if inAttribute && !name.endsWith ";" && goesOn (text.drop name.length) then none
  else return (codes.map Char.ofNat, name.length)

/-- A reference, from the text behind the ampersand: its characters and its length. -/
def read? (inAttribute : Bool) (text : List Char) : Option (List Char × Nat) :=
  (numbered? text).or (named? inAttribute text)

/-- A text with its references resolved, from behind a number of characters on. -/
def decodeFrom (inAttribute : Bool) : Nat → List Char → List Char
  | _, [] => []
  | skip + 1, _ :: rest => decodeFrom inAttribute skip rest
  | 0, c :: rest =>
      if c == '&' then
        match read? inAttribute rest with
        | some (characters, used) => characters ++ decodeFrom inAttribute used rest
        | none => c :: decodeFrom inAttribute 0 rest
      else c :: decodeFrom inAttribute 0 rest

/-- A text with its references resolved. -/
def decode (inAttribute : Bool) (text : List Char) : List Char :=
  decodeFrom inAttribute 0 text

end Reference
end Markup
end HtmlTemplate
