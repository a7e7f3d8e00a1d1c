import HtmlTemplate.Text.Character
import HtmlTemplate.Text.Visible

/-!
# Quoted texts

Two ways to write a text between double quotes: as a JSON string, which is also a JavaScript string
literal, and as a debug quotation, in which every character that would not show is written by its code
point.
-/

namespace HtmlTemplate
namespace Text

/-- The written form of a character inside a JSON string. -/
def jsonChar (c : Char) : List Char :=
  if c == '"' then ['\\', '"']
  else if c == '\\' then ['\\', '\\']
  else if c == '\x08' then ['\\', 'b']
  else if c == '\x0c' then ['\\', 'f']
  else if c == '\n' then ['\\', 'n']
  else if c == '\r' then ['\\', 'r']
  else if c == '\t' then ['\\', 't']
  else if c.toNat < 0x20 then '\\' :: 'u' :: hexPadded 4 c.toNat
  else [c]

/-- A text as a JSON string: quotes, backslashes and control characters are escaped, all else stands. -/
def jsonString (value : String) : String :=
  String.ofList ('"' :: value.toList.flatMap jsonChar ++ ['"'])

/-- The written form of a character inside a debug quotation. -/
def debugChar (c : Char) : List Char :=
  if c == '"' then ['\\', '"']
  else if c == '\\' then ['\\', '\\']
  else if c == '\x00' then ['\\', '0']
  else if c == '\n' then ['\\', 'n']
  else if c == '\r' then ['\\', 'r']
  else if c == '\t' then ['\\', 't']
  else if isVisible c then [c]
  else '\\' :: 'u' :: '\x7b' :: hex c.toNat ++ ['\x7d']

/-- A text as a debug quotation. -/
def debugString (value : String) : String :=
  String.ofList ('"' :: value.toList.flatMap debugChar ++ ['"'])

end Text
end HtmlTemplate
