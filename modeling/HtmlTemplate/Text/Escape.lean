/-!
# Escaping for markup

Text and attribute values are written into markup with the characters that would end them, or start
something else, replaced by character references.
-/

namespace HtmlTemplate
namespace Text

/-- The written form of a character inside element content. -/
def escapeTextChar : Char → List Char
  | '&' => ['&', 'a', 'm', 'p', ';']
  | '<' => ['&', 'l', 't', ';']
  | '>' => ['&', 'g', 't', ';']
  | c => [c]

/-- The written form of a character inside a double-quoted attribute value. -/
def escapeAttributeChar : Char → List Char
  | '&' => ['&', 'a', 'm', 'p', ';']
  | '"' => ['&', 'q', 'u', 'o', 't', ';']
  | c => [c]

/-- A text as element content. -/
def escapeText (value : String) : String :=
  String.ofList (value.toList.flatMap escapeTextChar)

/-- A text as the inside of a double-quoted attribute value. -/
def escapeAttribute (value : String) : String :=
  String.ofList (value.toList.flatMap escapeAttributeChar)

end Text
end HtmlTemplate
