import HtmlTemplate.Markup.Draft
import HtmlTemplate.Markup.Rules.Foreign

/-!
# Reading documents

A text is read as tokens, and a document is constructed from them. The construction says how the text goes
on where that depends on it: inside some elements there are no tags.
-/

namespace HtmlTemplate
namespace Markup

namespace Doctype

/-- Identifiers of document types from before the standards, in lower case. -/
def oldIdentifiers : List String :=
  ["-//w3o//dtd w3 html strict 3.0//en//", "-/w3c/dtd html 4.0 transitional/en", "html"]

/-- How identifiers of old document types start, in lower case. -/
def oldIdentifierStarts : List String :=
  ["-//ietf//dtd html", "-//w3c//dtd html 3 1995-03-24//", "-//w3c//dtd html 3.2",
   "-//w3c//dtd html 4.0 frameset//", "-//w3c//dtd html 4.0 transitional//",
   "-//w3c//dtd html experimental 19960712//", "-//w3c//dtd html experimental 970421//",
   "-//w3c//dtd w3 html//", "-//w3o//dtd w3 html 3.0//"]

/-- How identifiers of document types start that are old without a system identifier, in lower case. -/
def transitionalStarts : List String :=
  ["-//w3c//dtd html 4.01 frameset//", "-//w3c//dtd html 4.01 transitional//"]

/-- Is a document of this type treated as one from before the standards? -/
def isOld (doctype : Doctype) : Bool :=
  let startsWithOne (starts : List String) :=
    match doctype.publicId with
    | some identifier => starts.any fun start => start.toList.isPrefixOf identifier.toLower.toList
    | none => false
  doctype.broken || doctype.name != "html" ||
    (doctype.publicId.map fun identifier => oldIdentifiers.contains identifier.toLower).getD false ||
    startsWithOne oldIdentifierStarts ||
    (doctype.systemId.isNone && startsWithOne transitionalStarts)

end Doctype

namespace Build

/-- A document type counts at the start only. -/
def takeDoctype (doctype : Doctype) : Build Unit := do
  if (← get).mode == .initial then
    let ref ← make (.doctype doctype.name)
    changeDraft fun draft => draft.append Draft.root ref
    modify fun state => { state with old := doctype.isOld, mode := .beforeHtml }

/-- Treats a token until it is done with. The budget bounds how often. -/
def treat : Nat → Token → Build Next
  | 0, _ => return .done
  | budget + 1, token => do
      match ← stepAnywhere token with
      | .again token => treat budget token
      | next => return next

/-- How often a token may be treated: every time but a few closes an element or a template. -/
def treatments (state : Construction) : Nat :=
  4 * (state.stack.length + state.templateModes.length) + 32

/-- A token without the line feed that it starts with. -/
def withoutLineFeed : Token → Option Token
  | .space ('\n' :: []) => none
  | .space ('\n' :: rest) => some (.space rest)
  | token => some token

/-- Takes a token. -/
def takeToken (token : Token) : Build Next := do
  let state ← get
  modify fun state => { state with dropLineFeed := false }
  match if state.dropLineFeed then withoutLineFeed token else some token with
  | none => return .done
  | some (.doctype doctype) => do
      takeDoctype doctype
      return .done
  | some token => treat (treatments state) token

/-- Takes tokens, and tells how the text goes on behind the last of them. -/
def takeTokens : Next → List Token → Build Next
  | next, [] => return next
  | _, token :: rest => do
      let next ← takeToken token
      takeTokens next rest

/-- Is the innermost open element foreign? -/
def inForeign : Build Bool := do
  return ((← current).map fun element => element.kind.vocabulary != .html).getD false

/-- Takes all tokens of a text. Each round takes a character at least, which bounds the rounds. -/
def takeText : Nat → List Char → Build Unit
  | 0, _ => return ()
  | rounds + 1, text => do
      let (tokens, rest) := readTokens (← inForeign) text
      match ← takeTokens .done tokens with
      | .raw kind tag => do
          let (tokens, rest) := readRawTokens kind tag rest
          let _ ← takeTokens .done tokens
          takeText rounds rest
      | .plaintext => do
          let _ ← takeTokens .done (rawTokens rest)
          let _ ← takeToken .done
          return ()
      | _ => if text.isEmpty then return () else takeText rounds rest

end Build

/-- A text with all line ends written as line feeds. -/
def joinLineEnds : List Char → List Char
  | '\r' :: '\n' :: rest => '\n' :: joinLineEnds rest
  | '\r' :: rest => '\n' :: joinLineEnds rest
  | c :: rest => c :: joinLineEnds rest
  | [] => []

/-- A text without the mark of its encoding at the start. -/
def withoutMark : List Char → List Char
  | '\uFEFF' :: rest => rest
  | text => text

/-- The content of the document that a text writes. Every text writes one. -/
def read (text : List Char) : List Content :=
  let text := joinLineEnds (withoutMark text)
  ((Build.takeText (text.length + 2) text).run {}).2.draft.content

end Markup
end HtmlTemplate
