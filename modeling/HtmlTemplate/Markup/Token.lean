import HtmlTemplate.Markup.Element
import HtmlTemplate.Markup.Reference

/-!
# Tokens of markup

Markup is read as texts, tags, comments and document types. There is no text that cannot be read: what
starts no tag is text, and what is malformed is read as well as it goes. A tag that the end of the text
cuts off is dropped.
-/

namespace HtmlTemplate
namespace Markup

/-- A start tag. -/
structure Tag where
  name : String
  attributes : Attributes := .empty
  selfClosing : Bool := false
  deriving DecidableEq, Repr, Inhabited

/-- A document type. -/
structure Doctype where
  name : String := ""
  publicId : Option String := none
  systemId : Option String := none
  /-- Is it so malformed that the document counts as an old one? -/
  broken : Bool := false
  deriving DecidableEq, Repr, Inhabited

/-- A token of markup. -/
inductive Token
  /-- White space. -/
  | space (value : List Char)
  /-- Text that holds no white space. -/
  | text (value : List Char)
  | null
  | start (tag : Tag)
  | stop (name : String)
  | comment (value : String)
  | doctype (doctype : Doctype)
  | done
  deriving DecidableEq, Repr, Inhabited

/-- White space of markup. -/
def isGap (c : Char) : Bool :=
  c == ' ' || c == '\n' || c == '\t' || c == '\x0c' || c == '\r'

/-- A character inside a token: there is none with number zero. -/
def kept (c : Char) : Char :=
  if c == '\x00' then Reference.replacement else c

/-- A text inside a token. -/
def keptText (text : List Char) : String :=
  String.ofList (text.map kept)

/-- A name: letters are read in lower case. -/
def nameText (text : List Char) : String :=
  String.ofList (text.map fun c => (kept c).toLower)

/-- Does a text start with another one, in either case? The other one is in lower case. -/
def startsWith (mark : String) (text : List Char) : Bool :=
  mark.toList.isPrefixOf ((text.take mark.length).map Char.toLower)

namespace Token

/-- A text as tokens, cut where white space starts or ends. -/
def ofText : List Char → List Token
  | [] => []
  | c :: rest =>
      if c == '\x00' then null :: ofText rest
      else
        match ofText rest, isGap c with
        | space value :: tokens, true => space (c :: value) :: tokens
        | tokens, true => space [c] :: tokens
        | text value :: tokens, false => text (c :: value) :: tokens
        | tokens, false => text [c] :: tokens

end Token

/-! ## Attributes -/

/-- What is read of a tag behind its name. -/
inductive TagState
  /-- Before an attribute or the end of the tag. -/
  | outside
  /-- Behind a slash. -/
  | slash
  /-- In a name, its characters reversed. -/
  | name (name : List Char)
  /-- Behind a name. -/
  | named (name : List Char)
  /-- Behind the sign between a name and its value. -/
  | equals (name : List Char)
  /-- In a value, its characters reversed, up to a quote or, without one, to the next white space. -/
  | value (name : List Char) (quote : Option Char) (value : List Char)
  deriving DecidableEq, Repr, Inhabited

/-- Attributes with one more, unless there is one of its name. -/
def addAttribute (attributes : Attributes) (name value : List Char) : Attributes :=
  attributes.add (nameText name.reverse) (keptText (Reference.decode true value.reverse))

/--
The attributes of a tag, whether it closes itself, and the text behind it; nothing, if the text ends
before the tag does.
-/
def readAttributes (attributes : Attributes) : TagState → List Char → Option (Attributes × Bool × List Char)
  | _, [] => none
  | .outside, c :: rest =>
      if isGap c then readAttributes attributes .outside rest
      else if c == '/' then readAttributes attributes .slash rest
      else if c == '>' then some (attributes, false, rest)
      else readAttributes attributes (.name [c]) rest
  | .slash, c :: rest =>
      if c == '>' then some (attributes, true, rest)
      else if isGap c then readAttributes attributes .outside rest
      else if c == '/' then readAttributes attributes .slash rest
      else readAttributes attributes (.name [c]) rest
  | .name name, c :: rest =>
      if isGap c then readAttributes attributes (.named name) rest
      else if c == '/' then readAttributes (addAttribute attributes name []) .slash rest
      else if c == '=' then readAttributes attributes (.equals name) rest
      else if c == '>' then some (addAttribute attributes name [], false, rest)
      else readAttributes attributes (.name (c :: name)) rest
  | .named name, c :: rest =>
      if isGap c then readAttributes attributes (.named name) rest
      else if c == '/' then readAttributes (addAttribute attributes name []) .slash rest
      else if c == '=' then readAttributes attributes (.equals name) rest
      else if c == '>' then some (addAttribute attributes name [], false, rest)
      else readAttributes (addAttribute attributes name []) (.name [c]) rest
  | .equals name, c :: rest =>
      if isGap c then readAttributes attributes (.equals name) rest
      else if c == '"' || c == '\'' then readAttributes attributes (.value name (some c) []) rest
      else if c == '>' then some (addAttribute attributes name [], false, rest)
      else readAttributes attributes (.value name none [c]) rest
  | .value name (some quote) value, c :: rest =>
      if c == quote then readAttributes (addAttribute attributes name value) .outside rest
      else readAttributes attributes (.value name (some quote) (c :: value)) rest
  | .value name none value, c :: rest =>
      if isGap c then readAttributes (addAttribute attributes name value) .outside rest
      else if c == '>' then some (addAttribute attributes name value, false, rest)
      else readAttributes attributes (.value name none (c :: value)) rest

/-- May the character not stand in a tag name? -/
def endsTagName (c : Char) : Bool :=
  isGap c || c == '/' || c == '>'

/-- A tag, from its name on, and the text behind it. -/
def readTag (text : List Char) : Option (Tag × List Char) := do
  let name := text.takeWhile fun c => !endsTagName c
  let (attributes, selfClosing, rest) ← readAttributes .empty .outside (text.drop name.length)
  return ({ name := nameText name, attributes, selfClosing }, rest)

/-! ## Comments -/

/-- What the end of a comment would be read from here. -/
inductive CommentState
  | opened
  | openedDash
  | inside
  | dash
  | dashes
  | bang
  deriving DecidableEq, Repr, Inhabited

/-- What is read, with more characters before it. -/
def prepend (more : List Char) (read : List Char × List Char) : List Char × List Char :=
  (more ++ read.1, read.2)

/-- The text of a comment, and the text behind the comment. -/
def readComment : CommentState → List Char → List Char × List Char
  | _, [] => ([], [])
  | .opened, c :: rest =>
      if c == '-' then readComment .openedDash rest
      else if c == '>' then ([], rest)
      else prepend [c] (readComment .inside rest)
  | .openedDash, c :: rest =>
      if c == '-' then readComment .dashes rest
      else if c == '>' then ([], rest)
      else prepend ['-', c] (readComment .inside rest)
  | .inside, c :: rest =>
      if c == '-' then readComment .dash rest else prepend [c] (readComment .inside rest)
  | .dash, c :: rest =>
      if c == '-' then readComment .dashes rest
      else prepend ['-', c] (readComment .inside rest)
  | .dashes, c :: rest =>
      if c == '>' then ([], rest)
      else if c == '!' then readComment .bang rest
      else if c == '-' then prepend ['-'] (readComment .dashes rest)
      else prepend ['-', '-', c] (readComment .inside rest)
  | .bang, c :: rest =>
      if c == '-' then prepend ['-', '-', '!'] (readComment .dash rest)
      else if c == '>' then ([], rest)
      else prepend ['-', '-', '!', c] (readComment .inside rest)

/-- A malformed declaration is a comment up to the next sign that ends a tag. -/
def readBogus (text : List Char) : List Token × List Char :=
  let value := text.takeWhile fun c => c != '>'
  ([.comment (keptText value)], text.drop (value.length + 1))

/-! ## Document types -/

/-- The text behind white space. -/
def skipGaps (text : List Char) : List Char :=
  text.dropWhile isGap

/-- The text behind the next sign that ends a tag. -/
def skipTag (text : List Char) : List Char :=
  (text.dropWhile fun c => c != '>').drop 1

/-- What is read of an identifier in a document type. -/
inductive Identifier
  /-- An identifier, and the text behind its quotes. -/
  | quoted (value : String) (rest : List Char)
  /-- Quotes that the end of the declaration cuts off, and the text behind it. -/
  | cutOff (value : String) (rest : List Char)
  /-- No quotes. -/
  | absent
  deriving DecidableEq, Repr

/-- An identifier in quotes. -/
def readIdentifier (text : List Char) : Identifier :=
  match text with
  | quote :: rest =>
      if quote == '"' || quote == '\'' then
        let value := rest.takeWhile fun c => c != quote && c != '>'
        match rest.drop value.length with
        | c :: after => if c == quote then .quoted (keptText value) after else .cutOff (keptText value) after
        | [] => .cutOff (keptText value) []
      else .absent
  | [] => .absent

/-- The end of a document type. Anything there is malformed, which matters if the flag says so. -/
def endDoctype (doctype : Doctype) (matters : Bool) (text : List Char) : Doctype × List Char :=
  match text with
  | '>' :: rest => (doctype, rest)
  | [] => ({ doctype with broken := true }, [])
  | rest => ({ doctype with broken := matters }, skipTag rest)

/-- A document type, from its system identifier on. -/
def readSystem (doctype : Doctype) (text : List Char) : Doctype × List Char :=
  match readIdentifier text with
  | .quoted value rest => endDoctype { doctype with systemId := some value } false (skipGaps rest)
  | .cutOff value rest => ({ doctype with systemId := some value, broken := true }, rest)
  | .absent => ({ doctype with broken := true }, skipTag text)

/-- A document type, from its public identifier on. A system identifier may follow. -/
def readPublic (doctype : Doctype) (text : List Char) : Doctype × List Char :=
  match readIdentifier text with
  | .quoted value rest =>
      let doctype := { doctype with publicId := some value }
      match readIdentifier (skipGaps rest) with
      | .absent => endDoctype doctype true (skipGaps rest)
      | _ => readSystem doctype (skipGaps rest)
  | .cutOff value rest => ({ doctype with publicId := some value, broken := true }, rest)
  | .absent => ({ doctype with broken := true }, skipTag text)

/-- A document type, from behind the keyword on. -/
def readDoctype (text : List Char) : Doctype × List Char :=
  let text := skipGaps text
  let name := text.takeWhile fun c => !(isGap c || c == '>')
  let rest := skipGaps (text.drop name.length)
  let doctype : Doctype := { name := nameText name, broken := name.isEmpty }
  if name.isEmpty then (doctype, skipTag rest)
  else if startsWith "public" rest then readPublic doctype (skipGaps (rest.drop 6))
  else if startsWith "system" rest then readSystem doctype (skipGaps (rest.drop 6))
  else endDoctype doctype true rest

/-! ## Tokens -/

/-- The text of a section of plain characters, and the text behind the section. -/
def readSection : List Char → List Char × List Char
  | ']' :: ']' :: '>' :: rest => ([], rest)
  | c :: rest => prepend [c] (readSection rest)
  | [] => ([], [])

/-- What starts with an angle bracket and an exclamation mark, from behind them on. -/
def readDeclaration (inForeign : Bool) (text : List Char) : List Token × List Char :=
  match text with
  | '-' :: '-' :: rest =>
      let (value, rest) := readComment .opened rest
      ([.comment (keptText value)], rest)
  | text =>
      if startsWith "doctype" text then
        let (doctype, rest) := readDoctype (text.drop 7)
        ([.doctype doctype], rest)
      else if inForeign && "[CDATA[".toList.isPrefixOf text then
        let (value, rest) := readSection (text.drop 7)
        (Token.ofText value, rest)
      else readBogus text

/-- What starts with an angle bracket, from behind it on. -/
def readMarkup (inForeign : Bool) (text : List Char) : List Token × List Char :=
  match text with
  | '!' :: rest => readDeclaration inForeign rest
  | '?' :: _ => readBogus text
  | '/' :: [] => ([.text ['<', '/']], [])
  | '/' :: c :: rest =>
      if c == '>' then ([], rest)
      else if c.isAlpha then
        match readTag (c :: rest) with
        | some (tag, rest) => ([.stop tag.name], rest)
        | none => ([], [])
      else readBogus (c :: rest)
  | c :: rest =>
      if c.isAlpha then
        match readTag (c :: rest) with
        | some (tag, rest) => ([.start tag], rest)
        | none => ([], [])
      else ([.text ['<']], text)
  | [] => ([.text ['<']], [])

/--
The tokens at the start of a text, and the rest of the text. Sections of plain characters are known only
inside foreign elements.
-/
def readTokens (inForeign : Bool) (text : List Char) : List Token × List Char :=
  match text with
  | [] => ([.done], [])
  | '<' :: rest => readMarkup inForeign rest
  | text =>
      let run := text.takeWhile fun c => c != '<'
      (Token.ofText (Reference.decode false run), text.drop run.length)

/-! ## Raw text -/

/-- Does a text start with the end tag of an element, from behind the angle bracket on? -/
def startsEndTag (name : String) (text : List Char) : Bool :=
  match text with
  | '/' :: rest =>
      startsWith name rest &&
        match rest.drop name.length with
        | c :: _ => endsTagName c
        | [] => false
  | _ => false

/-- The text of an element up to its end tag, and the text from there on. -/
def readRaw (name : String) : List Char → List Char × List Char
  | [] => ([], [])
  | c :: rest =>
      if c == '<' && startsEndTag name rest then ([], c :: rest)
      else prepend [c] (readRaw name rest)

/-- How far a script is hidden in comments. -/
inductive Hiding
  | plain
  | comment
  /-- In a comment, between tags that look like those of a script. -/
  | script
  deriving DecidableEq, Repr, Inhabited

/-- Does a text start with something like a script tag, from behind the angle bracket on? -/
def startsScript (text : List Char) : Bool :=
  startsWith "script" text &&
    match text.drop 6 with
    | c :: _ => endsTagName c
    | [] => false

/--
The text of a script up to its end tag, and the text from there on. In comments, what looks like a script
has an end tag of its own; the number counts the dashes just read.
-/
def readScript : Hiding → Nat → List Char → List Char × List Char
  | _, _, [] => ([], [])
  | cover, dashes, c :: rest =>
      if c == '<' then
        match cover with
        | .plain =>
            if startsEndTag "script" rest then ([], c :: rest)
            else if "!--".toList.isPrefixOf rest then prepend [c] (readScript .comment 0 rest)
            else prepend [c] (readScript .plain 0 rest)
        | .comment =>
            if startsEndTag "script" rest then ([], c :: rest)
            else if startsScript rest then prepend [c] (readScript .script 0 rest)
            else prepend [c] (readScript .comment 0 rest)
        | .script =>
            if startsEndTag "script" rest then prepend [c] (readScript .comment 0 rest)
            else prepend [c] (readScript .script 0 rest)
      else if c == '-' then prepend [c] (readScript cover (dashes + 1) rest)
      else if c == '>' && 2 ≤ dashes then prepend [c] (readScript .plain 0 rest)
      else prepend [c] (readScript cover 0 rest)

/-- How the text of an element is read. -/
inductive RawKind
  /-- References are resolved. -/
  | withReferences
  | plain
  | script
  deriving DecidableEq, Repr, Inhabited

/-- The tokens of raw text. -/
def rawTokens (text : List Char) : List Token :=
  Token.ofText (text.map kept)

/-- The tokens of the text of an element up to its end tag, and the text from there on. -/
def readRawTokens (kind : RawKind) (name : String) (text : List Char) : List Token × List Char :=
  match kind with
  | .withReferences =>
      let (raw, rest) := readRaw name text
      (rawTokens (Reference.decode false raw), rest)
  | .plain =>
      let (raw, rest) := readRaw name text
      (rawTokens raw, rest)
  | .script =>
      let (raw, rest) := readScript .plain 0 text
      (rawTokens raw, rest)

end Markup
end HtmlTemplate
