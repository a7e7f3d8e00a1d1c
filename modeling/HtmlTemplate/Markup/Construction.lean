import HtmlTemplate.Markup.Draft
import HtmlTemplate.Markup.Token

/-!
# Constructing documents

The state of the construction of a document from tokens, and the steps that the rules for tokens are made
of: finding open elements, inserting content where it belongs, and closing elements.
-/

namespace HtmlTemplate
namespace Markup

/-- Which rules tokens are treated by. -/
inductive Mode
  | initial
  | beforeHtml
  | beforeHead
  | inHead
  | afterHead
  | inBody
  | rawText
  | inTable
  | inTableText
  | inCaption
  | inColumns
  | inRowGroup
  | inRow
  | inCell
  | inSelect
  | inSelectInTable
  | inTemplate
  | afterBody
  | inFrames
  | afterFrames
  | afterAfterBody
  | afterAfterFrames
  deriving DecidableEq, Repr, Inhabited

/-- An element that is open. -/
structure Open where
  ref : Ref
  kind : ElementKind
  /-- Is it an annotation of a formula that holds HTML? -/
  annotation : Bool := false
  deriving DecidableEq, Repr, Inhabited

namespace Open

/-- Is it an HTML element with this tag? -/
def isHtml (element : Open) (tag : String) : Bool :=
  element.kind.isHtml tag

end Open

/-- Formatting that goes on in later elements. -/
inductive Formatting
  /-- Formatting before the marker does not go on behind it. -/
  | marker
  /-- An element with formatting, and the tag that it came from. -/
  | element (element : Open) (tag : Tag)
  deriving DecidableEq, Repr, Inhabited

/-- The state of a construction. -/
structure Construction where
  draft : Draft := {}
  mode : Mode := .initial
  /-- The mode to go back to after raw text or text in a table. -/
  returnMode : Mode := .initial
  /-- The modes of the open templates, the innermost first. -/
  templateModes : List Mode := []
  /-- Is the document treated as one from before the standards? -/
  old : Bool := false
  /-- The open elements, the innermost first. -/
  stack : List Open := []
  /-- The formatting that goes on, the latest first. -/
  formatting : List Formatting := []
  /-- The head, once there is one. -/
  head : Option Open := none
  /-- The form that is open. -/
  form : Option Ref := none
  /-- May frames still take the place of the body? -/
  framesAllowed : Bool := true
  /-- Is a line feed dropped if it comes next? -/
  dropLineFeed : Bool := false
  /-- Is content moved out of tables? -/
  fostering : Bool := false
  /-- The text in a table that was read so far. -/
  tableText : List Token := []
  deriving Inhabited

/-- A step of a construction. -/
abbrev Build (α : Type) := StateM Construction α

/-- How the construction goes on after a token. -/
inductive Next
  | done
  /-- The token is treated once more. -/
  | again (token : Token)
  /-- Text up to the end tag of an element is read. -/
  | raw (kind : RawKind) (tag : String)
  /-- All that follows is text. -/
  | plaintext
  deriving DecidableEq, Repr, Inhabited

namespace Build

/-! ## Modes -/

/-- Sets the mode. -/
def setMode (mode : Mode) : Build Unit :=
  modify fun state => { state with mode }

/-- Treats a token once more, in another mode. -/
def againIn (mode : Mode) (token : Token) : Build Next := do
  setMode mode
  return .again token

/-- Forbids that frames take the place of the body. -/
def forbidFrames : Build Unit :=
  modify fun state => { state with framesAllowed := false }

/-! ## Open elements -/

/-- The innermost open element. -/
def current : Build (Option Open) := do
  return (← get).stack.head?

/-- Is the innermost open element an HTML element with this tag? -/
def currentIs (tag : String) : Build Bool := do
  return ((← current).map fun element => element.isHtml tag).getD false

/-- Is the innermost open element an HTML element with one of these tags? -/
def currentIsOneOf (tags : List String) : Build Bool := do
  return ((← current).map fun element => element.kind.isOneOf tags).getD false

/-- Is an HTML element with this tag open? -/
def isOpen (tag : String) : Build Bool := do
  return (← get).stack.any fun element => element.isHtml tag

/-- Does a search among open elements find one before it ends? -/
def findInScope (ends : ElementKind → Bool) (wanted : Open → Bool) : List Open → Bool
  | [] => false
  | element :: rest => wanted element || (!ends element.kind && findInScope ends wanted rest)

/-- Is an element that is wanted open in a scope? -/
def inScopeWhere (ends : ElementKind → Bool) (wanted : Open → Bool) : Build Bool := do
  return findInScope ends wanted (← get).stack

/-- Is an HTML element with this tag open in a scope? -/
def inScope (ends : ElementKind → Bool) (tag : String) : Build Bool :=
  inScopeWhere ends fun element => element.isHtml tag

/-- Opens an element. -/
def push (element : Open) : Build Unit :=
  modify fun state => { state with stack := element :: state.stack }

/-- Closes the innermost open element. -/
def pop : Build Unit :=
  modify fun state => { state with stack := state.stack.drop 1 }

/-- Closes elements until one is closed that is wanted. -/
def popThrough (wanted : Open → Bool) : Build Unit :=
  modify fun state => { state with stack := (state.stack.dropWhile fun element => !wanted element).drop 1 }

/-- Closes elements until an HTML element with this tag is closed. -/
def popThroughTag (tag : String) : Build Unit :=
  popThrough fun element => element.isHtml tag

/-- Closes elements until the innermost open one is wanted. -/
def popTo (wanted : ElementKind → Bool) : Build Unit :=
  modify fun state => { state with stack := state.stack.dropWhile fun element => !wanted element.kind }

/-- Takes an element from the open ones, wherever it is. -/
def removeOpen (ref : Ref) : Build Unit :=
  modify fun state => { state with stack := state.stack.eraseP fun element => element.ref == ref }

/-- Closes the innermost open elements as long as their ends may be left out. -/
def closeImplied (tags : List String) : Build Unit :=
  popTo fun kind => !kind.isOneOf tags

/-- Closes the innermost open elements as long as their ends may be left out, up to one with this tag. -/
def closeImpliedExcept (tag : String) : Build Unit :=
  closeImplied (ElementKind.impliedEndTags.filter fun implied => implied != tag)

/-- Closes a paragraph. -/
def closeParagraph : Build Unit := do
  closeImpliedExcept "p"
  popThroughTag "p"

/-- Closes a paragraph, if one is open in scope. -/
def closeOpenParagraph : Build Unit := do
  if ← inScope ElementKind.endsParagraphScope "p" then closeParagraph

/-- The body, if it is the second open element. -/
def body? : Build (Option Open) := do
  return ((← get).stack.reverse[1]?).filter fun element => element.isHtml "body"

/-! ## Places -/

/-- Where content is inserted. -/
inductive Place
  | lastIn (parent : Ref)
  /-- Before an element or, if that has no parent, last in another one. -/
  | before (sibling other : Ref)
  deriving DecidableEq, Repr

/-- Where content goes that is moved out of tables. -/
def fosterPlace (draft : Draft) : List Open → Place
  | [] => .lastIn Draft.root
  | [element] => .lastIn element.ref
  | element :: outer :: rest =>
      if element.isHtml "template" then .lastIn (draft.inside element.ref)
      else if element.isHtml "table" then .before element.ref outer.ref
      else fosterPlace draft (outer :: rest)

/-- Where content goes that belongs into an element. -/
def placeIn (state : Construction) (target : Open) : Place :=
  if state.fostering && target.kind.isOneOf ElementKind.fosterTags then
    fosterPlace state.draft state.stack
  else if target.isHtml "template" then .lastIn (state.draft.inside target.ref)
  else .lastIn target.ref

/-- Where content goes next. -/
def place (state : Construction) : Place :=
  match state.stack with
  | [] => .lastIn Draft.root
  | target :: _ => placeIn state target

/-- The draft with an item inserted. -/
def insertItem (draft : Draft) (child : Ref) : Place → Draft
  | .lastIn parent => draft.append parent child
  | .before sibling other =>
      match draft.parent sibling with
      | some parent => draft.insertBefore parent sibling child
      | none => draft.append other child

/-- The draft with text inserted. -/
def insertValue (draft : Draft) (value : String) : Place → Draft
  | .lastIn parent => draft.appendText parent value
  | .before sibling other =>
      match draft.parent sibling with
      | some parent => draft.insertTextBefore parent sibling value
      | none => draft.appendText other value

/-! ## Inserting content -/

/-- Changes the draft. -/
def changeDraft (change : Draft → Draft) : Build Unit :=
  modify fun state => { state with draft := change state.draft }

/-- Inserts text. -/
def insertText (value : List Char) : Build Unit :=
  modify fun state =>
    { state with draft := insertValue state.draft (String.ofList value) (place state) }

/-- Adds an item to the draft, without a place. -/
def make (matter : Matter) : Build Ref :=
  modifyGet fun state =>
    let (ref, draft) := state.draft.add matter
    (ref, { state with draft })

/-- Inserts a comment. -/
def insertComment (value : String) : Build Unit := do
  let ref ← make (.comment value)
  modify fun state => { state with draft := insertItem state.draft ref (place state) }

/-- Inserts a comment behind the children of an item. -/
def appendComment (parent : Ref) (value : String) : Build Unit := do
  let ref ← make (.comment value)
  changeDraft fun draft => draft.append parent ref

/-- Does an annotation of a formula with these attributes hold HTML? -/
def holdsHtml (attributes : Attributes) : Bool :=
  attributes.list.any fun (name, value) =>
    name == "encoding" && ["text/html", "application/xhtml+xml"].contains value.toLower

/-- Adds an element to the draft, without a place. -/
def makeElement (kind : ElementKind) (attributes : Attributes) : Build Open := do
  let inside ← if kind.isHtml "template" then some <$> make .holder else pure none
  let ref ← make (.element kind.tag attributes inside)
  return { ref, kind, annotation := kind == ⟨.formula, "annotation-xml"⟩ && holdsHtml attributes }

/-- Inserts an element, without opening it. -/
def insertClosed (kind : ElementKind) (attributes : Attributes) : Build Open := do
  let element ← makeElement kind attributes
  modify fun state => { state with draft := insertItem state.draft element.ref (place state) }
  return element

/-- Inserts an element and opens it. -/
def insertOpen (kind : ElementKind) (attributes : Attributes) : Build Open := do
  let element ← insertClosed kind attributes
  push element
  return element

/-- Inserts the HTML element of a tag and opens it. -/
def insertTag (tag : Tag) : Build Open :=
  insertOpen { tag := tag.name } tag.attributes

/-- Inserts the HTML element of a tag, without opening it. -/
def insertVoid (tag : Tag) : Build Open :=
  insertClosed { tag := tag.name } tag.attributes

/-- Inserts an HTML element that no tag was written for, and opens it. -/
def insertImplied (tag : String) : Build Open :=
  insertOpen { tag } .empty

/-- Inserts the element of a tag, and reads its content as raw text. -/
def insertRaw (kind : RawKind) (tag : Tag) : Build Next := do
  let _ ← insertTag tag
  modify fun state => { state with returnMode := state.mode, mode := .rawText }
  return .raw kind tag.name

/-! ## The mode after an element is closed -/

/-- The mode that open elements ask for, the innermost of them first. -/
def modeFor (state : Construction) : List Open → Mode
  | [] => .inBody
  | element :: outer =>
      if element.kind.vocabulary != .html then modeFor state outer
      else
        match element.kind.tag with
        | "select" =>
            match outer.find? fun element => element.isHtml "template" || element.isHtml "table" with
            | some found => if found.isHtml "table" then .inSelectInTable else .inSelect
            | none => .inSelect
        | "tr" => .inRow
        | "tbody" => .inRowGroup
        | "thead" => .inRowGroup
        | "tfoot" => .inRowGroup
        | "caption" => .inCaption
        | "colgroup" => .inColumns
        | "table" => .inTable
        | "template" => state.templateModes.headD .inBody
        | "body" => .inBody
        | "frameset" => .inFrames
        | "html" => if state.head.isNone then .beforeHead else .afterHead
        | tag =>
            if outer.isEmpty then modeFor state outer
            else if tag == "td" || tag == "th" then .inCell
            else if tag == "head" then .inHead
            else modeFor state outer

/-- Sets the mode that the open elements ask for. -/
def resetMode : Build Unit :=
  modify fun state => { state with mode := modeFor state state.stack }

/-- Treats a token once more, in the mode that the open elements ask for. -/
def againAfterReset (token : Token) : Build Next := do
  resetMode
  return .again token

end Build

end Markup
end HtmlTemplate
