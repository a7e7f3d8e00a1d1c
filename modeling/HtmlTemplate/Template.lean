import HtmlTemplate.Markup.Document
import HtmlTemplate.Template.SelfClosing
import HtmlTemplate.Template.StandIn
import HtmlTemplate.Tree.Edit

/-!
# Templates

A template is markup with placeholders. Reading one makes a tree: elements for the tags, texts and
placeholders for what stands between them. Elements stand where their tags are written, placeholders where
they are, and everything else where the element around it does.
-/

namespace HtmlTemplate
namespace Template

/-! ## Sources -/

/-- A placeholder, and where it stands. -/
structure Site where
  placeholder : Placeholder
  position : Position
  deriving DecidableEq, Repr, Inhabited

/-- The placeholders among pieces of a source, of which the first piece starts at a position. -/
def sites (position : Position) : List Piece → List Site
  | [] => []
  | .text source :: pieces => sites (position.advance source) pieces
  | .code placeholder :: pieces =>
      { placeholder, position } :: sites (position.advance placeholder.source) pieces

/-- A character of a source, and where it stands. -/
structure Mark where
  character : Char
  position : Position
  deriving DecidableEq, Repr, Inhabited

/-- The characters of a text, of which the first one stands at a position. -/
def marks (position : Position) : List Char → List Mark
  | [] => []
  | c :: rest => { character := c, position } :: marks (position.after c) rest

/-- The characters among which tags are looked for: in lower case, and with placeholders left blank. -/
def tagMarks (position : Position) : List Piece → List Mark
  | [] => []
  | .text source :: pieces =>
      (marks position source).map (fun mark => { mark with character := mark.character.toLower }) ++
        tagMarks (position.advance source) pieces
  | .code placeholder :: pieces =>
      (marks position placeholder.source).map (fun mark => { mark with character := ' ' }) ++
        tagMarks (position.advance placeholder.source) pieces

/-- May the character stand right behind a tag name? -/
def endsName (c : Char) : Bool :=
  c == '>' || c == '/' || Markup.isGap c

/-- Do characters start with a text that is not the start of a longer name? -/
def startsWithTag (text : List Char) (ahead : List Mark) : Bool :=
  text.isPrefixOf ((ahead.take text.length).map Mark.character) &&
    match ahead.drop text.length with
    | [] => true
    | mark :: _ => endsName mark.character

/-- The place of the next start tag, which a text starts, and the characters behind its first one. -/
def findTag? (text : List Char) : List Mark → Option (Position × List Mark)
  | [] => none
  | mark :: rest =>
      if startsWithTag text (mark :: rest) then some (mark.position, rest) else findTag? text rest

/-- Does a text hold another one anywhere? -/
def holds (part : List Char) : List Char → Bool
  | [] => part.isEmpty
  | c :: rest => part.isPrefixOf (c :: rest) || holds part rest

/-! ## Growing trees -/

/-- What is known about a source while its tree is made. -/
structure Plan where
  sites : List Site
  /-- Does the source leave the tag of the root out? -/
  rootless : Bool
  deriving Repr, Inhabited

/-- How far the making of a tree has come. -/
structure Growth where
  /-- The characters in which the next start tag is looked for. -/
  ahead : List Mark
  tree : Tree
  deriving Repr, Inhabited

/-- A step in the making of a tree. -/
abbrev Grow (α : Type) := StateT Growth (Except Fault) α

namespace Grow

/-- Looks for the next start tag. What is before it is passed by. -/
def locate (tag : String) : Grow (Option Position) := do
  let growth ← get
  match findTag? ('<' :: tag.toLower.toList) growth.ahead with
  | some (position, ahead) => do
      set { growth with ahead }
      return some position
  | none => return none

/-- Makes a node, and adds it behind the children of another one. -/
def add (parent : NodeId) (position : Position) (kind : Kind) (attributes : List (String × String)) :
    Grow NodeId := do
  let growth ← get
  let (id, tree) ← growth.tree.create position kind attributes []
  let tree ← tree.append parent id
  set { growth with tree }
  return id

/-- Adds plain text. -/
def addText (parent : NodeId) (position : Position) (value : List Char) : Grow Unit := do
  let _ ← add parent position (.text (String.ofList (Placeholder.unescape value))) []

/-- Adds a placeholder, which has to hold code. -/
def addPlaceholder (parent : NodeId) (site : Site) : Grow Unit := do
  let { code, escape, .. } := site.placeholder
  match Code.check code with
  | .error fault =>
      throw
        { cause := .placeholderCode fault
          file := (← get).tree.file
          position := site.position }
  | .ok () => do
      let _ ← add parent site.position (.placeholder code escape) []

/-- Adds the parts of a text. -/
def addParts (plan : Plan) (parent : NodeId) (position : Position) : List StandIn.Part → Grow Unit
  | [] => return ()
  | .text value :: parts => do
      addText parent position value
      addParts plan parent position parts
  | .standIn number :: parts => do
      match plan.sites[number]? with
      | some site => addPlaceholder parent site
      | none => pure ()
      addParts plan parent position parts

end Grow

/-- A text of the markup with its placeholders put back. -/
def Plan.restore (plan : Plan) (text : String) : String :=
  String.ofList (StandIn.restore (plan.sites.map fun site => site.placeholder.source) text.toList)

/-- The tags that markup need not write. -/
def impliedTags : List String :=
  ["html", "head", "body"]

open Markup (Content)

mutual

/-- Adds content behind the children of a node at a position. -/
def grow (plan : Plan) (parent : NodeId) (position : Position) : Content → Grow Unit
  | .doctype name => do
      let _ ← Grow.add parent position (.doctype name) []
  | .text value =>
      Grow.addParts plan parent position (StandIn.parts plan.sites.length value.toList)
  | .comment value => do
      let _ ← Grow.add parent position (.comment (plan.restore value) false) []
  | .element tag attributes children => do
      let found ← Grow.locate tag
      if impliedTags.contains tag && plan.rootless && found.isNone then
        growAll plan parent position children
      else
        let position := found.getD position
        let attributes := attributes.list.map fun (name, value) => (name, plan.restore value)
        let id ← Grow.add parent position (.element tag) attributes
        growAll plan id position children

/-- Adds contents in order. -/
def growAll (plan : Plan) (parent : NodeId) (position : Position) : List Content → Grow Unit
  | [] => return ()
  | content :: contents => do
      grow plan parent position content
      growAll plan parent position contents

end

/-- Makes the tree of a source that was cut into pieces. -/
def growTree (source : List Char) (pieces : List Piece) : Grow NodeId := do
  let growth ← get
  let (root, tree) ← growth.tree.create .first .document [] []
  set { growth with tree }
  let plan : Plan :=
    { sites := sites .first pieces
      rootless := !holds "<html".toList (source.map Char.toLower) }
  growAll plan root .first (Markup.read (SelfClosing.expand (StandIn.hide 0 pieces)))
  return root

/-- Reads the template in a file: its tree, and the number of the root. -/
def read (file source : String) : Except Fault (NodeId × Tree) :=
  match Placeholder.pieces source.toList with
  | .error (fault, before) =>
      .error
        { cause := .malformedPlaceholder fault
          file
          position := Position.first.advance before }
  | .ok pieces => do
      let (root, growth) ←
        (growTree source.toList pieces).run { ahead := tagMarks .first pieces, tree := { file } }
      return (root, growth.tree)

end Template
end HtmlTemplate
