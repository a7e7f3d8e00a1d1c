import HtmlTemplate.Position
import HtmlTemplate.Text.Space
import HtmlTemplate.Value

/-!
# Nodes

A node is an element, a piece of text or a control construct of a template. Nodes refer to each other by
number, so that a subtree moves without being copied.
-/

namespace HtmlTemplate

/-- The number of a node: how many nodes were made before it. -/
structure NodeId where
  index : Nat
  deriving DecidableEq, Repr, Inhabited

/-- The number as it is written in messages. -/
def NodeId.display (id : NodeId) : String :=
  "#" ++ toString id.index

/-- What a node is. -/
inductive Kind
  /-- The root of a template. -/
  | document
  /-- A markup element, also one whose tag a taglib has yet to give a meaning. -/
  | element (tag : String)
  /-- A tag that a handler module renders. -/
  | customTag (name renderer : String)
  | text (value : String)
  /-- Code whose value is written out. -/
  | placeholder (code : String) (escape : Bool)
  /-- A choice between the branches below it, the first that holds. -/
  | conditional
  /-- A branch; the last one may have no test. -/
  | branch (test : Option String)
  | iteration (item : String) (index : Option String) (source : String)
  /-- A comment, which stays in the markup or only in the code. -/
  | comment (value : String) (emit : Bool)
  | doctype (name : String)
  deriving DecidableEq, Repr, Inhabited

namespace Kind

/-- The name of the kind. -/
def name : Kind → String
  | document => "document"
  | element _ => "element"
  | customTag _ _ => "custom-tag"
  | text _ => "text"
  | placeholder _ _ => "expression"
  | conditional => "conditional"
  | branch _ => "branch"
  | iteration _ _ _ => "iteration"
  | comment _ _ => "comment"
  | doctype _ => "doctype"

/-- The tag that taglibs look up. -/
def tag? : Kind → Option String
  | element tag => some tag
  | customTag name _ => some name
  | _ => none

/-- May nodes of this kind have children? -/
def isContainer : Kind → Bool
  | text _ => false
  | placeholder _ _ => false
  | comment _ _ => false
  | doctype _ => false
  | _ => true

/-- The kind in a few words: tags as they are written, other kinds by name. -/
def describe (kind : Kind) : String :=
  match kind.tag? with
  | some tag => "<" ++ tag ++ ">"
  | none => kind.name

end Kind

/-- How far the walk over a tree has come with a node. -/
inductive WalkState
  | unvisited
  | entering
  | entered
  | exiting
  | settled
  | failed
  deriving DecidableEq, Repr, Inhabited

/-- An attribute of a node. -/
structure Attribute where
  name : String
  value : Value
  position : Position
  deriving DecidableEq, Repr, Inhabited

/-- A node with its links. -/
structure Node where
  kind : Kind
  attributes : List Attribute := []
  children : List NodeId := []
  parent : Option NodeId := none
  position : Position := {}
  /-- Does text below keep its whitespace? -/
  preserve : Bool := false
  state : WalkState := .unvisited
  deriving DecidableEq, Repr, Inhabited

namespace Node

/-- The tag that taglibs look up. -/
def tag? (node : Node) : Option String :=
  node.kind.tag?

/-- The node in a few words. -/
def describe (node : Node) : String :=
  node.kind.describe

/-- The first attribute with a name. -/
def attribute? (node : Node) (name : String) : Option Attribute :=
  node.attributes.find? fun candidate => candidate.name == name

/-- The copy of the node that a clone starts from: without children, detached and unvisited. -/
def bare (node : Node) : Node :=
  { node with children := [], parent := none, state := .unvisited }

/-- Is the node text of whitespace only? -/
def isBlankText (node : Node) : Bool :=
  match node.kind with
  | .text value => Text.isBlank value.toList
  | _ => false

end Node

end HtmlTemplate
