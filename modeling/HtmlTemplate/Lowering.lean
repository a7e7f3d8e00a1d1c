import HtmlTemplate.Name
import HtmlTemplate.Options
import HtmlTemplate.Scope
import HtmlTemplate.Tree

/-!
# Fragments, and lowering trees to them

What a template writes is told by fragments; a settled tree has one for each of its nodes.
-/

namespace HtmlTemplate

/-!
## Fragments

What a template writes, piece by piece, with all names resolved. Fragments nest as the nodes do that they
come from.
-/

/-- The value of an attribute that is written. -/
inductive WrittenValue
  | static (value : String)
  /-- A JavaScript expression. -/
  | dynamic (code : String)
  deriving DecidableEq, Repr, Inhabited

/-- An attribute that is written. -/
structure WrittenAttribute where
  name : String
  value : WrittenValue
  deriving DecidableEq, Repr, Inhabited

/-- A piece of what a template writes. -/
inductive Fragment
  | element (tag : String) (attributes : List WrittenAttribute) (children : List Fragment)
  | text (value : String) (escape : Bool)
  /-- The value of an expression. -/
  | write (code : String) (escape : Bool)
  | comment (value : String) (emit : Bool)
  | doctype (name : String)
  /-- A tag that the handler with this identifier renders. -/
  | tagCall (name handler : String) (attributes : List WrittenAttribute) (body : List Fragment)
  /-- The first branch whose test holds; a branch without a test is taken when no other is. -/
  | branching (branches : List (Option String × List Fragment))
  /-- The body once for each element of a list, with identifiers for the element, its place and the list. -/
  | loop (item index list source : String) (body : List Fragment)
  deriving Repr, Inhabited

/-!
## Lowering trees to fragments

The fragments of a settled tree. No tag has a meaning any more here: what is left are markup, text, code
and control constructs, each of which has one fragment. Only text that collapses to nothing has none.
-/

/-- What surrounds a node, as far as its fragment depends on it. -/
structure Region where
  /-- Is there nothing around? -/
  top : Bool := false
  /-- Does text keep its whitespace? -/
  preserve : Bool
  /-- Is text written as it is, as in scripts and styles? -/
  raw : Bool := false
  deriving DecidableEq, Repr, Inhabited

/-- A part of the lowering: it declares names, and it may fail. -/
abbrev Lowering (α : Type) := StateT Scope (Except Fault) α

namespace Lowering

/-- Fails for a cause at a node. -/
def failAt (tree : Tree) (id : NodeId) (cause : Cause) : Lowering α :=
  throw (tree.faultAt id cause)

/-- Code with its names resolved. -/
def resolve (code : String) : Lowering String := do
  return (← get).resolve code

/-- Declares a name in the innermost frame. -/
def declare (name : String) : Lowering String :=
  fun scope => .ok (scope.declare name)

/-- Declares a value at the top of the module. -/
def hoist (hint init : String) : Lowering String :=
  fun scope => .ok (scope.hoist hint init)

/-- Does a part of the lowering in a frame of its own. -/
def inFrame (part : Lowering α) : Lowering α := do
  modify Scope.push
  let result ← part
  modify Scope.pop
  return result

/-- Is the content of elements with this tag written as it is? -/
def isRawText (tag : String) : Bool :=
  tag.toLower == "script" || tag.toLower == "style"

/-- An attribute with its names resolved. -/
def writtenAttribute (scope : Scope) (source : Attribute) : WrittenAttribute :=
  { name := source.name
    value :=
      match source.value.static? with
      | some value => .static value
      | none => .dynamic (source.value.toScript scope.resolve) }

/-- The attributes of a node with their names resolved. -/
def writtenAttributes (node : Node) : Lowering (List WrittenAttribute) := do
  let scope ← get
  return node.attributes.map (writtenAttribute scope)

/-- The fragment of a text, if anything of it is left. -/
def textFragment (region : Region) (value : String) : List Fragment :=
  if region.raw then [.text value false]
  else if region.preserve then [.text value true]
  else
    match Text.collapse? value.toList with
    | some kept => [.text (String.ofList kept) true]
    | none => []

/-- The identifier of the handler of a custom tag. -/
def handlerOf (name renderer : String) : Lowering String :=
  hoist (Name.identifierHint name ++ "_tag") ("loadTag(require(" ++ Text.jsonString renderer ++ "))")

/-- The branches of a conditional. The flag tells whether the one before had no test. -/
def lowerBranches (tree : Tree) (lowerBody : List NodeId → Lowering (List Fragment)) :
    Bool → List NodeId → Lowering (List (Option String × List Fragment))
  | _, [] => return []
  | closed, id :: rest => do
      match tree.kind id with
      | .branch test => do
          if closed then failAt tree id .branchAfterLast
          else
            let written ← test.mapM resolve
            let body ← lowerBody (tree.children id)
            return (written, body) :: (← lowerBranches tree lowerBody test.isNone rest)
      | .document => failAt tree id .nestedDocument
      | kind => failAt tree id (.inConditional kind.name)

/-- The fragments of a node. The budget bounds the depth. -/
def lowerNode (tree : Tree) (choices : Preservation) : Nat → Region → NodeId → Lowering (List Fragment)
  | 0, _, _ => return []
  | budget + 1, region, id => do
      let node := tree.node id
      let lowerAll (region : Region) (ids : List NodeId) : Lowering (List Fragment) := do
        return (← ids.mapM (lowerNode tree choices budget region)).flatten
      match node.kind with
      | .document =>
          if region.top then lowerAll { preserve := region.preserve } node.children
          else failAt tree id .nestedDocument
      | .element tag => do
          let preserve := region.preserve || node.preserve || choices.preserves tag
          let attributes ← writtenAttributes node
          let children ← lowerAll { preserve, raw := isRawText tag } node.children
          return [.element tag attributes children]
      | .customTag name renderer => do
          let handler ← handlerOf name renderer
          let attributes ← writtenAttributes node
          let body ← lowerAll { preserve := region.preserve || node.preserve } node.children
          return [.tagCall name handler attributes body]
      | .text value => return textFragment region value
      | .placeholder code escape => return [.write (← resolve code) escape]
      | .conditional => do
          let branches ←
            lowerBranches tree (lowerAll { preserve := region.preserve }) false node.children
          return [.branching branches]
      | .branch _ => failAt tree id .branchOutside
      | .iteration item index source => do
          let source ← resolve source
          inFrame do
            let itemName ← declare item
            let indexName ← declare (index.getD (item ++ "_index"))
            let listName ← declare (item ++ "_list")
            let body ← lowerAll { preserve := region.preserve, raw := region.raw } node.children
            return [.loop itemName indexName listName source body]
      | .comment value emit => return [.comment value emit]
      | .doctype name => return [.doctype name]

end Lowering

namespace Tree

/-- The fragments of what is below a node, and the declarations that they need. -/
def lower (tree : Tree) (choices : Preservation) (root : NodeId) :
    Except Fault (List Fragment × List Declaration) := do
  let (fragments, scope) ←
    Lowering.lowerNode tree choices tree.depthBound { top := true, preserve := choices.isTotal } root {}
  return (fragments, scope.hoisted)

end Tree

end HtmlTemplate
