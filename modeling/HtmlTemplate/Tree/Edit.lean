import HtmlTemplate.Tree.Check

/-!
# Edits of trees

The only ways to make and move nodes. They keep every node in at most one list of children, which is the
one of its parent. An edit that is refused changes nothing.
-/

namespace HtmlTemplate
namespace Tree

/-! ## Conditions -/

/-- A fault of a cause at a position that no node is at yet. -/
def newFault (tree : Tree) (position : Position) (cause : Cause) : Fault :=
  { cause, file := tree.file, position }

/-- The kind has to hold what its nodes may hold. -/
def requireKind (tree : Tree) (position : Position) (kind : Kind) : Except Fault Unit :=
  kind.check.mapError (tree.newFault position)

/-- Reads an attribute for a node at a position. -/
def readAttribute (tree : Tree) (position : Position) (name raw : String) : Except Fault Attribute :=
  (Attribute.parse name raw position).mapError fun cause =>
    { tree.newFault position cause with context := some (name ++ "=\"" ++ raw ++ "\"") }

/-- The node has to be one that may have children. -/
def requireContainer (tree : Tree) (id : NodeId) : Except Fault Unit :=
  if (tree.kind id).isContainer then .ok ()
  else .error (tree.newFault (tree.node id).position (.childless (tree.kind id).name))

/-- The node must have no parent. -/
def requireDetached (tree : Tree) (id : NodeId) : Except Fault Unit :=
  match tree.parent id with
  | none => .ok ()
  | some parent => .error (tree.faultAt id (.hasParent id parent))

/-- The candidate must be neither the node nor above it. -/
def requireNotAbove (tree : Tree) (candidate id : NodeId) : Except Fault Unit :=
  if tree.isSelfOrAncestor candidate id then .error (tree.faultAt candidate (.ownDescendant candidate))
  else .ok ()

/-- The node has to be a child of the other one; gives its place. -/
def requireChild (tree : Tree) (parent child : NodeId) : Except Fault Nat :=
  match tree.indexOf? parent child with
  | some index => .ok index
  | none => .error (tree.faultAt child (.notChild child parent))

/-- The nodes must have no parents and differ from each other and from the ones seen. -/
def requireFresh (tree : Tree) (seen : List NodeId) : List NodeId → Except Fault Unit
  | [] => .ok ()
  | child :: children => do
      tree.requireDetached child
      if seen.contains child then .error (tree.faultAt child (.listedTwice child))
      else tree.requireFresh (child :: seen) children

/-! ## Making nodes -/

/-- The tree with a parent link set. -/
def setParent (tree : Tree) (parent : Option NodeId) (id : NodeId) : Tree :=
  tree.update id fun node => { node with parent }

/-- The tree with parent links set. -/
def setParents (tree : Tree) (parent : Option NodeId) (ids : List NodeId) : Tree :=
  ids.foldl (fun tree id => tree.setParent parent id) tree

/-- The tree with another list of children for a node. -/
def setChildren (tree : Tree) (id : NodeId) (children : List NodeId) : Tree :=
  tree.update id fun node => { node with children }

/-- The tree with a node more, and the number of that node. -/
def push (tree : Tree) (node : Node) : NodeId × Tree :=
  ({ index := tree.size }, { tree with nodes := tree.nodes ++ [node] })

/-- Makes a node. Attribute values are read as values; children have to be detached. -/
def create (tree : Tree) (position : Position) (kind : Kind) (attributes : List (String × String))
    (children : List NodeId) : Except Fault (NodeId × Tree) := do
  tree.requireKind position kind
  let attributes ← attributes.mapM fun (name, raw) => tree.readAttribute position name raw
  if !kind.isContainer && !children.isEmpty then
    throw (tree.newFault position (.childless kind.name))
  tree.requireFresh [] children
  let (id, tree) := tree.push { kind, attributes, children, position }
  return (id, tree.setParents (some id) children)

/-- Copies a node and what is below it. The budget bounds the depth. -/
def cloneWithin : Nat → NodeId → Tree → NodeId × Tree
  | 0, id, tree => tree.push (tree.node id).bare
  | budget + 1, id, tree =>
      let source := tree.node id
      let (copy, tree) := tree.push source.bare
      let tree := source.children.foldl
        (fun tree child =>
          let (childCopy, tree) := cloneWithin budget child tree
          (tree.setParent (some copy) childCopy).update copy fun node =>
            { node with children := node.children ++ [childCopy] })
        tree
      (copy, tree)

/-- Copies a node, with what is below it or without. The copy is detached and unvisited. -/
def clone (tree : Tree) (id : NodeId) (deep : Bool) : NodeId × Tree :=
  cloneWithin (if deep then tree.depthBound else 0) id tree

/-! ## Moving nodes -/

/-- Adds a detached node behind the children of another one. -/
def append (tree : Tree) (parent child : NodeId) : Except Fault Tree := do
  tree.requireContainer parent
  tree.requireDetached child
  tree.requireNotAbove child parent
  return (tree.setParent (some parent) child).setChildren parent (tree.children parent ++ [child])

/-- Adds a detached node before a child of another one. -/
def insertBefore (tree : Tree) (parent child reference : NodeId) : Except Fault Tree := do
  let index ← tree.requireChild parent reference
  tree.requireDetached child
  tree.requireNotAbove child parent
  return (tree.setParent (some parent) child).setChildren parent
    ((tree.children parent).insertIdx index child)

/-- Takes a child from its parent. -/
def remove (tree : Tree) (parent child : NodeId) : Except Fault Tree := do
  let index ← tree.requireChild parent child
  return (tree.setChildren parent ((tree.children parent).eraseIdx index)).setParent none child

/-- Puts a detached node in the place of a child. -/
def replace (tree : Tree) (parent old new : NodeId) : Except Fault Tree := do
  let index ← tree.requireChild parent old
  tree.requireDetached new
  tree.requireNotAbove new parent
  return ((tree.setChildren parent ((tree.children parent).set index new)).setParent none old).setParent
    (some parent) new

/-- Takes a node from its parent, if it has one. -/
def detach (tree : Tree) (id : NodeId) : Except Fault Tree :=
  match tree.parent id with
  | some parent => tree.remove parent id
  | none => .ok tree

/-- Takes all children from a node, and gives them in order. -/
def takeChildren (tree : Tree) (id : NodeId) : List NodeId × Tree :=
  let children := tree.children id
  (children, (tree.setChildren id []).setParents none children)

/-! ## Changing nodes -/

/-- Makes a node one of another kind. -/
def setKind (tree : Tree) (id : NodeId) (kind : Kind) : Except Fault Tree := do
  let position := (tree.node id).position
  tree.requireKind position kind
  if !kind.isContainer && !(tree.children id).isEmpty then
    throw (tree.newFault position (.keepsChildren kind.name))
  return tree.update id fun node => { node with kind }

/-- Attributes with one of them set: in the place of the first one of its name, or else at the end. -/
def putAttribute (value : Attribute) : List Attribute → List Attribute
  | [] => [value]
  | first :: rest =>
      if first.name == value.name then value :: rest else first :: putAttribute value rest

/-- Sets an attribute of a node. -/
def setAttribute (tree : Tree) (id : NodeId) (name raw : String) : Except Fault Tree := do
  let value ← tree.readAttribute (tree.node id).position name raw
  return tree.update id fun node => { node with attributes := putAttribute value node.attributes }

/-- Takes the first attribute of a name from a node, and gives it. -/
def removeAttribute (tree : Tree) (id : NodeId) (name : String) : Option Attribute × Tree :=
  (tree.attribute? id name,
    tree.update id fun node =>
      { node with attributes := node.attributes.eraseP fun candidate => candidate.name == name })

/-- Sets the position of a node. -/
def setPosition (tree : Tree) (id : NodeId) (position : Position) : Tree :=
  tree.update id fun node => { node with position }

/-- Sets whether text below a node keeps its whitespace. -/
def setPreserve (tree : Tree) (id : NodeId) (preserve : Bool) : Tree :=
  tree.update id fun node => { node with preserve }

/-- Sets how far the walk has come with a node. -/
def setState (tree : Tree) (id : NodeId) (state : WalkState) : Tree :=
  tree.update id fun node => { node with state }

end Tree
end HtmlTemplate
