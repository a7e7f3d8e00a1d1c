import HtmlTemplate.Fault

/-!
# Trees of nodes

All nodes of a compilation, attached or not, in the order they were made. This module reads trees; edits
are functions from trees to trees.
-/

namespace HtmlTemplate

/-- The nodes made so far for a template file. A node stands at the place that its number says. -/
structure Tree where
  file : String
  nodes : List Node := []
  deriving DecidableEq, Repr, Inhabited

namespace Tree

/-- How many nodes were made. -/
def size (tree : Tree) : Nat :=
  tree.nodes.length

/-- Was no node made yet? -/
def isEmpty (tree : Tree) : Bool :=
  tree.nodes.isEmpty

/-- The node with a number. Numbers that were not given out stand for a lone document. -/
def node (tree : Tree) (id : NodeId) : Node :=
  tree.nodes.getD id.index default

/-- What the node is. -/
def kind (tree : Tree) (id : NodeId) : Kind :=
  (tree.node id).kind

/-- The children of the node, in order. -/
def children (tree : Tree) (id : NodeId) : List NodeId :=
  (tree.node id).children

/-- The parent of the node. -/
def parent (tree : Tree) (id : NodeId) : Option NodeId :=
  (tree.node id).parent

/-- The first attribute of the node with a name. -/
def attribute? (tree : Tree) (id : NodeId) (name : String) : Option Attribute :=
  (tree.node id).attribute? name

/-- The place of the child among the children of the parent. -/
def indexOf? (tree : Tree) (parent child : NodeId) : Option Nat :=
  (tree.children parent).idxOf? child

/-- The node behind this one among the children of its parent. -/
def nextSibling? (tree : Tree) (id : NodeId) : Option NodeId := do
  let parent ← tree.parent id
  let index ← tree.indexOf? parent id
  (tree.children parent)[index + 1]?

/-- The node before this one among the children of its parent. -/
def previousSibling? (tree : Tree) (id : NodeId) : Option NodeId := do
  let parent ← tree.parent id
  match ← tree.indexOf? parent id with
  | 0 => none
  | index + 1 => (tree.children parent)[index]?

/-- The nodes behind this one among the children of its parent. -/
def following (tree : Tree) (id : NodeId) : List NodeId :=
  match tree.parent id with
  | some parent =>
      match tree.indexOf? parent id with
      | some index => (tree.children parent).drop (index + 1)
      | none => []
  | none => []

/-- The tree with one node changed. -/
def update (tree : Tree) (id : NodeId) (change : Node → Node) : Tree :=
  { tree with nodes := tree.nodes.modify id.index change }

/-- A level that no path of the tree nests beyond: a path visits each node at most once. -/
def depthBound (tree : Tree) : Nat :=
  tree.size + 1

/-- Does the path from a node to the root pass the candidate? The budget bounds the steps. -/
def isOnPath (tree : Tree) (candidate : NodeId) : Nat → NodeId → Bool
  | 0, _ => false
  | budget + 1, id =>
      id == candidate ||
        match tree.parent id with
        | some parent => tree.isOnPath candidate budget parent
        | none => false

/-- Is the candidate the node itself or one of its ancestors? -/
def isSelfOrAncestor (tree : Tree) (candidate id : NodeId) : Bool :=
  tree.isOnPath candidate tree.depthBound id

/-- A fault of a cause at the place of a node, which gives the context. -/
def faultAt (tree : Tree) (id : NodeId) (cause : Cause) : Fault :=
  { cause
    file := tree.file
    position := (tree.node id).position
    context := some (tree.node id).describe }

end Tree

end HtmlTemplate
