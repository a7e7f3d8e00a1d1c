import HtmlTemplate.Tree

/-!
# Traversal and ownership

The nodes below a node in order, and the check that each of them is reached once.
-/

namespace HtmlTemplate

/-!
## Traversal

Nodes are entered before their children, which come in order, and left after them.
-/

/-- What happens to a node in a traversal. -/
inductive Event
  | enter (id : NodeId)
  | leave (id : NodeId)
  deriving DecidableEq, Repr

/-- The event in a few words. -/
def Event.display (tree : Tree) : Event → String
  | enter id => "enter " ++ (tree.node id).describe ++ " " ++ id.display
  | leave id => "exit " ++ (tree.node id).describe ++ " " ++ id.display

namespace Tree

/-- A node and all that is below it, parents before their children. The budget bounds the depth. -/
def preorderWithin (tree : Tree) : Nat → NodeId → List NodeId
  | 0, id => [id]
  | budget + 1, id => id :: (tree.children id).flatMap (tree.preorderWithin budget)

/-- A node and all that is below it, parents before their children. -/
def preorder (tree : Tree) (root : NodeId) : List NodeId :=
  tree.preorderWithin tree.depthBound root

/--
The events of a traversal from a node on. The children of nodes that are closed are passed over. The
budget bounds the depth.
-/
def eventsWithin (tree : Tree) (closed : NodeId → Bool) : Nat → NodeId → List Event
  | 0, _ => []
  | budget + 1, id =>
      let below := if closed id then [] else (tree.children id).flatMap (tree.eventsWithin closed budget)
      .enter id :: below ++ [.leave id]

/-- The events of a traversal from a node on, without what is below nodes with one of the tags. -/
def events (tree : Tree) (closedTags : List String) (root : NodeId) : List Event :=
  tree.eventsWithin
    (fun id => ((tree.node id).tag?.map closedTags.contains).getD false)
    tree.depthBound root

/-!
## Ownership

A tree is sound below a node when every node there is reached once and names as its parent the node that
lists it.
-/

/-- Checks a node and what is below it, beside the nodes seen before. The budget bounds the depth. -/
def checkBelow (tree : Tree) : Nat → List NodeId → NodeId → Except Fault (List NodeId)
  | 0, seen, _ => .ok seen
  | budget + 1, seen, id =>
      if seen.contains id then .error (tree.faultAt id (.severalParents id))
      else
        match (tree.children id).find? fun child => tree.parent child != some id with
        | some child => .error (tree.faultAt child (.unlinked child id))
        | none => (tree.children id).foldlM (tree.checkBelow budget) (id :: seen)

/-- Checks that every node below the root has one owner and is linked to it. -/
def checkOwnership (tree : Tree) (root : NodeId) : Except Fault Unit :=
  (tree.checkBelow (tree.depthBound + 1) [] root).map fun _ => ()

end Tree
end HtmlTemplate
