import HtmlTemplate.Tree

/-!
# Outlines

The shape of a tree on one line: the numbers of the nodes, each followed by its children in brackets.
-/

namespace HtmlTemplate
namespace Tree

/-- The outline of what is below a node, the node included. The budget bounds the depth. -/
def outlineBelow (tree : Tree) : Nat → NodeId → String
  | 0, id => toString id.index
  | budget + 1, id =>
      let children := (tree.children id).map (tree.outlineBelow budget)
      toString id.index ++
        if children.isEmpty then "" else "[" ++ String.intercalate "," children ++ "]"

/-- The numbers of all nodes. -/
def ids (tree : Tree) : List NodeId :=
  (List.range tree.size).map NodeId.mk

/-- The nodes without a parent. -/
def roots (tree : Tree) : List NodeId :=
  tree.ids.filter fun id => (tree.parent id).isNone

/-- The outlines of all nodes without a parent, with spaces between them. -/
def outline (tree : Tree) : String :=
  String.intercalate " " (tree.roots.map (tree.outlineBelow tree.depthBound))

end Tree
end HtmlTemplate
