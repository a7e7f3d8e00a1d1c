import HtmlTemplate.Options
import HtmlTemplate.Tree.Edit

/-!
# Transforms

A transform changes a node of a tree during a compilation. It may edit the tree, record warnings and
leave notes; what it did before a fault stays done.
-/

namespace HtmlTemplate

/-- What becomes of a tag nested in another one, or directly following it. -/
inductive MergeRule
  /-- It stays an ordinary child. -/
  | keep
  /-- It becomes a branch of the other tag's conditional. -/
  | branch
  deriving DecidableEq, Repr, Inhabited

/-- Which tags may stand below a tag, and what becomes of them. -/
structure Nesting where
  /-- The tags that are allowed; all, if nothing is said. -/
  allowed : Option (SortedMap Unit) := none
  /-- The tags with a rule of their own, which are allowed too. -/
  merge : SortedMap MergeRule := SortedMap.empty
  deriving DecidableEq, Inhabited

namespace Nesting

/-- May the tag stand below? -/
def allows (nesting : Nesting) (tag : String) : Bool :=
  match nesting.allowed with
  | none => true
  | some allowed => allowed.contains tag || nesting.merge.contains tag

/-- What becomes of the tag. -/
def ruleFor (nesting : Nesting) (tag : String) : MergeRule :=
  (nesting.merge.find? tag).getD .keep

end Nesting

/-- What a taglib says about a tag, its transforms aside. -/
structure TagRules where
  name : String
  /-- The module that renders the tag. -/
  renderer : Option String := none
  /-- Why the tag should not be used any more. -/
  deprecated : Option String := none
  /-- Does text below the tag keep its whitespace? -/
  preserve : Bool := false
  nesting : Nesting := {}
  deriving DecidableEq, Inhabited

/-- The state of a compilation that transforms see. -/
structure Context where
  tree : Tree
  options : Options
  /-- The rules of the tags in the file that is compiled. -/
  rules : String → Option TagRules
  diagnostics : List Diagnostic := []
  /-- Notes that transforms left, in order. -/
  notes : List String := []

instance : Inhabited Context :=
  ⟨{ tree := default, options := default, rules := fun _ => none }⟩

/-- The warnings recorded so far. -/
def Context.warnings (context : Context) : List Diagnostic :=
  context.diagnostics.filter fun diagnostic => diagnostic.severity == .warning

/-- An edit of the compilation state, which may fail. What was done before the fault stays done. -/
abbrev Edit (α : Type) := ExceptT Fault (StateM Context) α

namespace Edit

/-- The tree. -/
def tree : Edit Tree := do
  return (← get).tree

/-- Changes the tree. -/
def modifyTree (change : Tree → Tree) : Edit Unit :=
  modify fun context => { context with tree := change context.tree }

/-- Changes the tree, unless the change is refused. -/
def changeTree (change : Tree → Except Fault Tree) : Edit Unit := do
  match change (← tree) with
  | .ok tree => modifyTree fun _ => tree
  | .error fault => throw fault

/-- Changes the tree and gives what the change gives, unless it is refused. -/
def makeTree (change : Tree → Except Fault (α × Tree)) : Edit α := do
  match change (← tree) with
  | .ok (value, tree) =>
      modifyTree fun _ => tree
      return value
  | .error fault => throw fault

/-- Changes the tree and gives what the change gives. -/
def takeTree (change : Tree → α × Tree) : Edit α :=
  makeTree fun tree => .ok (change tree)

/-- Fails for a cause at a node. -/
def failAt (id : NodeId) (cause : Cause) : Edit α := do
  throw ((← tree).faultAt id cause)

/-- Records a diagnostic. -/
def record (diagnostic : Diagnostic) : Edit Unit :=
  modify fun context => { context with diagnostics := context.diagnostics ++ [diagnostic] }

/-- Records a warning about a node. -/
def warn (id : NodeId) (code message : String) : Edit Unit := do
  let tree ← tree
  let node := tree.node id
  record (Diagnostic.warning code message tree.file node.position (some node.describe))

/-- Leaves a note. -/
def note (text : String) : Edit Unit :=
  modify fun context => { context with notes := context.notes ++ [text] }

end Edit

/-- When a transform runs: before the children of its node, or after all of them have settled. -/
inductive Phase
  | enter
  | leave
  deriving DecidableEq, Repr, Inhabited

/-- What a transform did to its node. -/
inductive Outcome
  | unchanged
  /-- The node was edited in place, and its transforms run again. -/
  | changed
  /-- Another node took its place. -/
  | replaced (next : NodeId)
  /-- The node was taken from the tree with all that is below it. -/
  | removed
  deriving DecidableEq, Repr, Inhabited

/-- A named change of nodes. -/
structure Transform where
  name : String
  phase : Phase := .enter
  apply : NodeId → Edit Outcome

instance : Inhabited Transform :=
  ⟨{ name := "", apply := fun _ => return .unchanged }⟩

namespace Transform

/-- Makes an element a custom tag that the renderer renders. -/
def bindRenderer (renderer : String) : Transform :=
  { name := "bind-renderer"
    apply := fun id => do
      match (← Edit.tree).kind id with
      | .element tag =>
          Edit.changeTree fun tree => tree.setKind id (.customTag tag renderer)
          return .changed
      | _ => return .unchanged }

end Transform

end HtmlTemplate
