import HtmlTemplate.EditScript
import HtmlTemplate.Transform

/-!
# Transforms given by edit scripts

A transform whose work is an edit script. It leaves a note of every application, so a compilation can be
followed.
-/

namespace HtmlTemplate

/-- An action of a scripted transform. -/
inductive Action
  | step (step : Step)
  /-- Records a warning about the node. -/
  | warn (code message : String)
  /-- Reports a fault at the node. -/
  | fail (code message : String)
  deriving Repr, Inhabited

/-- What a scripted transform says that it did. -/
inductive Verdict
  | unchanged
  | changed
  | replaced (next : Reference)
  | removed
  deriving Repr, Inhabited

/-- A transform as data. -/
structure ScriptedTransform where
  name : String
  phase : Phase := .enter
  /-- The tag that a node has to have. -/
  ifTag : Option String := none
  /-- An attribute that a node has to have. -/
  ifAttribute : Option String := none
  /-- An attribute that a node must not have. -/
  unlessAttribute : Option String := none
  actions : List Action := []
  verdict : Verdict := .unchanged
  deriving Repr, Inhabited

namespace Work

/-- Does a piece of work on the tree of a compilation. -/
def onContext (work : Work α) (names : SortedMap NodeId) : Edit (Except Refusal α × SortedMap NodeId) := do
  let (answer, bench) := work.run { tree := ← Edit.tree, names }
  Edit.modifyTree fun _ => bench.tree
  return (answer, bench.names)

end Work

namespace Action

/-- Takes an action for a node. References that mean no node make a step do nothing. -/
def run (id : NodeId) (names : SortedMap NodeId) : Action → Edit (SortedMap NodeId)
  | step edit => do
      match ← edit.run.onContext names with
      | (.error (.fault fault), _) => throw fault
      | (_, names) => return names
  | warn code message => do
      Edit.warn id code message
      return names
  | fail code message => Edit.failAt id (.reported code message)

end Action

namespace ScriptedTransform

/-- Is the transform meant for the node? -/
def appliesTo (transform : ScriptedTransform) (node : Node) : Bool :=
  (match transform.ifTag with
    | some tag => node.tag? == some tag
    | none => true) &&
  (match transform.ifAttribute with
    | some name => (node.attribute? name).isSome
    | none => true) &&
  (match transform.unlessAttribute with
    | some name => (node.attribute? name).isNone
    | none => true)

/-- The names that a script starts with: the node, and its parent if it has one. -/
def initialNames (tree : Tree) (id : NodeId) : SortedMap NodeId :=
  let names := SortedMap.empty.insert "node" id
  match tree.parent id with
  | some parent => names.insert "parent" parent
  | none => names

/-- The outcome that a verdict stands for. -/
def outcome (names : SortedMap NodeId) : Verdict → Edit Outcome
  | .unchanged => return .unchanged
  | .changed => return .changed
  | .removed => return .removed
  | .replaced next => do
      match ← (Work.resolve next).onContext names with
      | (.ok next, _) => return .replaced next
      | (.error _, _) => return .unchanged

/-- Applies a scripted transform to a node. -/
def apply (transform : ScriptedTransform) (id : NodeId) : Edit Outcome := do
  let tree ← Edit.tree
  let node := tree.node id
  let meant := transform.appliesTo node
  Edit.note ((if meant then "" else "-") ++ transform.name ++ " " ++ node.describe ++ " " ++ id.display)
  if meant then
    let names ← transform.actions.foldlM (fun names action => action.run id names) (initialNames tree id)
    outcome names transform.verdict
  else return .unchanged

/-- The transform. -/
def toTransform (transform : ScriptedTransform) : Transform :=
  { name := transform.name, phase := transform.phase, apply := transform.apply }

end ScriptedTransform

end HtmlTemplate
