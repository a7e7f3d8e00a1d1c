import HtmlTemplate.Taglib
import HtmlTemplate.Tree.Traversal

/-!
# The walk over a tree

A walk applies the transforms of every node until all nodes have settled. A node is entered first: its
transforms for that phase run in order, and from the start again after each change, on the node that took
its place if there is one. Then its children are visited, and at last the transforms for the other phase
run. Children are picked by state and not by place, so children that transforms insert or take away are
no trouble.

How often the transforms of a node may change it is bounded. Nodes that are made while a node changes
start from its count, and so does a node that was replaced and comes up again inside of its replacement.
A transform that reports no change may still make nodes, so a walk need not end, and is given fuel.
-/

namespace HtmlTemplate

/-- Why a walk stops early. -/
inductive Halt
  | fault (fault : Fault)
  /-- The fuel ran out. -/
  | exhausted
  deriving Repr

/-- What a walk keeps in mind. -/
structure Progress where
  /-- How many visits to nodes have begun. -/
  visited : Nat := 0
  /-- How often transforms reported a change. -/
  applied : Nat := 0
  /-- The nodes that were warned about, with the code of the warning. -/
  warned : List (NodeId × String) := []
  /-- The counts that nodes start from, the latest first. -/
  carried : List (NodeId × Nat) := []
  deriving Repr, Inhabited

namespace Progress

/-- The count that a node starts from. -/
def startOf (progress : Progress) (id : NodeId) : Nat :=
  (progress.carried.lookup id).getD 0

/-- Gives a node a count to start from. -/
def carry (progress : Progress) (id : NodeId) (passes : Nat) : Progress :=
  { progress with carried := (id, passes) :: progress.carried }

/-- Gives the nodes from one number up to another a count that they start from at least. -/
def inherit (progress : Progress) (first past passes : Nat) : Progress :=
  (List.range' first (past - first)).foldl
    (fun progress index => progress.carry ⟨index⟩ (max (progress.startOf ⟨index⟩) passes)) progress

end Progress

/-- A part of a walk. What it did before it halts stays done. -/
abbrev Walk (α : Type) := ExceptT Halt (StateT Progress (StateM Context)) α

namespace Walk

/-! ## Parts of the state -/

/-- The compilation that is walked over. -/
def context : Walk Context :=
  fun progress context => ((.ok context, progress), context)

/-- The tree. -/
def tree : Walk Tree := do
  return (← context).tree

/-- Changes the compilation. -/
def modifyContext (change : Context → Context) : Walk Unit :=
  fun progress context => ((.ok (), progress), change context)

/-- Changes what the walk keeps in mind. -/
def modifyProgress (change : Progress → Progress) : Walk Unit :=
  fun progress context => ((.ok (), change progress), context)

/-- What the walk keeps in mind. -/
def progress : Walk Progress :=
  fun progress context => ((.ok progress, progress), context)

/-- Sets how far the walk has come with a node. -/
def setState (id : NodeId) (state : WalkState) : Walk Unit :=
  modifyContext fun context => { context with tree := context.tree.setState id state }

/-- Records a diagnostic. -/
def record (diagnostic : Diagnostic) : Walk Unit :=
  modifyContext fun context => { context with diagnostics := context.diagnostics ++ [diagnostic] }

/-- Stops the walk at a node for a fault. -/
def failNode (id : NodeId) (fault : Fault) : Walk α := do
  setState id .failed
  throw (.fault fault)

/-- Does an edit of the compilation. -/
def attempt (work : Edit α) : Walk (Except Fault α) :=
  fun progress context =>
    let (result, context) := work.run context
    ((.ok result, progress), context)

/-! ## Checks -/

/-- Records a warning about a node, unless it was warned about with the same code before. -/
def warnOnce (id : NodeId) (diagnostic : Diagnostic) : Walk Unit := do
  if (← progress).warned.contains (id, diagnostic.code) then return ()
  else
    modifyProgress fun progress => { progress with warned := (id, diagnostic.code) :: progress.warned }
    record diagnostic

/-- A warning that a tag should not be used any more. -/
def deprecation (tree : Tree) (id : NodeId) (tag reason : String) : Diagnostic :=
  Diagnostic.warning Diagnostic.deprecatedTagCode ("<" ++ tag ++ "> is deprecated: " ++ reason)
    tree.file (tree.node id).position (some ("<" ++ tag ++ ">"))

/-- A warning that a tag stays as it is since no taglib knows it. -/
def unknownTag (tree : Tree) (id : NodeId) (tag : String) : Diagnostic :=
  Diagnostic.warning Diagnostic.unknownTagWarningCode
    ("Unknown tag <" ++ tag ++ "> passed through as markup") tree.file (tree.node id).position none

/-- Is the node plain markup that has to be known? -/
def needsEntry (kind : Kind) : Bool :=
  match kind with
  | .element tag => !Name.isStandard tag
  | _ => false

/-- Checks that the tag of a node is known, and does what its entry says without a transform. -/
def checkKnown (registry : Registry) (id : NodeId) (tag : String) : Walk Unit := do
  let context ← context
  match registry.lookup? tag context.tree.file with
  | some entry => do
      if let some reason := entry.rules.deprecated then
        warnOnce id (deprecation context.tree id tag reason)
      if entry.rules.preserve then
        modifyContext fun context => { context with tree := context.tree.setPreserve id true }
  | none =>
      if needsEntry (context.tree.kind id) then
        if context.options.allowUnknownTags then warnOnce id (unknownTag context.tree id tag)
        else failNode id (context.tree.faultAt id (.unknownTag tag))

/-- Checks that the parent of a node allows its tag. -/
def checkNesting (registry : Registry) (id : NodeId) (tag : String) : Walk Unit := do
  let tree ← tree
  let parentTag := (tree.parent id).bind fun parent => (tree.node parent).tag?
  match parentTag with
  | none => return ()
  | some parentTag =>
      match registry.lookup? parentTag tree.file with
      | none => return ()
      | some entry =>
          if entry.rules.nesting.allows tag then return ()
          else failNode id { tree.faultAt id (.notAllowedInside tag parentTag) with context := none }

/-- Checks the tag of a node, if it has one. -/
def checkTag (registry : Registry) (id : NodeId) : Walk Unit := do
  match ((← tree).node id).tag? with
  | none => return ()
  | some tag => do
      checkKnown registry id tag
      checkNesting registry id tag

/-! ## Transforms -/

/-- The transforms of a node for a phase: those of its tag, then those for all tags. -/
def transformsFor (registry : Registry) (tree : Tree) (id : NodeId) (phase : Phase) : List Transform :=
  match (tree.node id).tag? with
  | none => []
  | some tag =>
      let own := ((registry.lookup? tag tree.file).map TagEntry.transforms).getD []
      (own ++ registry.globals tree.file).filter fun transform => transform.phase == phase

/-- Takes note of what a transform did to a node, and checks that it is so. -/
def confirm (transform : Transform) (id : NodeId) : Outcome → Walk Outcome
  | .unchanged => return .unchanged
  | .changed => return .changed
  | .replaced next => do
      let tree ← tree
      if next == id then return .changed
      else if (tree.parent next).isNone then
        failNode id (tree.faultAt next (.replacedOutside transform.name id))
      else return .replaced next
  | .removed => do
      let tree ← tree
      if (tree.parent id).isSome then failNode id (tree.faultAt id (.stillAttached transform.name id))
      else
        setState id .settled
        return .removed

/-- Applies transforms to a node in order, up to the first one that changes it. -/
def applyFirst (id : NodeId) : List Transform → Walk Outcome
  | [] => return .unchanged
  | transform :: transforms => do
      match ← attempt (transform.apply id) with
      | .error fault => failNode id fault
      | .ok .unchanged => applyFirst id transforms
      | .ok outcome => do
          modifyProgress fun progress => { progress with applied := progress.applied + 1 }
          confirm transform id outcome

/-- What the transforms of a node for a phase do, and how many nodes there were before. -/
def runPhase (registry : Registry) (id : NodeId) (phase : Phase) : Walk (Outcome × Nat) := do
  let tree ← tree
  let outcome ← applyFirst id (transformsFor registry tree id phase)
  return (outcome, tree.size)

/-- Stops the walk at a node that changes too often. -/
def unsettled (bound : Nat) (id : NodeId) : Walk α := do
  let tree ← tree
  failNode id (tree.faultAt id (.unsettled (tree.node id).describe bound))

/-- Hands a count on to the nodes made since there were so many of them. -/
def handOn (before passes : Nat) : Walk Unit := do
  let size := (← tree).size
  modifyProgress fun progress => progress.inherit before size passes

/-- Marks a node as one that was replaced, and that goes on from a count if it comes up again. -/
def setAside (id : NodeId) (passes : Nat) : Walk Unit := do
  setState id .unvisited
  modifyProgress fun progress => progress.carry id passes

/-! ## Visits -/

/-- Checks a node and runs its transforms for entering once. -/
def enterOnce (registry : Registry) (id : NodeId) : Walk (Outcome × Nat) := do
  setState id .entering
  checkTag registry id
  runPhase registry id .enter

/--
Enters a node: its transforms run until they change nothing more. Gives the node that is there in the
end, with the number of changes left to it, or nothing if it was removed.
-/
def enter (registry : Registry) (bound : Nat) : Nat → NodeId → Walk (Option (NodeId × Nat))
  | 0, id => do
      match (← enterOnce registry id).1 with
      | .unchanged => return some (id, 0)
      | .removed => return none
      | _ => unsettled bound id
  | left + 1, id => do
      let (outcome, before) ← enterOnce registry id
      match outcome with
      | .unchanged => return some (id, left + 1)
      | .removed => return none
      | .changed => do
          handOn before (bound - left)
          enter registry bound left id
      | .replaced next => do
          handOn before (bound - left)
          setAside id (bound - left)
          enter registry bound left next

mutual

/-- Visits a node that has changed some times already: enters it, visits its children and leaves it. -/
def visit (registry : Registry) (bound : Nat) : Nat → NodeId → Nat → Walk Unit
  | 0, _, _ => throw .exhausted
  | fuel + 1, id, passes => do
      let passes := max passes ((← progress).startOf id)
      modifyProgress fun progress => { progress with visited := progress.visited + 1 }
      match ← enter registry bound (bound - passes) id with
      | none => return ()
      | some (id, left) => do
          setState id .entered
          visitChildren registry bound fuel id 0
          setState id .exiting
          leave registry bound fuel id left

/-- Visits the unvisited children of a node from a place on. -/
def visitChildren (registry : Registry) (bound : Nat) : Nat → NodeId → Nat → Walk Unit
  | 0, _, _ => throw .exhausted
  | fuel + 1, parent, index => do
      let tree ← tree
      match (tree.children parent)[index]? with
      | none => return ()
      | some child =>
          if (tree.node child).state == .unvisited then do
            visit registry bound fuel child 0
            visitChildren registry bound fuel parent index
          else visitChildren registry bound fuel parent (index + 1)

/--
Leaves a node to which a number of changes is left: its transforms for leaving run until they change
nothing more. Children that come up are visited after each change, and a node that takes its place is
visited instead.
-/
def leave (registry : Registry) (bound : Nat) : Nat → NodeId → Nat → Walk Unit
  | 0, _, _ => throw .exhausted
  | fuel + 1, id, left => do
      let (outcome, before) ← runPhase registry id .leave
      match outcome, left with
      | .unchanged, _ => setState id .settled
      | .removed, _ => return ()
      | _, 0 => unsettled bound id
      | .changed, left + 1 => do
          handOn before (bound - left)
          visitChildren registry bound fuel id 0
          leave registry bound fuel id left
      | .replaced next, left + 1 => do
          handOn before (bound - left)
          setAside id (bound - left)
          visit registry bound fuel next (bound - left)

end

/-- Walks over all that is below a node. -/
def start (registry : Registry) (fuel : Nat) (root : NodeId) : Walk Unit := do
  let context ← context
  for id in context.tree.preorder root do
    setState id .unvisited
  visit registry context.options.maxTransformPasses fuel root 0

end Walk

/-- What a walk came to: what it kept in mind in the end, or why it stopped; and the compilation after it. -/
def Context.walk (context : Context) (registry : Registry) (fuel : Nat) (root : NodeId) :
    Except Halt Progress × Context :=
  let ((result, progress), context) := Walk.start registry fuel root {} context
  (result.map fun _ => progress, context)

end HtmlTemplate
