import HtmlTemplate.SortedMap
import HtmlTemplate.Tree.Edit
import HtmlTemplate.Tree.Traversal

/-!
# Edit scripts

A script is a list of steps, each an edit of a tree or a question about it. Steps name nodes by number
or by a name under which an earlier step stored them. A step that is refused does not end the script.
-/

namespace HtmlTemplate

/-- How a step says which node it means. -/
inductive Reference
  /-- The node that was stored under a name. -/
  | stored (name : String)
  /-- The node with a number. -/
  | numbered (number : Nat)
  /-- No node at all. -/
  | missing
  deriving DecidableEq, Repr, Inhabited

/-- The node that is asked for, seen from another one. -/
inductive Relation
  | next
  | previous
  | parent
  | firstChild
  deriving DecidableEq, Repr, Inhabited

/-- A step of a script. Kinds that could not be read are missing. -/
inductive Step
  | create (kind : Option Kind) (children : List Reference) (attributes : List (String × String))
      (position : Position) (store : Option String)
  | clone (node : Reference) (deep : Bool) (store : Option String)
  | append (parent child : Reference)
  | insertBefore (parent child next : Reference)
  | remove (parent child : Reference)
  | replace (parent old new : Reference)
  | detach (node : Reference)
  | takeChildren (node : Reference)
  | moveChildren (source target : Reference)
  | setKind (node : Reference) (kind : Option Kind)
  | setAttribute (node : Reference) (name value : String)
  | removeAttribute (node : Reference) (name : String)
  | readAttribute (node : Reference) (name : String)
  | setPosition (node : Reference) (position : Position)
  | setPreserve (node : Reference) (preserve : Bool)
  /-- Counts the settled children of a node, and keeps the number in an attribute. -/
  | countSettled (node : Reference) (name : String)
  | inspect (node : Reference)
  | indexOf (parent child : Reference)
  | follow (relation : Relation) (node : Reference) (store : Option String)
  | measure
  | verify (node : Reference)
  deriving Repr, Inhabited

/-- What a step gives. -/
inductive Answer
  | nothing
  | node (id : NodeId)
  | nodes (ids : List NodeId)
  | found (result : Option Attribute)
  | view (id : NodeId) (node : Node)
  | count (number : Nat)
  | size (number : Nat)
  /-- The tree is sound below the node that was asked about. -/
  | sound
  deriving Repr, Inhabited

/-- Why a step was refused. -/
inductive Refusal
  /-- A reference names no node. -/
  | badReference
  /-- A kind could not be read. -/
  | badKind
  /-- The tree refused the edit. -/
  | fault (fault : Fault)
  deriving Repr

/-- A tree with names for some of its nodes. -/
structure Workbench where
  tree : Tree
  names : SortedMap NodeId := SortedMap.empty

instance : Inhabited Workbench :=
  ⟨{ tree := default }⟩

/-- A piece of work at a workbench, which may be refused. What was done before stays done. -/
abbrev Work (α : Type) := ExceptT Refusal (StateM Workbench) α

namespace Work

/-- The tree. -/
def tree : Work Tree := do
  return (← get).tree

/-- Puts another tree on the workbench. -/
def setTree (tree : Tree) : Work Unit :=
  modify fun bench => { bench with tree }

/-- Takes what an edit gives, unless it was refused. -/
def accept : Except Fault α → Work α
  | .ok value => return value
  | .error fault => throw (.fault fault)

/-- Changes the tree, unless the edit is refused. -/
def edit (change : Tree → Except Fault Tree) : Work Answer := do
  setTree (← accept (change (← tree)))
  return .nothing

/-- Changes the tree by an edit that is never refused. -/
def adjust (change : Tree → Tree) : Work Answer :=
  edit fun tree => .ok (change tree)

/-- Stores a node under a name, if one is given. Without a node the name is forgotten. -/
def store (name : Option String) (id : Option NodeId) : Work Unit :=
  match name with
  | none => return ()
  | some name =>
      modify fun bench =>
        match id with
        | some id => { bench with names := bench.names.insert name id }
        | none => { bench with names := bench.names.erase name }

/-- The node that a reference means. -/
def resolve (reference : Reference) : Work NodeId := do
  let bench ← get
  let found :=
    match reference with
    | .stored name => bench.names.find? name
    | .numbered number => if number < bench.tree.size then some ⟨number⟩ else none
    | .missing => none
  match found with
  | some id => return id
  | none => throw .badReference

/-- The kind, if it could be read. -/
def readKind : Option Kind → Work Kind
  | some kind => return kind
  | none => throw .badKind

/-- Appends nodes to another one, up to the first that is refused. -/
def appendAll (parent : NodeId) (children : List NodeId) : Work Answer := do
  for child in children do
    let _ ← edit fun tree => tree.append parent child
  return .nothing

/-- Gives a node, if there is one, and stores it. -/
def giveNode (store : Option String) (id : Option NodeId) : Work Answer := do
  Work.store store id
  return match id with
    | some id => .node id
    | none => .nothing

end Work

namespace Relation

/-- The node in this relation to another one. -/
def find? (tree : Tree) (id : NodeId) : Relation → Option NodeId
  | next => tree.nextSibling? id
  | previous => tree.previousSibling? id
  | parent => tree.parent id
  | firstChild => (tree.children id).head?

end Relation

namespace Step

/-- Takes a step. References are resolved before anything is done. -/
def run : Step → Work Answer
  | create kind children attributes position store => do
      let kind ← Work.readKind kind
      let children ← children.mapM Work.resolve
      let (id, tree) ← Work.accept ((← Work.tree).create position kind attributes children)
      Work.setTree tree
      Work.giveNode store (some id)
  | clone node deep store => do
      let node ← Work.resolve node
      let (id, tree) := (← Work.tree).clone node deep
      Work.setTree tree
      Work.giveNode store (some id)
  | append parent child => do
      let parent ← Work.resolve parent
      let child ← Work.resolve child
      Work.edit fun tree => tree.append parent child
  | insertBefore parent child next => do
      let parent ← Work.resolve parent
      let child ← Work.resolve child
      let next ← Work.resolve next
      Work.edit fun tree => tree.insertBefore parent child next
  | remove parent child => do
      let parent ← Work.resolve parent
      let child ← Work.resolve child
      Work.edit fun tree => tree.remove parent child
  | replace parent old new => do
      let parent ← Work.resolve parent
      let old ← Work.resolve old
      let new ← Work.resolve new
      Work.edit fun tree => tree.replace parent old new
  | detach node => do
      let node ← Work.resolve node
      Work.edit fun tree => tree.detach node
  | takeChildren node => do
      let node ← Work.resolve node
      let (children, tree) := (← Work.tree).takeChildren node
      Work.setTree tree
      return .nodes children
  | moveChildren source target => do
      let source ← Work.resolve source
      let target ← Work.resolve target
      let (children, tree) := (← Work.tree).takeChildren source
      Work.setTree tree
      Work.appendAll target children
  | setKind node kind => do
      let node ← Work.resolve node
      let kind ← Work.readKind kind
      Work.edit fun tree => tree.setKind node kind
  | setAttribute node name value => do
      let node ← Work.resolve node
      Work.edit fun tree => tree.setAttribute node name value
  | removeAttribute node name => do
      let node ← Work.resolve node
      let (removed, tree) := (← Work.tree).removeAttribute node name
      Work.setTree tree
      return .found removed
  | readAttribute node name => do
      let node ← Work.resolve node
      return .found ((← Work.tree).attribute? node name)
  | setPosition node position => do
      let node ← Work.resolve node
      Work.adjust fun tree => tree.setPosition node position
  | setPreserve node preserve => do
      let node ← Work.resolve node
      Work.adjust fun tree => tree.setPreserve node preserve
  | countSettled node name => do
      let node ← Work.resolve node
      let tree ← Work.tree
      let number := (tree.children node).countP fun child => (tree.node child).state == .settled
      let _ ← Work.edit fun tree => tree.setAttribute node name (toString number)
      return .count number
  | inspect node => do
      let node ← Work.resolve node
      return .view node ((← Work.tree).node node)
  | indexOf parent child => do
      let parent ← Work.resolve parent
      let child ← Work.resolve child
      match (← Work.tree).indexOf? parent child with
      | some index => return .count index
      | none => return .nothing
  | follow relation node store => do
      let node ← Work.resolve node
      Work.giveNode store (relation.find? (← Work.tree) node)
  | measure => do
      return .size (← Work.tree).size
  | verify node => do
      let node ← Work.resolve node
      Work.accept ((← Work.tree).checkOwnership node)
      return .sound

end Step

/-- What a step gave or why it was refused, with the tree after it. -/
structure StepReport where
  answer : Except Refusal Answer
  tree : Tree

namespace Workbench

/-- Takes steps in order, and reports on each of them. -/
def runSteps (bench : Workbench) : List Step → List StepReport × Workbench
  | [] => ([], bench)
  | step :: steps =>
      let (answer, bench) := step.run.run bench
      let (reports, last) := bench.runSteps steps
      ({ answer, tree := bench.tree } :: reports, last)

end Workbench

end HtmlTemplate
