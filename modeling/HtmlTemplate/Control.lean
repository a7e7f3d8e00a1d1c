import HtmlTemplate.LoopHeader
import HtmlTemplate.Taglib
import HtmlTemplate.Transform

/-!
# Control tags

Conditionals, loops and comments that stay: the constructs that their tags are turned into, the transforms that do so,
and the core taglib, which registers them.
-/

namespace HtmlTemplate

/-!
## Building control constructs

What the transforms of control tags share: reading the attributes of a tag, building the construct that it
stands for, and putting the construct in the place of the tag.
-/

namespace Construct

/-- The tag of a node that is an element. -/
def elementTag? (tree : Tree) (id : NodeId) : Option String :=
  match tree.kind id with
  | .element tag => some tag
  | _ => none

/-- Control tags are replaced, so an attribute that they do not use would be lost. -/
def requireOnly (id : NodeId) (allowed : List String) : Edit Unit := do
  let node := (← Edit.tree).node id
  match node.attributes.find? fun candidate => !allowed.contains candidate.name with
  | some surplus => Edit.failAt id (.surplusAttribute node.describe surplus.name)
  | none => return ()

/-- The code in an attribute that has to be there. -/
def requireCode (id : NodeId) (name : String) : Edit String := do
  let node := (← Edit.tree).node id
  let code := ((node.attribute? name).map fun found => found.value.asCode).getD ""
  if code.isEmpty then Edit.failAt id (.missingAttribute node.describe name) else return code

/-- Makes a node without attributes at the position of another one. -/
def create (place : NodeId) (kind : Kind) (children : List NodeId) : Edit NodeId :=
  Edit.makeTree fun tree => tree.create (tree.node place).position kind [] children

/-- Makes a conditional with one branch, at the position of a node. Gives both. -/
def conditional (place : NodeId) (test : String) : Edit (NodeId × NodeId) := do
  let branch ← create place (.branch (some test)) []
  let conditional ← create place .conditional [branch]
  return (conditional, branch)

/-- Makes an iteration from a loop header, at the position of a node. -/
def iteration (place : NodeId) (header : String) : Edit NodeId :=
  match LoopHeader.parse? header with
  | some loop => create place (.iteration loop.item loop.index loop.source) []
  | none => Edit.failAt place (.loopHeader header)

/-- Adds a node behind the children of another one. -/
def append (parent child : NodeId) : Edit Unit :=
  Edit.changeTree fun tree => tree.append parent child

/-- Adds nodes behind the children of another one. -/
def appendAll (parent : NodeId) (children : List NodeId) : Edit Unit :=
  children.forM (append parent)

/-- Moves all children of a node behind those of another one. -/
def moveChildren (source target : NodeId) : Edit Unit := do
  appendAll target (← Edit.takeTree fun tree => tree.takeChildren source)

/-- Takes a node from its parent. -/
def detach (id : NodeId) : Edit Unit :=
  Edit.changeTree fun tree => tree.detach id

/-- Puts another node in the place of a node. -/
def replace (id replacement : NodeId) : Edit Outcome := do
  match (← Edit.tree).parent id with
  | none => Edit.failAt id (.noParent id)
  | some parent => do
      Edit.changeTree fun tree => tree.replace parent id replacement
      return .replaced replacement

/-- The last child of the last child, and so on. The budget bounds the depth. -/
def innermost (tree : Tree) : Nat → NodeId → NodeId
  | 0, id => id
  | budget + 1, id =>
      match (tree.children id).getLast? with
      | some child => innermost tree budget child
      | none => id

/-- Puts a construct in the place of a node, and the node inside of the construct. -/
def wrap (id construct : NodeId) : Edit Outcome := do
  let outcome ← replace id construct
  let tree ← Edit.tree
  append (innermost tree tree.depthBound construct) id
  return outcome

end Construct

/-!
## Loops

A `<for>` becomes an iteration over its content. A condition in an attribute is tested for each element.
-/

namespace Iteration

open Construct

/-- Turns the tag into an iteration. -/
def lower (id : NodeId) : Edit Outcome := do
  if (elementTag? (← Edit.tree) id).isNone then return .unchanged
  else
    requireOnly id ["each", "if"]
    let header ← requireCode id "each"
    let iteration ← iteration id header
    if ((← Edit.tree).attribute? id "if").isSome then
      let test ← requireCode id "if"
      let (conditional, branch) ← conditional id test
      moveChildren id branch
      append iteration conditional
    else moveChildren id iteration
    replace id iteration

end Iteration

/-!
## Comments that stay

Comments of a template do not reach its output. An `<html-comment>` becomes one that does.
-/

namespace Comment

open Construct

/-- The text of nodes, all of which have to be text. -/
def textOf : List NodeId → Edit String
  | [] => return ""
  | id :: rest => do
      match (← Edit.tree).kind id with
      | .text value => return value ++ (← textOf rest)
      | _ => Edit.failAt id .commentContent

/-- Turns the tag into a comment. -/
def lower (id : NodeId) : Edit Outcome := do
  let tree ← Edit.tree
  if (elementTag? tree id).isNone then return .unchanged
  else
    requireOnly id []
    let value ← textOf (tree.children id)
    let comment ← create id (.comment value true) []
    replace id comment

end Comment

/-!
## Conditionals

An `<if>` with the `<else-if>` and `<else>` tags inside of it and behind it becomes a conditional, with a
branch for each of them. A loop header in an attribute repeats the whole conditional.
-/

namespace Conditional

open Construct

/-- Is the node an element that becomes a branch under these rules? -/
def isBranch (nesting : Nesting) (tree : Tree) (id : NodeId) : Bool :=
  match elementTag? tree id with
  | some tag => nesting.ruleFor tag == .branch
  | none => false

/--
Takes the branch tags at the start of a list of siblings, and the blank text between them. Blank text
that no branch tag follows stays.
-/
def takeFollowing (nesting : Nesting) : List NodeId → Edit (List NodeId)
  | [] => return []
  | sibling :: rest => do
      let tree ← Edit.tree
      if (tree.node sibling).isBlankText then
        if (rest.head?.map (isBranch nesting tree)).getD false then
          detach sibling
          takeFollowing nesting rest
        else return []
      else if isBranch nesting tree sibling then
        detach sibling
        return sibling :: (← takeFollowing nesting rest)
      else return []

/-- Warns about a tag that should not be used any more. -/
def warnDeprecated (id : NodeId) (tag : String) : Edit Unit := do
  match ((← get).rules tag).bind TagRules.deprecated with
  | some reason =>
      Edit.warn id Diagnostic.deprecatedTagCode ("<" ++ tag ++ "> is deprecated: " ++ reason)
  | none => return ()

/-- Has a branch with this tag a test of its own? -/
def isTested (tag : String) : Bool :=
  tag.endsWith "else-if"

/-- The test of a branch tag, if it has one. -/
def readTest (id : NodeId) (tag : String) : Edit (Option String) := do
  if isTested tag then
    requireOnly id ["test"]
    return some (← requireCode id "test")
  else
    requireOnly id []
    return none

/-- Turns branch tags into branches of a conditional. The flag tells whether the last branch had no test. -/
def addBranches (conditional : NodeId) : Bool → List NodeId → Edit Unit
  | _, [] => return ()
  | closed, id :: rest => do
      let tag := (elementTag? (← Edit.tree) id).getD ""
      if closed then Edit.failAt id (.branchAfterElse tag)
      else
        warnDeprecated id tag
        let test ← readTest id tag
        let branch ← create id (.branch test) []
        moveChildren id branch
        append conditional branch
        addBranches conditional test.isNone rest

/-- Turns the tag and its branch tags into a conditional. -/
def lower (id : NodeId) : Edit Outcome := do
  match elementTag? (← Edit.tree) id with
  | none => return .unchanged
  | some tag => do
      requireOnly id ["test", "for"]
      let test ← requireCode id "test"
      let nesting := (((← get).rules tag).map TagRules.nesting).getD {}
      let (conditional, first) ← conditional id test
      let children ← Edit.takeTree fun tree => tree.takeChildren id
      let tree ← Edit.tree
      let nested := children.filter (isBranch nesting tree)
      appendAll first (children.filter fun child => !isBranch nesting tree child)
      let following ← takeFollowing nesting ((← Edit.tree).following id)
      addBranches conditional false (nested ++ following)
      match (← Edit.tree).attribute? id "for" with
      | none => replace id conditional
      | some header => do
          let iteration ← iteration id header.value.asCode
          let outcome ← replace id iteration
          append iteration conditional
          return outcome

/-- Refuses a branch tag that no `<if>` has taken. -/
def refuseStray (id : NodeId) : Edit Outcome := do
  Edit.failAt id (.strayBranch ((← Edit.tree).node id).describe)

end Conditional

/-!
## Directives

Any tag may carry a loop header or a condition in an attribute, and is then repeated or made conditional.
The loop is the outer one. A `for` attribute that is no loop header, as on a `<label>`, is left alone.
-/

namespace Directive

open Construct

/-- The loop header that a node carries. -/
def loopHeader? (tree : Tree) (id : NodeId) : Option String := do
  let found ← tree.attribute? id "for"
  let header := found.value.asCode
  if found.value.isStatic && (LoopHeader.parse? header).isSome then some header else none

/-- Takes the first attribute of a name from a node. -/
def dropAttribute (id : NodeId) (name : String) : Edit Unit :=
  Edit.modifyTree fun tree => (tree.removeAttribute id name).2

/-- Wraps a node in the constructs that its attributes ask for. -/
def lower (id : NodeId) : Edit Outcome := do
  let tree ← Edit.tree
  if (tree.parent id).isNone then return .unchanged
  else
    match loopHeader? tree id with
    | some header => do
        dropAttribute id "for"
        wrap id (← iteration id header)
    | none =>
        match tree.attribute? id "if" with
        | none => return .unchanged
        | some found => do
            let test := found.value.asCode
            if test.isEmpty then Edit.failAt id .emptyCondition
            else
              dropAttribute id "if"
              wrap id (← conditional id test).1

end Directive

/-!
## The core taglib

Conditionals, loops, comments that stay, and the older names of the control tags.
-/

namespace Control

/-- An older name of a tag: the tag is renamed, and warned about. -/
def olderName (old new : String) : TagEntry :=
  { rules := { name := old, deprecated := some ("use <" ++ new ++ "> instead") }
    declared := [{
      name := "rename-legacy"
      apply := fun id => do
        Edit.changeTree fun tree => tree.setKind id (.element new)
        return .changed }] }

/-- The tags that become branches of an `<if>`. -/
def branchTags : List String :=
  ["else-if", "else", "c-else-if", "c-else"]

/-- The tag that starts a conditional. -/
def ifEntry : TagEntry :=
  { rules :=
      { name := "if"
        nesting := { merge := SortedMap.ofList (branchTags.map fun tag => (tag, .branch)) } }
    declared := [{ name := "if", apply := Conditional.lower }] }

/-- A tag that only makes sense as a branch. -/
def branchEntry (tag : String) : TagEntry :=
  { rules := { name := tag }
    declared := [{ name := "orphan-branch", apply := Conditional.refuseStray }] }

/-- The tag of loops. -/
def forEntry : TagEntry :=
  { rules := { name := "for" }, declared := [{ name := "for", apply := Iteration.lower }] }

/-- The tag of comments that stay. -/
def commentEntry : TagEntry :=
  { rules := { name := "html-comment", preserve := true }
    declared := [{ name := "html-comment", apply := Comment.lower }] }

/-- The entries of the core taglib. -/
def entries : List TagEntry :=
  [ifEntry, branchEntry "else-if", branchEntry "else", forEntry, commentEntry,
   olderName "c-if" "if", olderName "c-else-if" "else-if", olderName "c-else" "else",
   olderName "c-for" "for"]

/-- The core taglib. -/
def taglib : Taglib :=
  { id := "core"
    entries := SortedMap.ofList (entries.map fun entry => (entry.rules.name, entry))
    globals := [{ name := "attribute-directives", apply := Directive.lower }] }

end Control

/-- The registry with the core taglib. -/
def Registry.core : Registry :=
  Registry.register {} none Control.taglib

end HtmlTemplate
