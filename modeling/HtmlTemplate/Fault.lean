import HtmlTemplate.Diagnostic
import HtmlTemplate.Node

/-!
# Faults

Everything that stops a compilation, by its cause. The class of a fault, its code and its wording follow
from the cause.
-/

namespace HtmlTemplate

/-- The classes of faults. -/
inductive FaultClass
  | parse
  | unknownTag
  | invalidKind
  | invalidAttribute
  | invalidNesting
  | detachedNode
  | transformLoop
  | unsupportedNode
  deriving DecidableEq, Repr, Inhabited

namespace FaultClass

/-- The diagnostic code of a class. -/
def code : FaultClass → String
  | parse => Diagnostic.parseCode
  | unknownTag => Diagnostic.unknownTagCode
  | invalidKind => Diagnostic.invalidKindCode
  | invalidAttribute => Diagnostic.invalidAttributeCode
  | invalidNesting => Diagnostic.invalidNestingCode
  | detachedNode => Diagnostic.detachedNodeCode
  | transformLoop => Diagnostic.transformLoopCode
  | unsupportedNode => Diagnostic.unsupportedNodeCode

/-- The class in words. -/
def title : FaultClass → String
  | parse => "parse error"
  | unknownTag => "unknown tag"
  | invalidKind => "invalid node kind"
  | invalidAttribute => "invalid attribute"
  | invalidNesting => "invalid nesting"
  | detachedNode => "detached node"
  | transformLoop => "transform loop"
  | unsupportedNode => "unsupported node kind"

end FaultClass

/-- The places of a node where code stands. -/
inductive CodeRole
  | placeholder
  | branchTest
  | loopSource
  deriving DecidableEq, Repr, Inhabited

namespace CodeRole

/-- The place in words. -/
def label : CodeRole → String
  | placeholder => "Placeholder"
  | branchTest => "Branch test"
  | loopSource => "Loop source"

end CodeRole

/-- Why a compilation cannot go on. -/
inductive Cause
  /-- A placeholder of the source is malformed. -/
  | malformedPlaceholder (fault : PieceFault)
  /-- A placeholder of the source holds no code. -/
  | placeholderCode (fault : CodeFault)
  /-- No taglib knows the tag. -/
  | unknownTag (tag : String)
  /-- The text is no tag name. -/
  | tagName (name : String)
  /-- A custom tag has no renderer. -/
  | missingRenderer
  /-- A comment that is written out would end early. -/
  | commentText
  /-- A node holds something that is no code. -/
  | code (role : CodeRole) (fault : CodeFault)
  /-- A loop variable is no identifier. -/
  | loopVariable (name : String)
  /-- Nodes of the kind have no children. -/
  | childless (kind : String)
  /-- A node with children cannot become one of the kind. -/
  | keepsChildren (kind : String)
  /-- The text is no attribute name. -/
  | attributeName (name : String)
  /-- An attribute has no valid value. -/
  | attributeValue (name : String) (fault : ValueFault)
  /-- A control tag has an attribute that it would lose. -/
  | surplusAttribute (label name : String)
  /-- A control tag lacks an attribute. -/
  | missingAttribute (label name : String)
  /-- A loop header is malformed. -/
  | loopHeader (header : String)
  /-- A condition is empty. -/
  | emptyCondition
  /-- A branch follows the last one. -/
  | branchAfterElse (tag : String)
  /-- A branch has nothing to follow. -/
  | strayBranch (label : String)
  /-- A written comment holds something else than text. -/
  | commentContent
  /-- A tag does not allow another one inside. -/
  | notAllowedInside (tag parent : String)
  /-- A transform reports a fault of its own. -/
  | reported (code message : String)
  /-- The node has a parent already. -/
  | hasParent (node parent : NodeId)
  /-- The node is listed twice among children. -/
  | listedTwice (node : NodeId)
  /-- The node would come to be below itself. -/
  | ownDescendant (node : NodeId)
  /-- The node is no child of the other one. -/
  | notChild (node parent : NodeId)
  /-- The node has no parent in which it could be replaced. -/
  | noParent (node : NodeId)
  /-- A transform replaced the node by one outside the tree. -/
  | replacedOutside (transform : String) (node : NodeId)
  /-- A transform reported the removal of a node that is still attached. -/
  | stillAttached (transform : String) (node : NodeId)
  /-- The node is listed under more than one parent. -/
  | severalParents (node : NodeId)
  /-- The node is listed under one that is not its parent. -/
  | unlinked (node parent : NodeId)
  /-- The transforms of a node keep changing it. -/
  | unsettled (label : String) (passes : Nat)
  /-- A document stands below another node. -/
  | nestedDocument
  /-- A branch of a conditional follows the one without a test. -/
  | branchAfterLast
  /-- A branch stands outside conditionals. -/
  | branchOutside
  /-- A conditional holds something else than branches. -/
  | inConditional (kind : String)
  deriving DecidableEq, Repr

namespace Cause

/-- The class of faults that a cause belongs to. -/
def faultClass : Cause → FaultClass
  | malformedPlaceholder _ => .parse
  | placeholderCode _ => .parse
  | unknownTag _ => .unknownTag
  | tagName _ => .invalidKind
  | missingRenderer => .invalidKind
  | commentText => .invalidKind
  | code _ _ => .invalidKind
  | loopVariable _ => .invalidKind
  | childless _ => .invalidKind
  | keepsChildren _ => .invalidKind
  | attributeName _ => .invalidAttribute
  | attributeValue _ _ => .invalidAttribute
  | surplusAttribute _ _ => .invalidAttribute
  | missingAttribute _ _ => .invalidAttribute
  | loopHeader _ => .invalidAttribute
  | emptyCondition => .invalidAttribute
  | branchAfterElse _ => .invalidNesting
  | strayBranch _ => .invalidNesting
  | commentContent => .invalidNesting
  | notAllowedInside _ _ => .invalidNesting
  | reported _ _ => .invalidNesting
  | hasParent _ _ => .detachedNode
  | listedTwice _ => .detachedNode
  | ownDescendant _ => .detachedNode
  | notChild _ _ => .detachedNode
  | noParent _ => .detachedNode
  | replacedOutside _ _ => .detachedNode
  | stillAttached _ _ => .detachedNode
  | severalParents _ => .detachedNode
  | unlinked _ _ => .detachedNode
  | unsettled _ _ => .transformLoop
  | nestedDocument => .unsupportedNode
  | branchAfterLast => .unsupportedNode
  | branchOutside => .unsupportedNode
  | inConditional _ => .unsupportedNode

/-- The diagnostic code of a cause; transforms choose their own. -/
def diagnosticCode : Cause → String
  | reported own _ => own
  | cause => cause.faultClass.code

/-- The cause in words. -/
def message : Cause → String
  | malformedPlaceholder fault => fault.message
  | placeholderCode fault => fault.message
  | unknownTag tag => "Unknown tag <" ++ tag ++ ">"
  | tagName name => "Invalid tag name '" ++ name ++ "'"
  | missingRenderer => "Custom tags need a renderer"
  | commentText => "HTML comments cannot contain `--`, start with `>` or end with `-`"
  | code role fault => role.label ++ ": " ++ fault.message
  | loopVariable name => "Loop variable '" ++ name ++ "' is not an identifier"
  | childless kind => "A " ++ kind ++ " node cannot have children"
  | keepsChildren kind => "Cannot turn a node with children into a " ++ kind ++ " node"
  | attributeName name => "Invalid attribute name '" ++ name ++ "'"
  | attributeValue name fault => "Attribute '" ++ name ++ "': " ++ fault.message
  | surplusAttribute label name => label ++ " does not accept the '" ++ name ++ "' attribute"
  | missingAttribute label name => label ++ " requires a '" ++ name ++ "' attribute"
  | loopHeader header => "Invalid loop '" ++ header ++ "': expected `item in list`"
  | emptyCondition => "The 'if' attribute needs a condition"
  | branchAfterElse tag => "<" ++ tag ++ "> cannot follow <else>"
  | strayBranch label => label ++ " must follow an <if> or <else-if>"
  | commentContent => "<html-comment> may only contain text"
  | notAllowedInside tag parent => "<" ++ tag ++ "> is not allowed inside <" ++ parent ++ ">"
  | reported _ text => text
  | hasParent node parent =>
      "Node " ++ node.display ++ " is already a child of " ++ parent.display ++ "; detach it first"
  | listedTwice node => "Node " ++ node.display ++ " is listed twice in the same child list"
  | ownDescendant node => "Node " ++ node.display ++ " cannot become its own descendant"
  | notChild node parent => "Node " ++ node.display ++ " is not a child of " ++ parent.display
  | noParent node => node.display ++ " has no parent to replace it in"
  | replacedOutside transform node =>
      "Transform '" ++ transform ++ "' replaced " ++ node.display ++
        " with a node that is not in the tree"
  | stillAttached transform node =>
      "Transform '" ++ transform ++ "' reported removal but " ++ node.display ++ " is still attached"
  | severalParents node => "Node " ++ node.display ++ " is listed under more than one parent"
  | unlinked node parent =>
      "Node " ++ node.display ++ " is listed under " ++ parent.display ++ " but not linked to it"
  | unsettled label passes =>
      "Transforms for " ++ label ++ " did not settle after " ++ toString passes ++ " passes"
  | nestedDocument => "A document node can only be the root"
  | branchAfterLast => "A branch cannot follow the else branch"
  | branchOutside => "A branch must be a child of a conditional"
  | inConditional kind => "A conditional cannot contain a " ++ kind ++ " node"

end Cause

/-- A cause, where it arose and, if that can be said in a few words, with what. -/
structure Fault where
  cause : Cause
  file : String
  position : Position
  context : Option String := none
  deriving DecidableEq, Repr

namespace Fault

/-- The class of the fault. -/
def faultClass (fault : Fault) : FaultClass :=
  fault.cause.faultClass

/-- The fault as a diagnostic. -/
def diagnostic (fault : Fault) : Diagnostic :=
  { code := fault.cause.diagnosticCode
    severity := .error
    message := fault.cause.message
    file := fault.file
    position := fault.position
    context := fault.context }

end Fault

end HtmlTemplate
