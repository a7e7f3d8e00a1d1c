/-!
# Syntax trees of JavaScript expressions

A tree keeps what names mean: which identifiers refer, which bind, and which functions, blocks and
classes they stand in. All other constructs only group their parts.
-/

namespace HtmlTemplate
namespace Script

/-- What a node of a syntax tree is. -/
inductive Form
  /-- A literal, `this` or another word without names in it. -/
  | atom
  /-- An identifier that refers to a binding. -/
  | reference (name : String)
  /-- An identifier that is bound here. -/
  | binding (name : String)
  /-- An expression in parentheses. -/
  | group
  /-- Expressions between commas. -/
  | sequence
  /-- An array literal. -/
  | array (trailingComma : Bool)
  /-- A missing element of an array. -/
  | hole
  /-- An element or argument after three dots. -/
  | spread
  /-- An object literal. -/
  | object (trailingComma : Bool)
  /-- A property of an object: the parts are the key, when it is computed, and the value. -/
  | property
  /-- A property written as a name alone. -/
  | shorthand (name : String)
  /-- A name with a default, which only a pattern may hold: the parts are the reference and the default. -/
  | shorthandDefault
  /-- Access to a member; the parts are the object and the key, when it is computed. -/
  | member
  /-- A chain of accesses with a question mark in it. -/
  | chain
  /-- A call, a construction, an import call or a tagged template: the callee and the arguments. -/
  | call
  /-- A call of `import`. -/
  | importCall
  /-- A template literal with its substitutions. -/
  | template
  /-- A unary operator with its operand. -/
  | unary
  /-- An `await` with its operand. -/
  | await
  /-- An increment or decrement of a target. -/
  | update
  /-- A binary operator with its operands. -/
  | binary
  /-- The operator of a default for a missing value, with its operands. -/
  | coalesce
  /-- A conjunction or disjunction. -/
  | logical
  /-- A test whether an object has a private member. -/
  | privateIn
  /-- A choice between two values. -/
  | choice
  /-- A `yield` with its operand. -/
  | yield
  /-- An assignment: the target and the value. -/
  | assignment (plain : Bool)
  /-- A list or array of targets or bindings. -/
  | arrayPattern
  /-- An object of targets or bindings. -/
  | objectPattern
  /-- A target or binding with a default. -/
  | patternDefault
  /-- A target or binding for what is left. -/
  | rest
  /-- The parameters of a function. -/
  | parameters
  /-- A function; the parts are its name, if it has one, its parameters and its body. -/
  | function
  /-- An arrow function: its parameters and its body. -/
  | arrow
  /-- A class; the parts are its name, if it has one, its parent and its elements. -/
  | classBody
  /-- A member of a class. -/
  | element
  /-- The statements of a block or of a function body. -/
  | block
  /-- A declaration of variables, scoped to the block or, for `var`, to the function. -/
  | variables (blockScoped : Bool)
  /-- A loop. -/
  | loop
  /-- The handler of a `try`: its binding, if it has one, and its body. -/
  | handler
  /-- Any other statement. -/
  | statement
  deriving DecidableEq, Repr, Inhabited

/-- A node: what it is, where it starts and ends in the text, and its parts in the order of the text. -/
inductive Syntax
  | node (form : Form) (start stop : Nat) (parts : List Syntax)
  deriving Repr, Inhabited

namespace Syntax

/-- What the node is. -/
def form : Syntax → Form
  | node form _ _ _ => form

/-- The offset of its first character. -/
def start : Syntax → Nat
  | node _ start _ _ => start

/-- The offset behind its last character. -/
def stop : Syntax → Nat
  | node _ _ stop _ => stop

/-- Its parts. -/
def parts : Syntax → List Syntax
  | node _ _ _ parts => parts

/-- Is the node a lone identifier that refers to something? -/
def isReference (tree : Syntax) : Bool :=
  match tree.form with
  | .reference _ => true
  | _ => false

mutual

/-- Does some node of the tree satisfy the test on forms? -/
def hasForm (test : Form → Bool) : Syntax → Bool
  | node form _ _ parts => test form || anyHasForm test parts

/-- Does some node of the trees satisfy the test on forms? -/
def anyHasForm (test : Form → Bool) : List Syntax → Bool
  | [] => false
  | tree :: trees => hasForm test tree || anyHasForm test trees

end

/-! ## Assignment targets -/

/-- Reads an expression as the target of an assignment that takes no pattern. -/
def simpleTarget? : Syntax → Option Syntax
  | node (.reference name) start stop parts => some (node (.reference name) start stop parts)
  | node .member start stop parts => some (node .member start stop parts)
  | node .group start stop [inner] =>
      match inner.form with
      | .array _ => none
      | .object _ => none
      | _ => (simpleTarget? inner).map fun inner => node .group start stop [inner]
  | _ => none

mutual

/-- Reads an expression as the target of a plain assignment: literals of arrays and objects are patterns. -/
def target? : Syntax → Option Syntax
  | node (.array trailingComma) start stop parts =>
      (elementTargets? trailingComma parts).map (node .arrayPattern start stop)
  | node (.object trailingComma) start stop parts =>
      (propertyTargets? trailingComma parts).map (node .objectPattern start stop)
  | tree => simpleTarget? tree

/-- Reads an expression as a target that may carry a default. -/
def targetWithDefault? : Syntax → Option Syntax
  | node (.assignment plain) start stop parts =>
      if plain then some (node .patternDefault start stop parts) else none
  | node (.array trailingComma) start stop parts =>
      (elementTargets? trailingComma parts).map (node .arrayPattern start stop)
  | node (.object trailingComma) start stop parts =>
      (propertyTargets? trailingComma parts).map (node .objectPattern start stop)
  | tree => simpleTarget? tree

/-- Reads the elements of an array as targets; three dots are allowed on the last one only. -/
def elementTargets? (trailingComma : Bool) : List Syntax → Option (List Syntax)
  | [] => some []
  | [node .spread start stop [argument]] => do
      if trailingComma then none
      let target ← target? argument
      pure [node .rest start stop [target]]
  | element :: elements => do
      let element ← match element.form with
        | .hole => some element
        | _ => targetWithDefault? element
      let elements ← elementTargets? trailingComma elements
      pure (element :: elements)

/-- Reads the properties of an object as targets; three dots are allowed on the last one only. -/
def propertyTargets? (trailingComma : Bool) : List Syntax → Option (List Syntax)
  | [] => some []
  | [node .spread start stop [argument]] => do
      if trailingComma then none
      let target ← target? argument
      pure [node .rest start stop [target]]
  | node (.shorthand name) start stop _ :: properties => do
      let properties ← propertyTargets? trailingComma properties
      pure (node .property start stop [node (.reference name) start stop []] :: properties)
  | node .shorthandDefault start stop parts :: properties => do
      let properties ← propertyTargets? trailingComma properties
      pure (node .property start stop [node .patternDefault start stop parts] :: properties)
  | node .property start stop [value] :: properties => do
      let value ← targetWithDefault? value
      let properties ← propertyTargets? trailingComma properties
      pure (node .property start stop [value] :: properties)
  | node .property start stop [key, value] :: properties => do
      let value ← targetWithDefault? value
      let properties ← propertyTargets? trailingComma properties
      pure (node .property start stop [key, value] :: properties)
  | _ => none

end

end Syntax

end Script
end HtmlTemplate
