import HtmlTemplate.CodeModule
import HtmlTemplate.Template
import HtmlTemplate.Tree.Traversal
import HtmlTemplate.Walk

/-!
# Compilations

A template is read as a tree, a walk applies the transforms of the taglibs to it, and the module is
generated from what the walk leaves. The first fault ends a compilation; warnings do not.
-/

namespace HtmlTemplate

/-- Why there is no module, and the warnings that were recorded before. -/
structure Failure where
  halt : Halt
  warnings : List Diagnostic := []
  deriving Repr

/-- What a compilation comes to, with the notes that transforms left. -/
structure Compilation where
  result : Except Failure CodeModule
  notes : List String := []

namespace Compilation

/-- The module for a tree that was walked over, if its nodes are linked as they should be. -/
def finish (choices : Preservation) (context : Context) (root : NodeId) : Except Fault CodeModule := do
  context.tree.checkOwnership root
  let result ← CodeModule.generate context.tree choices root
  return { result with warnings := context.warnings }

/-- Compiles the tree of a template. -/
def ofTree (registry : Registry) (options : Options) (fuel : Nat) (root : NodeId) (tree : Tree) :
    Compilation :=
  let (walked, context) := (Context.start tree options registry).walk registry fuel root
  let result : Except Failure CodeModule :=
    match walked with
    | .error halt => .error { halt, warnings := context.warnings }
    | .ok _ =>
        (finish options.preserveWhitespace context root).mapError fun fault =>
          { halt := .fault fault, warnings := context.warnings }
  { result, notes := context.notes }

/-- Compiles a template, given the path of its file and its source. -/
def run (registry : Registry) (options : Options) (fuel : Nat) (file source : String) : Compilation :=
  match Template.read file source with
  | .error fault => { result := .error { halt := .fault fault } }
  | .ok (root, tree) => ofTree registry options fuel root tree

end Compilation

end HtmlTemplate
