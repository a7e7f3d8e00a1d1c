import HtmlTemplate.CodeModule
import HtmlTemplate.Compilation
import HtmlTemplate.Compiler
import HtmlTemplate.Control
import HtmlTemplate.Diagnostic
import HtmlTemplate.EditScript
import HtmlTemplate.EditScript.Transform
import HtmlTemplate.Fault
import HtmlTemplate.Json
import HtmlTemplate.LoopHeader
import HtmlTemplate.Lowering
import HtmlTemplate.Markup.Construction
import HtmlTemplate.Markup.Document
import HtmlTemplate.Markup.Draft
import HtmlTemplate.Markup.Element
import HtmlTemplate.Markup.Reference
import HtmlTemplate.Markup.ReferenceTable
import HtmlTemplate.Markup.Rules.After
import HtmlTemplate.Markup.Rules.Body
import HtmlTemplate.Markup.Rules.Foreign
import HtmlTemplate.Markup.Rules.Formatting
import HtmlTemplate.Markup.Rules.Head
import HtmlTemplate.Markup.Rules.Table
import HtmlTemplate.Markup.Token
import HtmlTemplate.Name
import HtmlTemplate.Node
import HtmlTemplate.Options
import HtmlTemplate.Path
import HtmlTemplate.Placeholder
import HtmlTemplate.Position
import HtmlTemplate.Scope
import HtmlTemplate.Script.Cursor
import HtmlTemplate.Script.Expression
import HtmlTemplate.Script.Grammar.Binding
import HtmlTemplate.Script.Grammar.Function
import HtmlTemplate.Script.Grammar.Operator
import HtmlTemplate.Script.Grammar.Primary
import HtmlTemplate.Script.Grammar.Statement
import HtmlTemplate.Script.Lexer
import HtmlTemplate.Script.NameChar
import HtmlTemplate.Script.Rename
import HtmlTemplate.Script.Syntax
import HtmlTemplate.SortedMap
import HtmlTemplate.Storage.Access
import HtmlTemplate.Storage.FileTree
import HtmlTemplate.Storage.Stamp
import HtmlTemplate.Taglib
import HtmlTemplate.Template
import HtmlTemplate.Template.SelfClosing
import HtmlTemplate.Template.StandIn
import HtmlTemplate.Text.Character
import HtmlTemplate.Text.Escape
import HtmlTemplate.Text.Quoted
import HtmlTemplate.Text.Space
import HtmlTemplate.Text.Visible
import HtmlTemplate.Text.Word
import HtmlTemplate.Transform
import HtmlTemplate.Tree
import HtmlTemplate.Tree.Check
import HtmlTemplate.Tree.Edit
import HtmlTemplate.Tree.Outline
import HtmlTemplate.Tree.Traversal
import HtmlTemplate.Value
import HtmlTemplate.Walk
import HtmlTemplate.Proofs.Tree.Access
import HtmlTemplate.Proofs.Tree.Ancestry
import HtmlTemplate.Proofs.Tree.Success
import HtmlTemplate.Proofs.Tree.Relinking
import HtmlTemplate.Proofs.Tree.Copy
import HtmlTemplate.Proofs.Tree.Reach
import HtmlTemplate.Proofs.EditScript
import HtmlTemplate.Proofs.Transform
import HtmlTemplate.Proofs.Walk.Run
import HtmlTemplate.Proofs.Tree.Marks
import HtmlTemplate.Proofs.Walk.Phase
import HtmlTemplate.Proofs.Walk.Load
import HtmlTemplate.Proofs.Walk.Termination
import HtmlTemplate.Proofs.Walk.Calm
import HtmlTemplate.Proofs.Walk.Overrun
import HtmlTemplate.Proofs.Walk.Respawn
import HtmlTemplate.Proofs.Walk.Watch
import HtmlTemplate.Proofs.Walk.Walked
import HtmlTemplate.Proofs.Walk.Applied
import HtmlTemplate.Proofs.Walk.Settling
import HtmlTemplate.Proofs.Desugaring.Expansion
import HtmlTemplate.Proofs.Tree.Rewiring
import HtmlTemplate.Proofs.Desugaring.Bench
import HtmlTemplate.Proofs.Desugaring.Constructing
import HtmlTemplate.Proofs.Desugaring.Lowering
import HtmlTemplate.Proofs.Placement.Kinds
import HtmlTemplate.Proofs.Placement.Safety
import HtmlTemplate.Proofs.Placement.Conditional
import HtmlTemplate.Proofs.Placement.Reading
import HtmlTemplate.Proofs.Placement.Tameness
import HtmlTemplate.Proofs.Placement.Demand
import HtmlTemplate.Proofs.Desugaring.Conditional
import HtmlTemplate.Proofs.Placement.Walk
import HtmlTemplate.Proofs.Walk.Recorded
import HtmlTemplate.Proofs.Walk.Failing
import HtmlTemplate.Proofs.Walk.Order
import HtmlTemplate.Proofs.Walk.Tethered
import HtmlTemplate.Proofs.Lowering.Coalescing
import HtmlTemplate.Proofs.Lowering.Course
import HtmlTemplate.Proofs.Naming.Frame
import HtmlTemplate.Proofs.Naming.Distinct
import HtmlTemplate.Proofs.Script.Reference
import HtmlTemplate.Proofs.Naming.Scoping
import HtmlTemplate.Proofs.Naming.Closing
import HtmlTemplate.Proofs.Storage.Stamp
import HtmlTemplate.Proofs.Storage.Transparency
import HtmlTemplate.Proofs.Lowering.Image
import HtmlTemplate.Proofs.Placement.StandIn
import HtmlTemplate.Proofs.Markup.Content
import HtmlTemplate.Proofs.Placement.Making
import HtmlTemplate.Proofs.Placement.Origin
import HtmlTemplate.Proofs.Placement.RoundTrip
import HtmlTemplate.Proofs.Desugaring.Directive
import HtmlTemplate.Proofs.Desugaring.Entering
import HtmlTemplate.Proofs.Desugaring.Walk
import HtmlTemplate.Proofs.Script.Scanning
import HtmlTemplate.Proofs.Script.Moved
import HtmlTemplate.Proofs.Script.Agreement
import HtmlTemplate.Proofs.Script.Grammar.Function
import HtmlTemplate.Proofs.Script.Grammar.Primary
import HtmlTemplate.Proofs.Script.Grammar.Operator
import HtmlTemplate.Proofs.Script.Grammar.Statement
import HtmlTemplate.Proofs.Script.Enclosure
import HtmlTemplate.Proofs.Script.Operand
import HtmlTemplate.Proofs.Script.Heedless
import HtmlTemplate.Proofs.Script.Call
import HtmlTemplate.Proofs.Script.Embedding
import HtmlTemplate.Proofs.Text.Telling
import HtmlTemplate.Proofs.Taglib.Fingerprint
import HtmlTemplate.Proofs.Markup.Naming
import HtmlTemplate.Proofs.Markup.Rules
import HtmlTemplate.Proofs.Markup.Names
import HtmlTemplate.Proofs.Placement.Absence
import HtmlTemplate.Proofs.Placement.Wrapping
import HtmlTemplate.Proofs.Text.Space
import HtmlTemplate.Proofs.Markup.Comment
import HtmlTemplate.Proofs.Script.Remark
import HtmlTemplate.Proofs.Storage.FileTree
import HtmlTemplate.Proofs.Storage.InPlace
import HtmlTemplate.Proofs.Storage.Interleaving
import HtmlTemplate.Proofs.Lowering.Rendering
import HtmlTemplate.Proofs.Lowering.Whitespace
import HtmlTemplate.Proofs.Naming.Hygiene
import HtmlTemplate.Proofs.Desugaring.Retaining
import HtmlTemplate.Proofs.Desugaring.Meaning
import HtmlTemplate.Proofs.Desugaring.Fitting
import HtmlTemplate.Proofs.Desugaring.Turning
import HtmlTemplate.Proofs.Desugaring.Excess
import HtmlTemplate.Proofs.Desugaring.Settling
import HtmlTemplate.Proofs.Desugaring.Roots
import HtmlTemplate.Proofs.Desugaring.Loose
import HtmlTemplate.Proofs.Desugaring.Idempotence
import HtmlTemplate.Proofs.Lowering.Likeness
import HtmlTemplate.Proofs.Desugaring.Spelling
import HtmlTemplate.Proofs.Desugaring.Agreement
import HtmlTemplate.Proofs.Desugaring.Interchange
import HtmlTemplate.Proofs.Desugaring.Keeping
import HtmlTemplate.Proofs.Desugaring.Gap
import HtmlTemplate.Proofs.Desugaring.Approach
import HtmlTemplate.Proofs.Desugaring.Chain
import HtmlTemplate.Proofs.Lowering.Misplacement
import HtmlTemplate.Proofs.Concatenation
import HtmlTemplate.Proofs.Markup.Answers
import HtmlTemplate.Proofs.Markup.Extent
import HtmlTemplate.Proofs.Markup.Pair
import HtmlTemplate.Proofs.Template.SelfClosing
import HtmlTemplate.Proofs.Template.Stretches
import HtmlTemplate.Proofs.Template.Closing
import HtmlTemplate.Proofs.Deprecation.Ledger
import HtmlTemplate.Proofs.Deprecation.Transforms
import HtmlTemplate.Proofs.Deprecation.Warning
import HtmlTemplate.Proofs.Tree.Effect
import HtmlTemplate.Proofs.EditScript.Refusal
import HtmlTemplate.Proofs.Tree.Editing
import HtmlTemplate.Proofs.Tree.Duplicate
import HtmlTemplate.Proofs.Tree.Contents
import HtmlTemplate.Proofs.Tree.Way
import HtmlTemplate.Proofs.Taglib.Specificity
import HtmlTemplate.Proofs.Template.Paragraph
import HtmlTemplate.Proofs.Placement.Framing
import HtmlTemplate.Proofs.Placement.Alike
import HtmlTemplate.Proofs.Placement.Marking
import HtmlTemplate.Proofs.Placement.Provenance
import HtmlTemplate.Proofs.Placement.Location
import HtmlTemplate.Proofs.Text.Bytes
import HtmlTemplate.Proofs.Placement.Scanning
import HtmlTemplate.Proofs.Placement.Ranges
import HtmlTemplate.Proofs.Text.Escape
import HtmlTemplate.Proofs.LoopHeader
import HtmlTemplate.Proofs.Naming.Words
import HtmlTemplate.Proofs.Options
import HtmlTemplate.Proofs.Walk.Options
import HtmlTemplate.Proofs.Placement.Lines
import HtmlTemplate.Proofs.Naming.Fresh
