import HtmlTemplate.Position

/-!
# Diagnostics

What is reported to the author of a template: a code, the message, the place, and hints that depend on
the code.
-/

namespace HtmlTemplate

/-- How much a diagnostic matters. -/
inductive Severity
  | error
  | warning
  deriving DecidableEq, Repr, Inhabited

/-- A message about a place in a template. -/
structure Diagnostic where
  code : String
  severity : Severity
  message : String
  file : String
  position : Position
  /-- What the message is about, if that can be said in a few words. -/
  context : Option String := none
  deriving DecidableEq, Repr, Inhabited

namespace Diagnostic

/-- The code of malformed markup. -/
def parseCode : String := "TPL-ERR-PARSE"

/-- The code of tags that no taglib knows. -/
def unknownTagCode : String := "TPL-ERR-UNKNOWN-TAG"

/-- The code of nodes that are no valid nodes of their kind. -/
def invalidKindCode : String := "TPL-ERR-INVALID-NODE-KIND"

/-- The code of invalid attributes. -/
def invalidAttributeCode : String := "TPL-ERR-INVALID-ATTRIBUTE"

/-- The code of tags in the wrong place. -/
def invalidNestingCode : String := "TPL-ERR-INVALID-NESTING"

/-- The code of nodes that are not where an edit needs them. -/
def detachedNodeCode : String := "TPL-ERR-DETACHED-NODE"

/-- The code of transforms that never settle. -/
def transformLoopCode : String := "TPL-ERR-TRANSFORM-LOOP"

/-- The code of nodes that no code can be generated for. -/
def unsupportedNodeCode : String := "TPL-ERR-UNSUPPORTED-NODE"

/-- The code of files that cannot be read or written. -/
def storageCode : String := "TPL-ERR-IO"

/-- The code of warnings about tags that are on their way out. -/
def deprecatedTagCode : String := "TPL-WARN-DEPRECATED-TAG"

/-- The code of warnings about tags that pass unknown. -/
def unknownTagWarningCode : String := "TPL-WARN-UNKNOWN-TAG"

/-- What may help against diagnostics with a code. -/
def hintsFor (code : String) : List String :=
  if code == parseCode then
    ["Check for unclosed `$\x7b` placeholders and malformed markup."]
  else if code == unknownTagCode then
    ["Register a taglib entry for this tag or enable `allowUnknownTags` to pass it through."]
  else if code == invalidAttributeCode then
    ["Attribute expressions must be valid JavaScript."]
  else if code == invalidNestingCode then
    ["Branch tags must follow or be nested inside their parent tag."]
  else if code == detachedNodeCode || code == unsupportedNodeCode then
    ["This indicates a bug in a taglib transform, not in the template."]
  else if code == transformLoopCode then
    ["A transform keeps rewriting this tag. Make transforms return `Unchanged` once applied."]
  else if code == deprecatedTagCode then
    ["Deprecated tags will be removed in a future release."]
  else []

/-- What may help. -/
def hints (diagnostic : Diagnostic) : List String :=
  hintsFor diagnostic.code

/-- The diagnostic on one line. -/
def display (diagnostic : Diagnostic) : String :=
  "[" ++ diagnostic.code ++ "] " ++ diagnostic.message ++ " (" ++ diagnostic.file ++ ":" ++
    toString diagnostic.position.line ++ ":" ++ toString diagnostic.position.column ++ ")"

/-- A warning. -/
def warning (code message file : String) (position : Position) (context : Option String) :
    Diagnostic :=
  { code, severity := .warning, message, file, position, context }

end Diagnostic

end HtmlTemplate
