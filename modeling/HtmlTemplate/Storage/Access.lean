/-!
# Access to files

What a compilation needs of the place where templates and their output are kept.
-/

namespace HtmlTemplate

/-- Why a file or a directory cannot be used. -/
inductive AccessCause
  | notFound
  | isDirectory
  | notDirectory
  | alreadyExists
  /-- The content of a file is no text. -/
  | notText
  /-- No file can have the path. -/
  | invalidPath
  /-- A name or the path is longer than is allowed. -/
  | nameTooLong
  deriving DecidableEq, Repr, Inhabited

/-- A file or a directory that cannot be used, by the path that was asked for. -/
structure AccessFault where
  cause : AccessCause
  path : String
  deriving DecidableEq, Repr, Inhabited

namespace AccessFault

/-- The diagnostic code of these faults. -/
def code : String :=
  "TPL-ERR-IO"

end AccessFault

/-- A place where files are kept, in a state. What was done before a fault stays done. -/
class Storage (σ : Type) where
  /-- The text in a file. -/
  read : String → σ → Except AccessCause String
  /-- Puts a text into a file, in the place of what is in it. -/
  write : String → String → σ → Except AccessCause Unit × σ
  /-- Makes a directory and those around it, as far as they are missing. -/
  makeDirectories : String → σ → Except AccessCause Unit × σ

end HtmlTemplate
