/-!
# Paths

Paths are compared by their components, so doubled slashes, a slash at the end and points that stand for
the same directory make no difference.
-/

namespace HtmlTemplate

/-- A component of a path. -/
inductive Component
  /-- The root, at the start of absolute paths. -/
  | root
  /-- The point at the start of a relative path. -/
  | current
  /-- Two points, for the directory above. -/
  | parent
  | normal (name : String)
  deriving DecidableEq, Repr, Inhabited

namespace Path

/-- The pieces of a text between the slashes. -/
def splitSlashes : List Char → List (List Char)
  | [] => [[]]
  | c :: rest =>
      if c == '/' then [] :: splitSlashes rest
      else
        match splitSlashes rest with
        | [] => [[c]]
        | piece :: pieces => (c :: piece) :: pieces

/-- The component that a piece behind the first one stands for, if any. -/
def innerComponent? (piece : List Char) : Option Component :=
  if piece.isEmpty || piece == ['.'] then none
  else if piece == ['.', '.'] then some .parent
  else some (.normal (String.ofList piece))

/-- The component that the first piece of a path stands for, if any. -/
def firstComponent? (path piece : List Char) : Option Component :=
  if piece.isEmpty then if path.isEmpty then none else some .root
  else if piece == ['.'] then some .current
  else innerComponent? piece

/-- The components of a path. -/
def components (path : String) : List Component :=
  match splitSlashes path.toList with
  | [] => []
  | first :: pieces => (firstComponent? path.toList first).toList ++ pieces.filterMap innerComponent?

/-- Does the path start with the components of the directory? -/
def isBelow (directory path : String) : Bool :=
  (components directory).isPrefixOf (components path)

/-- Does the piece, behind the first one, stand for a component? -/
def isComponent (piece : List Char) : Bool :=
  (innerComponent? piece).isSome

/-- Pieces with slashes between them. -/
def joinSlashes (pieces : List (List Char)) : List Char :=
  ['/'].intercalate pieces

/-- A path without its last component and what separates that from the others, if it has one. -/
def initial? (path : List Char) : Option (List Char) :=
  match (splitSlashes path).reverse.dropWhile fun piece => !isComponent piece with
  | [] => none
  | _ :: before => some (joinSlashes (before.dropWhile fun piece => !isComponent piece).reverse)

/-- The path of the directory that a path lies in, if it is not the root. -/
def parent? (path : String) : Option String :=
  match path.toList with
  | '/' :: rest => (initial? rest).map fun before => String.ofList ('/' :: before)
  | ['.'] => some ""
  | '.' :: '/' :: rest =>
      match initial? rest with
      | some [] => some "."
      | some before => some (String.ofList ('.' :: '/' :: before))
      | none => some ""
  | path => (initial? path).map String.ofList

end Path
end HtmlTemplate
