import HtmlTemplate.Path
import HtmlTemplate.Storage.Access

/-!
# Trees of files

A storage of files in directories, with a working directory that relative paths start from. A path is
followed name by name: every name but the last has to be that of a directory.
-/

namespace HtmlTemplate

/-- What a name in a directory stands for. -/
inductive Entry
  | directory
  /-- A file with a text in it. -/
  | text (content : String)
  /-- A file with bytes in it that are no text. -/
  | binary
  deriving DecidableEq, Repr, Inhabited

namespace Entry

/-- The file with some bytes in it. -/
def ofBytes (bytes : List UInt8) : Entry :=
  match String.fromUTF8? ⟨bytes.toArray⟩ with
  | some content => .text content
  | none => .binary

end Entry

/-- Files and directories, each with the names that lead to it from the root. -/
structure FileTree where
  entries : List (List String × Entry)
  /-- The names that lead to the working directory. -/
  working : List String
  deriving DecidableEq, Repr

namespace FileTree

/-- The tree in which nothing is but an empty working directory. -/
def fresh : FileTree :=
  { entries := [(["work"], .directory)], working := ["work"] }

instance : Inhabited FileTree :=
  ⟨fresh⟩

/-- What is at a location. -/
def find? (tree : FileTree) (location : List String) : Option Entry :=
  if location.isEmpty then some .directory else tree.entries.lookup location

/-- The tree without what is at a location. -/
def erase (tree : FileTree) (location : List String) : FileTree :=
  { tree with entries := tree.entries.filter fun entry => entry.1 != location }

/-- The tree with something at a location. -/
def insert (tree : FileTree) (location : List String) (entry : Entry) : FileTree :=
  { tree with entries := (location, entry) :: (tree.erase location).entries }

/-! ## Following paths -/

/-- What a path leads to. -/
structure Target where
  location : List String
  entry : Option Entry
  /-- Does the path ask for a directory? -/
  asDirectory : Bool
  deriving DecidableEq, Repr

/-- Goes from a directory to where a name leads, and tells what is there. -/
def descend (tree : FileTree) (location : List String) (name : String) :
    Except AccessCause (List String × Option Entry) :=
  if name == "." then .ok (location, some .directory)
  else if name == ".." then .ok (location.dropLast, some .directory)
  else if 255 < name.utf8ByteSize then .error .nameTooLong
  else .ok (location ++ [name], tree.find? (location ++ [name]))

/-- Goes from a directory to where names lead, and tells what is there. -/
def follow (tree : FileTree) (location : List String) :
    List String → Except AccessCause (List String × Option Entry)
  | [] => .ok (location, some .directory)
  | [name] => tree.descend location name
  | name :: names => do
      let (location, entry) ← tree.descend location name
      match entry with
      | none => throw .notFound
      | some .directory => tree.follow location names
      | some _ => throw .notDirectory

/-- What a path leads to. -/
def target (tree : FileTree) (path : String) : Except AccessCause Target := do
  if path.isEmpty then throw .notFound
  if path.toList.contains '\x00' then throw .invalidPath
  if 4095 < path.utf8ByteSize then throw .nameTooLong
  let pieces := (Path.splitSlashes path.toList).filter fun piece => !piece.isEmpty
  let start := if path.toList.head? == some '/' then [] else tree.working
  let (location, entry) ← tree.follow start (pieces.map String.ofList)
  return { location, entry, asDirectory := path.toList.getLast? == some '/' }

/-- Does the path lead to a directory? -/
def isDirectory (tree : FileTree) (path : String) : Bool :=
  match tree.target path with
  | .ok found => found.entry == some .directory
  | .error _ => false

/-! ## Files -/

/-- The text in a file. -/
def readText (tree : FileTree) (path : String) : Except AccessCause String := do
  let found ← tree.target path
  match found.entry with
  | none => throw .notFound
  | some .directory => throw .isDirectory
  | some file =>
      if found.asDirectory then throw .notDirectory
      else
        match file with
        | .text content => return content
        | _ => throw .notText

/-- The tree with a file put where a path leads. -/
def putFile (tree : FileTree) (path : String) (file : Entry) : Except AccessCause FileTree := do
  let found ← tree.target path
  if found.asDirectory || found.entry == some .directory then throw .isDirectory
  else return tree.insert found.location file

/-- The tree without the file that a path leads to. -/
def removeFile (tree : FileTree) (path : String) : Except AccessCause FileTree := do
  let found ← tree.target path
  match found.entry with
  | none => throw .notFound
  | some .directory => throw .isDirectory
  | some _ => if found.asDirectory then throw .notDirectory else return tree.erase found.location

/-! ## Directories -/

/-- The tree with a directory where a path leads, in a directory that is there. -/
def makeDirectory (tree : FileTree) (path : String) : Except AccessCause FileTree := do
  let found ← tree.target path
  if found.entry.isSome then throw .alreadyExists
  else return tree.insert found.location .directory

/-- Accepts that a directory cannot be made if it is there. -/
def orPresent (tree : FileTree) (path : String) (cause : AccessCause) : Except AccessCause Unit × FileTree :=
  (if tree.isDirectory path then .ok () else .error cause, tree)

/-- Makes a directory and those around it that are missing. The budget bounds how many. -/
def makeDirectoriesWithin : Nat → String → FileTree → Except AccessCause Unit × FileTree
  | 0, path, tree => tree.orPresent path .notFound
  | budget + 1, path, tree =>
      if path.isEmpty then (.ok (), tree)
      else
        match tree.makeDirectory path, Path.parent? path with
        | .ok tree, _ => (.ok (), tree)
        | .error .notFound, some parent =>
            match makeDirectoriesWithin budget parent tree with
            | (.ok (), tree) =>
                match tree.makeDirectory path with
                | .ok tree => (.ok (), tree)
                | .error cause => tree.orPresent path cause
            | failed => failed
        | .error cause, _ => tree.orPresent path cause

/-- Makes a directory and those around it that are missing. -/
def makeDirectories (path : String) (tree : FileTree) : Except AccessCause Unit × FileTree :=
  makeDirectoriesWithin (path.length + 1) path tree

instance : Storage FileTree where
  read path tree := tree.readText path
  write path content tree :=
    match tree.putFile path (.text content) with
    | .ok tree => (.ok (), tree)
    | .error cause => (.error cause, tree)
  makeDirectories path tree := makeDirectories path tree

end FileTree

end HtmlTemplate
