import HtmlTemplate.Script.Rename
import HtmlTemplate.SortedMap

/-!
# Names in scope

Each frame maps the names of a template to the identifiers written for them. A name that collides with
one visible in an enclosing frame, or with one that the module itself binds, gets a number, and code in
the frame is renamed to match. Declarations of the module are kept beside the frames and never share a
name with anything declared in them.
-/

namespace HtmlTemplate

/-- The identifiers that the generated module binds itself. -/
def reservedNames : List String :=
  ["module", "require", "create", "render", "__helpers", "str", "escapeXml", "attr", "loadTag", "data",
   "out"]

/-- A declaration at the top of the module. -/
structure Declaration where
  /-- The identifier. -/
  name : String
  /-- The code of its value. -/
  init : String
  deriving DecidableEq, Repr, Inhabited

/-- The identifiers written for the names of one frame. -/
abbrev Frame := SortedMap String

/-- The frames in force, innermost first, the declarations of the module and all names written so far. -/
structure Scope where
  /-- The innermost frame. -/
  inner : Frame := SortedMap.empty
  /-- The frames around it, the nearest first. -/
  outer : List Frame := []
  /-- The declarations of the module, in the order they were asked for. -/
  hoisted : List Declaration := []
  /-- Every identifier written for a name, also by frames that are closed. -/
  emitted : List String := []
  deriving DecidableEq

namespace Scope

instance : Inhabited Scope :=
  ⟨{}⟩

/-- The frames in force, innermost first. -/
def frames (scope : Scope) : List Frame :=
  scope.inner :: scope.outer

/-- The number of frames in force. -/
def depth (scope : Scope) : Nat :=
  scope.frames.length

/-- Opens a frame. -/
def push (scope : Scope) : Scope :=
  { scope with inner := SortedMap.empty, outer := scope.inner :: scope.outer }

/-- Closes the innermost frame, except the last one. -/
def pop (scope : Scope) : Scope :=
  match scope.outer with
  | [] => scope
  | frame :: outer => { scope with inner := frame, outer }

/-- The names that a new identifier must not have. -/
def takenNames (scope : Scope) : List String :=
  reservedNames ++ scope.hoisted.map Declaration.name ++
    scope.frames.flatMap fun frame => frame.keys ++ frame.entries.map Prod.snd

/-- The name with a number behind it. -/
def numbered (name : String) (n : Nat) : String :=
  name ++ "_" ++ toString n

/-- The first number from `n` on with which the name is not taken, among as many as the budget says. -/
def firstFree (taken : List String) (name : String) : Nat → Nat → String
  | 0, n => numbered name n
  | budget + 1, n =>
      if taken.contains (numbered name n) then firstFree taken name budget (n + 1) else numbered name n

/--
The name itself, or with the least number that makes it a new one. There are fewer names taken than
numbers tried.
-/
def unique (taken : List String) (name : String) : String :=
  if taken.contains name then firstFree taken name taken.length 1 else name

/-- Declares a name in the innermost frame, and gives the identifier to write for it. -/
def declare (scope : Scope) (name : String) : String × Scope :=
  let identifier := unique scope.takenNames name
  (identifier,
    { scope with
      inner := scope.inner.insert name identifier
      emitted := identifier :: scope.emitted })

/-- Declares a value at the top of the module. Declarations of one value share one identifier. -/
def hoist (scope : Scope) (hint init : String) : String × Scope :=
  match scope.hoisted.find? fun declaration => declaration.init == init with
  | some declaration => (declaration.name, scope)
  | none =>
      let name := unique (scope.takenNames ++ scope.emitted) hint
      (name, { scope with hoisted := scope.hoisted ++ [{ name, init }] })

/-- Renames of outer frames with those of an inner frame laid over them. -/
def overlay (renames : SortedMap String) (frame : Frame) : SortedMap String :=
  frame.entries.foldl
    (fun renames (name, identifier) =>
      if name == identifier then renames.erase name else renames.insert name identifier)
    renames

/-- The names that are written otherwise than in the template. -/
def renames (scope : Scope) : SortedMap String :=
  scope.frames.foldr (fun frame renames => overlay renames frame) SortedMap.empty

/-- Code with the identifiers that are written for its names. -/
def resolve (scope : Scope) (code : String) : String :=
  Script.rename scope.renames.entries code

end Scope

end HtmlTemplate
