import HtmlTemplate.Path
import HtmlTemplate.Text.Quoted
import HtmlTemplate.Transform

/-!
# Taglibs

Taglibs, the registry that stacks them, and the fingerprint of what is registered.
-/

namespace HtmlTemplate

/-!
## Taglibs

A taglib gives tags their meaning: the rules of each tag and the transforms that change it. A registry
stacks taglibs, each for all files or for the files below a directory; for a file the most specific one
counts.
-/

/-- A tag of a taglib: its rules and the transforms that were declared for it. -/
structure TagEntry where
  rules : TagRules
  declared : List Transform := []

instance : Inhabited TagEntry :=
  ⟨{ rules := default }⟩

namespace TagEntry

/-- The transforms of the tag: the declared ones, then the binding of its renderer. -/
def transforms (entry : TagEntry) : List Transform :=
  entry.declared ++ (entry.rules.renderer.map Transform.bindRenderer).toList

end TagEntry

/-- A set of tags, and transforms for all tags. -/
structure Taglib where
  id : String
  entries : SortedMap TagEntry := SortedMap.empty
  globals : List Transform := []

instance : Inhabited Taglib :=
  ⟨{ id := "" }⟩

/-- A taglib with the directory it is meant for; without one it is meant for all files. -/
structure Registration where
  scope : Option String := none
  taglib : Taglib

instance : Inhabited Registration :=
  ⟨{ taglib := default }⟩

namespace Registration

/-- How specific the registration is: the number of components of its directory. -/
def depth (registration : Registration) : Nat :=
  match registration.scope with
  | none => 0
  | some directory => (Path.components directory).length

/-- Is the taglib meant for the file? -/
def appliesTo (registration : Registration) (file : String) : Bool :=
  match registration.scope with
  | none => true
  | some directory => Path.isBelow directory file

end Registration

/-- The registered taglibs, in the order of registration. -/
structure Registry where
  registrations : List Registration := []

instance : Inhabited Registry :=
  ⟨{}⟩

namespace Registry

/-- Registers a taglib, for all files or for the files below a directory. -/
def register (registry : Registry) (scope : Option String) (taglib : Taglib) : Registry :=
  { registrations := registry.registrations ++ [{ scope, taglib }] }

/-- Is nothing registered? -/
def isEmpty (registry : Registry) : Bool :=
  registry.registrations.isEmpty

/--
The registrations for a file, the most specific first: deeper directories before shallower ones, and
later registrations before earlier ones.
-/
def applicable (registry : Registry) (file : String) : List Registration :=
  (registry.registrations.filter fun registration => registration.appliesTo file).reverse.mergeSort
    fun left right => right.depth ≤ left.depth

/-- The entry of a tag in a file, from the most specific taglib that has the tag. -/
def lookup? (registry : Registry) (tag file : String) : Option TagEntry :=
  (registry.applicable file).findSome? fun registration => registration.taglib.entries.find? tag

/-- The transforms for all tags in a file, the ones of the least specific taglib first. -/
def globals (registry : Registry) (file : String) : List Transform :=
  (registry.applicable file).reverse.flatMap fun registration => registration.taglib.globals

end Registry

/-- The state that a compilation starts from. -/
def Context.start (tree : Tree) (options : Options) (registry : Registry) : Context :=
  { tree, options, rules := fun tag => (registry.lookup? tag tree.file).map TagEntry.rules }

/-!
## Fingerprints of taglibs

A stable description of all registrations: directories, taglibs, the rules of their tags and the names
of their transforms. What a transform does cannot be seen, so a taglib that changes has to change a name.
-/

namespace Fingerprint

/-- A description between separators. -/
def joined (parts : List String) : String :=
  String.intercalate ", " parts

/-- The description of something that may be missing. -/
def optional : Option String → String
  | none => "None"
  | some text => "Some(" ++ text ++ ")"

/-- The description of a truth value. -/
def truth (value : Bool) : String :=
  if value then "true" else "false"

/-- The description of a directory, in which single quotes are escaped too. -/
def directory (path : String) : String :=
  String.ofList ('"' :: path.toList.flatMap (fun c => if c == '\'' then ['\\', '\''] else Text.debugChar c)
    ++ ['"'])

/-- The description of a merge rule. -/
def mergeRule : MergeRule → String
  | .keep => "Keep"
  | .branch => "Branch"

/-- The description of a phase. -/
def phase : Phase → String
  | .enter => "Enter"
  | .leave => "Exit"

/-- The description of the rules for nested tags. -/
def nesting (nesting : Nesting) : String :=
  let allowed := nesting.allowed.map fun allowed =>
    "\x7b" ++ joined (allowed.keys.map Text.debugString) ++ "\x7d"
  let merge := nesting.merge.entries.map fun (tag, rule) => Text.debugString tag ++ ": " ++ mergeRule rule
  "NestedTagPolicy \x7b allowed_children: " ++ optional allowed ++
    ", merge: \x7b" ++ joined merge ++ "\x7d \x7d"

/-- The description of a tag. -/
def entry (entry : TagEntry) : String :=
  "TaglibEntry \x7b name: " ++ Text.debugString entry.rules.name ++
    ", transforms: [" ++ joined (entry.transforms.map fun transform => Text.debugString transform.name) ++
    "], renderer: " ++ optional (entry.rules.renderer.map Text.debugString) ++
    ", deprecated: " ++ optional (entry.rules.deprecated.map Text.debugString) ++
    ", preserve_whitespace: " ++ truth entry.rules.preserve ++
    ", nested: " ++ nesting entry.rules.nesting ++ " \x7d"

/-- The description of a registration. -/
def registration (registration : Registration) : String :=
  optional (registration.scope.map directory) ++ "|" ++ registration.taglib.id ++ "|" ++
    String.join (registration.taglib.entries.entries.map fun (_, tag) => entry tag ++ ";") ++
    String.join (registration.taglib.globals.map fun transform =>
      "*" ++ transform.name ++ ":" ++ phase transform.phase ++ ";") ++ "\n"

end Fingerprint

/-- The description of all registrations. -/
def Registry.fingerprint (registry : Registry) : String :=
  String.join (registry.registrations.map Fingerprint.registration)

end HtmlTemplate
