import HtmlTemplate.Json
import HtmlTemplate.SortedMap

/-!
# Compile options

What a caller may set, how it is read from JSON, and the fingerprint of the options that the generated
code depends on.
-/

namespace HtmlTemplate

/-- Where text keeps its whitespace. -/
inductive Preservation
  /-- Everywhere, or nowhere. -/
  | everywhere (all : Bool)
  /-- In elements of some tags. -/
  | tags (choices : SortedMap Bool)
  deriving DecidableEq

namespace Preservation

/-- Preserved text, scripts and text fields. -/
def standard : Preservation :=
  .tags (SortedMap.ofList [("pre", true), ("textarea", true), ("script", true)])

/-- Is all whitespace kept? -/
def isTotal : Preservation → Bool
  | everywhere all => all
  | tags _ => false

/-- Does an element with this tag keep its whitespace? Tags are looked up as written, then in lower case. -/
def preserves (preservation : Preservation) (tag : String) : Bool :=
  match preservation with
  | everywhere all => all
  | tags choices =>
      match choices.find? tag with
      | some choice => choice
      | none => (choices.find? tag.toLower).getD false

/-- The choice as JSON. -/
def toJson : Preservation → Json
  | everywhere all => .bool all
  | tags choices => .object (choices.entries.map fun (tag, choice) => (tag, .bool choice))

/-- Reads the choice: a truth value, or an object of truth values. -/
def ofJson? : Json → Option Preservation
  | .bool all => some (.everywhere all)
  | .object fields => do
      let choices ← fields.mapM fun (tag, choice) => do return (tag, ← choice.bool?)
      return .tags (SortedMap.ofList choices)
  | _ => none

end Preservation

/-- The options of a compilation. -/
structure Options where
  /-- Where text keeps its whitespace. -/
  preserveWhitespace : Preservation := .standard
  /-- Is stored output used when it is up to date? -/
  checkUpToDate : Bool := true
  /-- Is output stored? -/
  writeToDisk : Bool := true
  /-- Do tags that no taglib knows pass as plain elements? -/
  allowUnknownTags : Bool := false
  /-- How often the transforms of a node may change it. -/
  maxTransformPasses : Nat := 10
  /-- What is appended to the path of a template to name its output. -/
  compiledSuffix : String := ".js"
  deriving DecidableEq

namespace Options

instance : Inhabited Options :=
  ⟨{}⟩

/-- Options for compiling without storage. -/
def inMemory : Options :=
  { checkUpToDate := false, writeToDisk := false }

/-- Pass counts are numbers of sixty-four bits. -/
def passCount? (value : Json) : Option Nat := do
  let count ← value.nat?
  if count < UInt64.size then some count else none

/-- The names of the options, in the order in which an array lists their values. -/
def fieldNames : List String :=
  ["preserveWhitespace", "checkUpToDate", "writeToDisk", "allowUnknownTags", "maxTransformPasses",
   "compiledSuffix"]

/-- The options with one of them read from its value; other names change nothing. -/
def setField? (options : Options) (name : String) (value : Json) : Option Options :=
  if name == "preserveWhitespace" then
    (Preservation.ofJson? value).map ({ options with preserveWhitespace := · })
  else if name == "checkUpToDate" then value.bool?.map ({ options with checkUpToDate := · })
  else if name == "writeToDisk" then value.bool?.map ({ options with writeToDisk := · })
  else if name == "allowUnknownTags" then value.bool?.map ({ options with allowUnknownTags := · })
  else if name == "maxTransformPasses" then
    (passCount? value).map ({ options with maxTransformPasses := · })
  else if name == "compiledSuffix" then value.string?.map ({ options with compiledSuffix := · })
  else some options

/-- The options read from fields, starting from the standard ones. -/
def ofFields? (fields : List (String × Json)) : Option Options :=
  fields.foldlM (fun options (name, value) => options.setField? name value) {}

/--
Reads options. An object sets the fields it names, each of them once; fields it does not name keep their
standard value and unknown ones are ignored. An array lists the first few values in order.
-/
def ofJson? : Json → Option Options
  | .object fields =>
      let known := (fields.map Prod.fst).filter fieldNames.contains
      if known.Nodup then ofFields? fields else none
  | .array values =>
      if values.length ≤ fieldNames.length then ofFields? (fieldNames.zip values) else none
  | _ => none

/-- Reads options from the text of a JSON value. -/
def ofText? (text : String) : Option Options :=
  (Json.parse? text).bind ofJson?

/--
The options that the generated code depends on, as JSON with sorted keys. Whether and where output is
stored is left out.
-/
def fingerprint (options : Options) : String :=
  (Json.object
    [("allowUnknownTags", .bool options.allowUnknownTags),
     ("maxTransformPasses", .ofNat options.maxTransformPasses),
     ("preserveWhitespace", options.preserveWhitespace.toJson)]).render

end Options

end HtmlTemplate
