import HtmlTemplate.Script.Rename
import Mathlib.Tactic.Common

/-!
# References in expressions

The identifiers of an expression that refer to something, and the expression with each of them written as
what it means. Where no function binds names of its own, renaming is such a substitution. Where scopes bind
names, a reference is renamed if it is free, and then no scope may catch its new name.
-/

namespace HtmlTemplate
namespace Script

/-- An identifier that refers to something, and where it stands. -/
structure Reference where
  name : String
  start : Nat
  stop : Nat
  /-- Is it a property that is written as a name alone? -/
  shorthand : Bool
  deriving DecidableEq, Repr

/-- The reference written with another name. A property keeps its own. -/
def Reference.writtenAs (reference : Reference) (name : String) : Replacement :=
  { start := reference.start, stop := reference.stop,
    text := if reference.shorthand then reference.name ++ ": " ++ name else name }

/-- Does the form bind parameters? -/
def bindsParameters : Form → Bool
  | .function => true
  | .arrow => true
  | _ => false

namespace Syntax

mutual

/-- The references in a tree, in the order of the text. -/
def references : Syntax → List Reference
  | node (.reference name) start stop _ => [{ name, start, stop, shorthand := false }]
  | node (.shorthand name) start stop _ => [{ name, start, stop, shorthand := true }]
  | node _ _ _ parts => allReferences parts

/-- The references in trees, in order. -/
def allReferences : List Syntax → List Reference
  | [] => []
  | tree :: trees => references tree ++ allReferences trees

end

mutual

/-- Without functions each reference is renamed that has a new name. -/
theorem replacements_eq (renames : Renames) :
    ∀ tree : Syntax, tree.hasForm bindsParameters = false →
      tree.replacements renames [] =
        tree.references.filterMap fun reference => (renames.lookup reference.name).map reference.writtenAs
  | node form start stop parts, plain => by
      rw [hasForm, Bool.or_eq_false_iff] at plain
      have below := allReplacements_eq renames parts plain.2
      cases form with
      | reference name =>
          simp only [replacements, references, newName?, List.contains_nil, Bool.false_eq_true, if_false,
            List.filterMap_cons, List.filterMap_nil]
          cases renames.lookup name <;> rfl
      | shorthand name =>
          simp only [replacements, references, newName?, List.contains_nil, Bool.false_eq_true, if_false,
            List.filterMap_cons, List.filterMap_nil]
          cases renames.lookup name <;> rfl
      | function => cases plain.1
      | arrow => cases plain.1
      | _ => simpa only [replacements, references] using below

theorem allReplacements_eq (renames : Renames) :
    ∀ trees : List Syntax, anyHasForm bindsParameters trees = false →
      allReplacements renames [] trees =
        (allReferences trees).filterMap fun reference =>
          (renames.lookup reference.name).map reference.writtenAs
  | [], _ => rfl
  | tree :: trees, plain => by
      rw [anyHasForm, Bool.or_eq_false_iff] at plain
      rw [allReplacements, allReferences, List.filterMap_append, replacements_eq renames tree plain.1,
        allReplacements_eq renames trees plain.2]

end

end Syntax

/-- No function stands in the code. -/
def WithoutFunctions (code : String) : Prop :=
  ∀ parsed, parse? code.toList = some parsed → parsed.tree.hasForm bindsParameters = false

/-- The code with each of its references written as what it means, if that is not its name. -/
def substitute (meaning : String → String) (code : String) : String :=
  match parse? code.toList with
  | none => code
  | some parsed =>
      let changed := parsed.tree.references.filter fun reference => meaning reference.name != reference.name
      let pieces := changed.map fun reference => reference.writtenAs (meaning reference.name)
      String.ofList (writePieces 0 code.toList (pieces.mergeSort fun a b => a.start ≤ b.start))

/-- Code without functions is renamed by writing each reference as its new name, if it has one. -/
theorem rename_eq_substitute {renames : Renames} (changes : ∀ name, renames.lookup name ≠ some name)
    {code : String} (plain : WithoutFunctions code) :
    rename renames code = substitute (fun name => (renames.lookup name).getD name) code := by
  have pieces (references : List Reference) :
      (references.filterMap fun reference => (renames.lookup reference.name).map reference.writtenAs) =
        (references.filter fun reference => (renames.lookup reference.name).getD reference.name !=
          reference.name).map fun reference =>
            reference.writtenAs ((renames.lookup reference.name).getD reference.name) := by
    induction references with
    | nil => rfl
    | cons reference references hypothesis =>
        rw [List.filterMap_cons, hypothesis]
        cases found : renames.lookup reference.name with
        | none => simp [found]
        | some name =>
            have different : name ≠ reference.name := fun same => changes reference.name (same ▸ found)
            simp [found, different]
  unfold rename substitute
  cases parsed : parse? code.toList with
  | none => simp
  | some result =>
      dsimp only
      rw [Syntax.replacements_eq renames result.tree (plain result parsed), pieces]
      split
      · next empty =>
          obtain rfl := List.isEmpty_iff.1 empty
          have nothing : (result.tree.references.filterMap fun reference =>
              (List.lookup reference.name ([] : Renames)).map reference.writtenAs) = [] :=
            List.filterMap_eq_nil_iff.2 fun _ _ => rfl
          rw [← pieces, nothing]
          simp [writePieces]
      · rfl

/-! ## What names mean -/

namespace Syntax

mutual

/-- The names that a name, a pattern or a parameter list binds. Defaults and computed keys bind none of them. -/
def boundNames : Syntax → List String
  | node (.binding name) _ _ _ => [name]
  | node .patternDefault _ _ (target :: _) => boundNames target
  | node .arrayPattern _ _ parts => allBoundNames parts
  | node .objectPattern _ _ parts => allBoundNames parts
  | node .property _ _ parts => allBoundNames parts
  | node .rest _ _ parts => allBoundNames parts
  | node .parameters _ _ parts => allBoundNames parts
  | _ => []

/-- The names that names and patterns bind. -/
def allBoundNames : List Syntax → List String
  | [] => []
  | tree :: trees => boundNames tree ++ allBoundNames trees

end

mutual

/-- The names that `var` declares in a statement, however deep, but not in functions and classes. -/
def varNames : Syntax → List String
  | node (.variables false) _ _ parts => allBoundNames parts
  | node .function _ _ _ => []
  | node .arrow _ _ _ => []
  | node .classBody _ _ _ => []
  | node _ _ _ parts => allVarNames parts

/-- The names that `var` declares in the statements. -/
def allVarNames : List Syntax → List String
  | [] => []
  | tree :: trees => varNames tree ++ allVarNames trees

end

/-- The name of a function or class with these parts, if it has one. -/
def leadingName : List Syntax → List String
  | node (.binding name) _ _ _ :: _ => [name]
  | _ => []

/-- The names that a declaration of variables binds in the block or loop around it. -/
def blockNames : Syntax → List String
  | node (.variables true) _ _ parts => allBoundNames parts
  | _ => []

/-- The names that a statement declares in the block around it. -/
def declaredNames : Syntax → List String
  | node (.variables true) _ _ parts => allBoundNames parts
  | node .function _ _ parts => leadingName parts
  | node .classBody _ _ parts => leadingName parts
  -- a class with decorators before it
  | node .statement _ _ [node .group _ _ (_ :: more)] =>
      match more.getLast? with
      | some (node .classBody _ _ parts) => leadingName parts
      | _ => []
  | _ => []

/-- The names that a function with these parts calls its arguments. -/
def boundParameters (parts : List Syntax) : List String :=
  (parts.filter fun part => part.form == .parameters).flatMap boundNames

/--
The names of the scopes that a node opens for its parts, the nearest scope first. The block that is the body of a
function holds the variables of the function as well.
-/
def opens (isBody : Bool) (parts : List Syntax) : Form → List (List String)
  | .function => ["arguments" :: boundParameters parts, leadingName parts]
  | .arrow => [boundParameters parts]
  | .classBody => [leadingName parts]
  | .block => [parts.flatMap declaredNames ++ if isBody then allVarNames parts else []]
  | .loop => [parts.flatMap blockNames]
  | .handler => [allBoundNames parts]
  | _ => []

/-- Is a block among the parts of such a node a body? -/
def holdsBody : Form → Bool
  | .function => true
  | .arrow => true
  | .element => true
  | _ => false

mutual

/-- What is found at the nodes of a tree; blocks that are bodies are told apart. -/
def gather (find : Bool → List Syntax → Form → List String) (isBody : Bool) : Syntax → List String
  | node form _ _ parts => find isBody parts form ++ gatherAll find (holdsBody form) parts

/-- What is found at the nodes of the trees. -/
def gatherAll (find : Bool → List Syntax → Form → List String) (isBody : Bool) : List Syntax → List String
  | [] => []
  | tree :: trees => gather find isBody tree ++ gatherAll find isBody trees

end

/-- The names that the scopes of the node bind. -/
def openedNames (isBody : Bool) (parts : List Syntax) (form : Form) : List String :=
  (opens isBody parts form).flatten

/-- The names that renaming takes for bound in the parts of the node. -/
def hiddenNames (parts : List Syntax) (form : Form) : List String :=
  if bindsParameters form then parameterNames parts else []

/-- The names of the node that are bound and not hidden, or hidden and not bound. -/
def misjudgedNames (isBody : Bool) (parts : List Syntax) (form : Form) : List String :=
  (openedNames isBody parts form).filter (fun name => !(hiddenNames parts form).contains name) ++
    (hiddenNames parts form).filter fun name => !(openedNames isBody parts form).contains name

end Syntax

/-- What stands around a place in an expression. -/
structure Surroundings where
  /-- The names of the scopes around, the nearest first. -/
  scopes : List (List String) := []
  /-- Is a block here a body? -/
  isBody : Bool := false
  /-- Where the property starts whose value or target stands here. -/
  property : Option Nat := none

/-- What stands around the parts of a node. -/
def Surroundings.within (around : Surroundings) (form : Form) (start : Nat) (parts : List Syntax) : Surroundings where
  scopes := Syntax.opens around.isBody parts form ++ around.scopes
  isBody := Syntax.holdsBody form
  property :=
    match form with
    | .property => some start
    | .patternDefault => around.property
    | _ => none

theorem scopes_within {around : Surroundings} {form : Form} {start : Nat} {parts : List Syntax} :
    (around.within form start parts).scopes = Syntax.opens around.isBody parts form ++ around.scopes :=
  rfl

/-- A reference with the scopes around it. -/
structure Use extends Reference where
  scopes : List (List String)
  /-- Is it the target of an assignment that is written as a property by its name alone? -/
  isKey : Bool
  deriving DecidableEq, Repr

namespace Use

/-- The number of scopes between the reference and the one that binds a name. Free names have none. -/
def binder? (use : Use) (name : String) : Option Nat :=
  use.scopes.findIdx? fun scope => scope.contains name

/-- The name that the reference has to be written with, which is its own if it is bound. -/
def newName (renames : Renames) (use : Use) : String :=
  if use.binder? use.name = none then (renames.lookup use.name).getD use.name else use.name

/-- The reference written anew, if it is free and has a new name. -/
def rewritten? (renames : Renames) (use : Use) : Option Replacement :=
  if use.binder? use.name = none then (renames.lookup use.name).map use.writtenAs else none

end Use

namespace Syntax

mutual

/-- The references in a tree with their scopes, in the order of the parts. -/
def uses (around : Surroundings) : Syntax → List Use
  | node (.reference name) start stop _ =>
      let isKey := around.property == some start
      [{ name, start, stop, shorthand := isKey, scopes := around.scopes, isKey }]
  | node (.shorthand name) start stop _ =>
      [{ name, start, stop, shorthand := true, scopes := around.scopes, isKey := false }]
  | node form start _ parts => allUses (around.within form start parts) parts

/-- The references in trees with their scopes. -/
def allUses (around : Surroundings) : List Syntax → List Use
  | [] => []
  | tree :: trees => uses around tree ++ allUses around trees

end

/--
The renaming is understood by the tree: names that are renamed are not bound otherwise than as parameters, new
names are not bound at all, and no target that is renamed is a property by its name alone.
-/
structure Admits (renames : Renames) (tree : Syntax) : Prop where
  judged : ∀ name ∈ tree.gather misjudgedNames false, renames.lookup name = none
  fresh : ∀ entry ∈ renames, entry.2 ∉ tree.gather openedNames false
  plain : ∀ use ∈ tree.uses {}, use.isKey → renames.lookup use.name = none

instance (renames : Renames) (tree : Syntax) : Decidable (tree.Admits renames) :=
  decidable_of_iff
    ((∀ name ∈ tree.gather misjudgedNames false, renames.lookup name = none) ∧
      (∀ entry ∈ renames, entry.2 ∉ tree.gather openedNames false) ∧
      ∀ use ∈ tree.uses {}, use.isKey → renames.lookup use.name = none)
    ⟨fun all => ⟨all.1, all.2.1, all.2.2⟩, fun admits => ⟨admits.judged, admits.fresh, admits.plain⟩⟩

/-- Names that have a new name are hidden if and only if they are bound. -/
def Judges (renames : Renames) (hidden : List String) (scopes : List (List String)) : Prop :=
  ∀ name, renames.lookup name ≠ none → (name ∈ hidden ↔ ∃ scope ∈ scopes, name ∈ scope)

variable {renames : Renames} {hidden : List String} {around : Surroundings}

theorem judges_nil : Judges renames [] [] :=
  fun name _ => by simp

theorem Judges.within {form : Form} {parts : List Syntax} (judges : Judges renames hidden around.scopes) (start : Nat)
    (judged : ∀ name ∈ misjudgedNames around.isBody parts form, renames.lookup name = none) :
    Judges renames (hiddenNames parts form ++ hidden) (around.within form start parts).scopes := by
  intro name renamed
  have own : name ∈ hiddenNames parts form ↔ name ∈ openedNames around.isBody parts form := by
    refine ⟨fun isHidden => ?_, fun isOpened => ?_⟩
    · by_contra unbound
      exact renamed (judged name (List.mem_append_right _ (List.mem_filter.2 ⟨isHidden, by simpa using unbound⟩)))
    · by_contra seen
      exact renamed (judged name (List.mem_append_left _ (List.mem_filter.2 ⟨isOpened, by simpa using seen⟩)))
  rw [List.mem_append, own, judges name renamed, openedNames, List.mem_flatten, scopes_within]
  simp only [List.mem_append, or_and_right, exists_or]

theorem Judges.binder_eq_none {use : Use} (judges : Judges renames hidden use.scopes)
    (renamed : renames.lookup use.name ≠ none) : use.binder? use.name = none ↔ use.name ∉ hidden := by
  rw [Use.binder?, List.findIdx?_eq_none_iff, judges use.name renamed]
  simp

/-- A reference is written anew as its scopes demand, if names are hidden where they are bound. -/
theorem rewritten_eq {use : Use} (judges : Judges renames hidden use.scopes) :
    use.rewritten? renames = (newName? renames hidden use.name).map use.writtenAs := by
  rw [newName?, Use.rewritten?]
  by_cases renamed : renames.lookup use.name = none
  · simp [renamed]
  · by_cases isHidden : use.name ∈ hidden
    · have bound : use.binder? use.name ≠ none := fun free => (judges.binder_eq_none renamed).1 free isHidden
      rw [if_pos (List.contains_iff_mem.2 isHidden), if_neg bound]
      rfl
    · have free := (judges.binder_eq_none renamed).2 isHidden
      rw [if_neg (mt List.contains_iff_mem.1 isHidden), if_pos free]

mutual

/-- The pieces that are written anew are those that the scopes demand. The induction is on the tree; what a node
hides from its parts is what its scopes bind. -/
theorem replacements_eq_uses : ∀ (tree : Syntax) (around : Surroundings) {hidden : List String},
    Judges renames hidden around.scopes →
    (∀ name ∈ tree.gather misjudgedNames around.isBody, renames.lookup name = none) →
    (∀ use ∈ tree.uses around, use.isKey → renames.lookup use.name = none) →
    tree.replacements renames hidden = (tree.uses around).filterMap (Use.rewritten? renames)
  | node form start stop parts, around, hidden, judges, judged, plain => by
      have below := allReplacements_eq_uses parts (around.within form start parts)
        (judges.within start fun name misjudged => judged name (List.mem_append_left _ misjudged))
        fun name misjudged => judged name (List.mem_append_right _ misjudged)
      cases form with
      | reference name =>
          have keyed := plain _ (List.mem_singleton.2 rfl)
          rw [replacements, uses, List.filterMap_cons, List.filterMap_nil, rewritten_eq judges]
          cases found : newName? renames hidden name with
          | none => rfl
          | some text =>
              cases isKey : around.property == some start with
              | false => rfl
              | true =>
                  rw [newName?, keyed isKey, ite_self] at found
                  cases found
      | shorthand name =>
          rw [replacements, uses, List.filterMap_cons, List.filterMap_nil, rewritten_eq judges]
          cases newName? renames hidden name <;> rfl
      | _ => exact below plain

theorem allReplacements_eq_uses : ∀ (trees : List Syntax) (around : Surroundings) {hidden : List String},
    Judges renames hidden around.scopes →
    (∀ name ∈ gatherAll misjudgedNames around.isBody trees, renames.lookup name = none) →
    (∀ use ∈ allUses around trees, use.isKey → renames.lookup use.name = none) →
    allReplacements renames hidden trees = (allUses around trees).filterMap (Use.rewritten? renames)
  | [], _, _, _, _, _ => rfl
  | tree :: trees, around, hidden, judges, judged, plain => by
      have first := replacements_eq_uses tree around judges
        (fun name misjudged => judged name (List.mem_append_left _ misjudged))
        (fun use member => plain use (List.mem_append_left _ member))
      have later := allReplacements_eq_uses trees around judges
        (fun name misjudged => judged name (List.mem_append_right _ misjudged))
        (fun use member => plain use (List.mem_append_right _ member))
      rw [allReplacements, allUses, List.filterMap_append, first, later]

end

mutual

/-- The scopes of a reference are those around the tree and those that the tree opens. -/
theorem scopes_uses : ∀ (tree : Syntax) {around : Surroundings}, ∀ use ∈ tree.uses around, ∀ scope ∈ use.scopes,
    scope ∈ around.scopes ∨ scope ⊆ tree.gather openedNames around.isBody
  | node form start stop parts, around => by
      have below : ∀ use ∈ allUses (around.within form start parts) parts, ∀ scope ∈ use.scopes,
          scope ∈ around.scopes ∨ scope ⊆ (node form start stop parts).gather openedNames around.isBody := by
        intro use member scope inScope
        rcases scopes_allUses parts use member scope inScope with outside | inside
        · rcases List.mem_append.1 outside with own | outside
          · refine .inr fun name bound => List.mem_append_left _ (List.mem_flatten.2 ⟨scope, own, bound⟩)
          · exact .inl outside
        · exact .inr fun name bound => List.mem_append_right _ (inside bound)
      have here {use : Use} (same : use.scopes = around.scopes) : ∀ scope ∈ use.scopes,
          scope ∈ around.scopes ∨ scope ⊆ (node form start stop parts).gather openedNames around.isBody :=
        fun scope inScope => .inl (same ▸ inScope)
      cases form with
      | reference name =>
          intro use member
          exact here (List.mem_singleton.1 member ▸ rfl)
      | shorthand name =>
          intro use member
          exact here (List.mem_singleton.1 member ▸ rfl)
      | _ => exact below

theorem scopes_allUses : ∀ (trees : List Syntax) {around : Surroundings}, ∀ use ∈ allUses around trees,
    ∀ scope ∈ use.scopes, scope ∈ around.scopes ∨ scope ⊆ gatherAll openedNames around.isBody trees
  | [], _ => fun _ impossible => absurd impossible List.not_mem_nil
  | tree :: trees, around => by
      intro use member scope inScope
      rcases List.mem_append.1 member with first | later
      · exact (scopes_uses tree use first scope inScope).imp_right fun inside name bound =>
          List.mem_append_left _ (inside bound)
      · exact (scopes_allUses trees use later scope inScope).imp_right fun inside name bound =>
          List.mem_append_right _ (inside bound)

end

/-- New names are free where the references stand that get them. -/
theorem Admits.binder_newName {tree : Syntax} (admits : tree.Admits renames) :
    ∀ use ∈ tree.uses {}, use.binder? (use.newName renames) = use.binder? use.name := by
  intro use member
  rw [Use.newName]
  split
  · next free =>
    cases renamed : renames.lookup use.name with
    | none => rfl
    | some text =>
        obtain ⟨before, after, rfl, -⟩ := List.lookup_eq_some_iff.1 renamed
        have unbound := admits.fresh (use.name, text) (by simp)
        rw [free, Option.getD_some, Use.binder?, List.findIdx?_eq_none_iff]
        intro scope inScope
        rcases scopes_uses tree use member scope inScope with outside | inside
        · exact absurd outside List.not_mem_nil
        · exact Bool.eq_false_iff.2 fun bound => unbound (inside (List.contains_iff_mem.1 bound))
  · rfl

end Syntax

/-- The keys of the properties in code that are written as names alone. -/
def soleKeys? (code : String) : Option (List String) :=
  (parse? code.toList).map fun parsed => ((parsed.tree.uses {}).filter (·.shorthand)).map (·.name)

end Script
end HtmlTemplate
