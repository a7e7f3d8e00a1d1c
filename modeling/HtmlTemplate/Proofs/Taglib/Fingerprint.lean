import HtmlTemplate.Compiler
import HtmlTemplate.Proofs.Storage.Transparency
import HtmlTemplate.Proofs.Text.Telling
import HtmlTemplate.Proofs.Walk.Watch

/-!
# Fingerprints tell registrations

The fingerprint of a registry tells what its registrations say about tags, and the names of all transforms, if the
texts that stand in it without quotes do not look like its own marks. It does not tell in which phase the transforms
of a tag run, so that transforms of one name have to run in one phase.
-/

namespace HtmlTemplate

theorem SortedMap.ext_entries {α : Type} {first second : SortedMap α} (same : first.entries = second.entries) :
    first = second := by
  cases first
  cases second
  cases same
  rfl

/-- The transform as far as it is known by its name and its phase. -/
def Transform.bare (transform : Transform) : Transform :=
  { transform with apply := fun _ => pure .unchanged }

namespace Fingerprint

variable {α β : Type} {fit : α → Prop} {view : α → β} {begins : Char → Prop} {behind beyond : List Char}

/-! ## Parts of descriptions -/

theorem toList_optional_none : (optional none).toList = 'N' :: "one".toList := by
  decide

theorem toList_optional_some (text : String) :
    (optional (some text)).toList = 'S' :: ("ome(".toList ++ (text.toList ++ ")".toList)) := by
  simp only [optional, String.toList_append, List.append_assoc]
  rfl

theorem tells_optional {write : α → String} (tells : Tells fit view begins fun value => (write value).toList) :
    Tells (fun value => ∀ inner ∈ value, fit inner) (Option.map view) (fun c => c = 'N' ∨ c = 'S')
      fun value => (optional (value.map write)).toList where
  view_eq {first second behind beyond} firstFit secondFit equal := by
    cases first with
    | none =>
      cases second with
      | none => exact ⟨rfl, List.append_cancel_left equal⟩
      | some other =>
        rw [Option.map_none, Option.map_some, toList_optional_none, toList_optional_some] at equal
        exact absurd (List.cons.inj equal).1 (by decide)
    | some value =>
      cases second with
      | none =>
        rw [Option.map_none, Option.map_some, toList_optional_none, toList_optional_some] at equal
        exact absurd (List.cons.inj equal).1 (by decide)
      | some other =>
        simp only [Option.map_some, toList_optional_some, List.cons_append, List.append_assoc, List.cons.injEq, true_and,
          List.append_cancel_left_eq] at equal
        obtain ⟨same, rest⟩ := tells.view_eq (firstFit value rfl) (secondFit other rfl) equal
        exact ⟨congrArg some same, List.append_cancel_left rest⟩
  starts value _ := by
    cases value with
    | none => exact ⟨'N', "one".toList, toList_optional_none, .inl rfl⟩
    | some value => exact ⟨'S', _, toList_optional_some _, .inr rfl⟩

theorem tells_truth : Tells (fun _ => True) id (fun _ => True) fun value => (truth value).toList :=
  .ofBool rfl rfl (by decide) trivial trivial

theorem tells_keys : Tells (fun _ : SortedMap Unit => True) id (· = '\x7b') fun allowed =>
    ("\x7b" ++ joined (allowed.keys.map Text.debugString) ++ "\x7d").toList where
  view_eq {first second behind beyond} _ _ equal := by
    simp only [String.toList_append, List.append_assoc, List.append_cancel_left_eq] at equal
    obtain ⟨keys, rest⟩ := Text.tells_debugString.separated '\x7d' (by decide) (by decide)
      (fun _ _ => trivial) (fun _ _ => trivial) equal
    rw [List.map_id, List.map_id] at keys
    exact ⟨SortedMap.ext_entries (List.map_injective_iff.2 (fun _ _ same => Prod.ext same rfl) keys), rest⟩
  starts allowed _ := ⟨'\x7b', _, by rw [String.toList_append, String.toList_append]; rfl, rfl⟩

theorem tells_mergeRule : Tells (fun _ : String × MergeRule => True) id (· = '"') fun (tag, rule) =>
    (Text.debugString tag ++ ": " ++ mergeRule rule).toList where
  view_eq {first second behind beyond} _ _ equal := by
    obtain ⟨tag, rule⟩ := first
    obtain ⟨otherTag, otherRule⟩ := second
    simp only [String.toList_append, List.append_assoc] at equal
    obtain ⟨rfl, rest⟩ := Text.tells_debugString.view_eq trivial trivial equal
    rw [List.append_cancel_left_eq] at rest
    cases rule <;> cases otherRule
    · exact ⟨rfl, List.append_cancel_left rest⟩
    · exact absurd (List.cons.inj rest).1 (by decide)
    · exact absurd (List.cons.inj rest).1 (by decide)
    · exact ⟨rfl, List.append_cancel_left rest⟩
  starts value _ := by
    obtain ⟨c, rest, written, begun⟩ := Text.tells_debugString.starts value.1 trivial
    exact ⟨c, rest ++ (": ".toList ++ (mergeRule value.2).toList), by
      simp only [String.toList_append, List.append_assoc, written, List.cons_append], begun⟩

theorem nesting_eq {first second : Nesting}
    (equal : (nesting first).toList ++ behind = (nesting second).toList ++ beyond) : first = second ∧ behind = beyond := by
  unfold nesting at equal
  dsimp only at equal
  simp only [String.toList_append, List.append_assoc] at equal
  obtain ⟨allowed, rest⟩ := (tells_optional tells_keys).view_eq (fun _ _ => trivial) (fun _ _ => trivial)
    (List.append_cancel_left equal)
  have merged := List.append_cancel_left rest
  rw [show "\x7d \x7d".toList = '\x7d' :: " \x7d".toList by decide] at merged
  obtain ⟨merge, ends⟩ := tells_mergeRule.separated '\x7d' (by decide) (by decide)
    (fun _ _ => trivial) (fun _ _ => trivial) merged
  rw [List.map_id, List.map_id] at merge
  have sameAllowed : first.allowed = second.allowed := by simpa using allowed
  have sameMerge := SortedMap.ext_entries merge
  refine ⟨?_, List.append_cancel_left ends⟩
  cases first
  cases second
  cases sameAllowed
  cases sameMerge
  rfl

/-! ## Tags -/

theorem names_eq {first second : List Transform}
    (equal : (joined (first.map fun transform => Text.debugString transform.name)).toList ++ ']' :: behind =
      (joined (second.map fun transform => Text.debugString transform.name)).toList ++ ']' :: beyond) :
    first.map Transform.name = second.map Transform.name ∧ behind = beyond := by
  have tells : Tells (fun _ => True) Transform.name (· = '"') fun transform => (Text.debugString transform.name).toList :=
    { view_eq := fun _ _ equal => Text.tells_debugString.view_eq trivial trivial equal
      starts := fun transform _ => Text.tells_debugString.starts transform.name trivial }
  exact tells.separated _ (by decide) (by decide) (fun _ _ => trivial) (fun _ _ => trivial) equal

/-- The description of a tag tells its rules, and the names of its declared transforms: the binding of its renderer
adds the same name to both lists. -/
theorem entry_eq {first second : TagEntry}
    (equal : (entry first).toList ++ behind = (entry second).toList ++ beyond) :
    first.rules = second.rules ∧ first.declared.map Transform.name = second.declared.map Transform.name ∧
      behind = beyond := by
  unfold entry at equal
  simp only [String.toList_append, List.append_assoc] at equal
  obtain ⟨name, afterName⟩ := Text.tells_debugString.view_eq trivial trivial (List.append_cancel_left equal)
  have transforms := List.append_cancel_left afterName
  rw [show "], renderer: ".toList = ']' :: ", renderer: ".toList by decide] at transforms
  obtain ⟨names, afterNames⟩ := names_eq transforms
  obtain ⟨renderer, afterRenderer⟩ := (tells_optional Text.tells_debugString).view_eq (fun _ _ => trivial)
    (fun _ _ => trivial) (List.append_cancel_left afterNames)
  obtain ⟨deprecated, afterDeprecated⟩ := (tells_optional Text.tells_debugString).view_eq (fun _ _ => trivial)
    (fun _ _ => trivial) (List.append_cancel_left afterRenderer)
  obtain ⟨preserve, afterPreserve⟩ := tells_truth.view_eq trivial trivial (List.append_cancel_left afterDeprecated)
  obtain ⟨nested, rest⟩ := nesting_eq (List.append_cancel_left afterPreserve)
  have sameRenderer : first.rules.renderer = second.rules.renderer := by simpa using renderer
  have sameDeprecated : first.rules.deprecated = second.rules.deprecated := by simpa using deprecated
  have declared : first.declared.map Transform.name = second.declared.map Transform.name := by
    unfold TagEntry.transforms at names
    rw [List.map_append, List.map_append, sameRenderer] at names
    exact List.append_cancel_right names
  refine ⟨?_, declared, List.append_cancel_left rest⟩
  obtain ⟨⟨_, _, _, _, _⟩, _⟩ := first
  obtain ⟨⟨_, _, _, _, _⟩, _⟩ := second
  cases name
  cases sameRenderer
  cases sameDeprecated
  cases preserve
  cases nested
  rfl

/-! ## Registrations -/

/-- Transforms that tags declare run in the phase that goes with their name. -/
def PhasedBy (phaseOf : String → Phase) (entry : TagEntry) : Prop :=
  ∀ transform ∈ entry.declared, transform.phase = phaseOf transform.name

/-- Transforms with the same names are the same as far as they are known, if the names tell their phases. -/
theorem map_bare_eq {phaseOf : String → Phase} {first second : List Transform}
    (phased : ∀ transform ∈ first, transform.phase = phaseOf transform.name)
    (alsoPhased : ∀ transform ∈ second, transform.phase = phaseOf transform.name)
    (names : first.map Transform.name = second.map Transform.name) :
    first.map Transform.bare = second.map Transform.bare := by
  have byName : ∀ transforms : List Transform, (∀ transform ∈ transforms, transform.phase = phaseOf transform.name) →
      transforms.map Transform.bare = (transforms.map Transform.name).map fun name =>
        { name, phase := phaseOf name, apply := fun _ => pure .unchanged } := by
    intro transforms phased
    rw [List.map_map]
    refine List.map_congr_left fun transform member => ?_
    rw [Transform.bare, phased transform member]
    rfl
  rw [byName first phased, byName second alsoPhased, names]

/-- An entry under its key, in the description of a registration. -/
theorem tells_entry (phaseOf : String → Phase) :
    Tells (fun pair : String × TagEntry => pair.2.rules.name = pair.1 ∧ PhasedBy phaseOf pair.2)
      (fun pair => (pair.1, pair.2.mapTransforms Transform.bare)) (· = 'T')
      fun (_, tag) => (entry tag ++ ";").toList where
  view_eq {first second behind beyond} firstFit secondFit equal := by
    obtain ⟨key, tag⟩ := first
    obtain ⟨otherKey, other⟩ := second
    simp only [String.toList_append, List.append_assoc] at equal
    obtain ⟨rules, names, rest⟩ := entry_eq equal
    refine ⟨Prod.ext ?_ ?_, List.append_cancel_left rest⟩
    · rw [← firstFit.1, ← secondFit.1, rules]
    · show tag.mapTransforms Transform.bare = other.mapTransforms Transform.bare
      unfold TagEntry.mapTransforms
      rw [map_bare_eq firstFit.2 secondFit.2 names, rules]
  starts pair _ := by
    obtain ⟨key, tag⟩ := pair
    have starts : (entry tag ++ ";").toList.head? = some 'T' := by
      unfold entry
      simp only [String.toList_append, List.append_assoc]
      rfl
    obtain ⟨rest, written⟩ := List.head?_eq_some_iff.1 starts
    exact ⟨'T', rest, written, rfl⟩

/-- The last letter of the description of a phase. -/
def lastLetter : Phase → Char
  | .enter => 'r'
  | .leave => 't'

theorem lastLetter_injective : Function.Injective lastLetter := by
  intro one other same
  cases one <;> cases other <;> first | rfl | exact absurd same (by decide)

theorem getLast?_phase (one : Phase) : (":" ++ phase one).toList.getLast? = some (lastLetter one) := by
  cases one <;> decide

theorem label_inj {first second : Transform}
    (same : first.name.toList ++ (":" ++ phase first.phase).toList = second.name.toList ++ (":" ++ phase second.phase).toList) :
    first.name = second.name ∧ first.phase = second.phase := by
  have last := congrArg List.getLast? same
  rw [List.getLast?_append, List.getLast?_append, getLast?_phase, getLast?_phase] at last
  have phases := lastLetter_injective (Option.some.inj last)
  rw [phases] at same
  exact ⟨String.toList_inj.1 (List.append_cancel_right same), phases⟩

/-- Neither a mark nor the character without bits is in the text. -/
def Unmarked (mark : Char) (text : String) : Prop :=
  ∀ c ∈ text.toList, c ≠ mark ∧ c ≠ '\x00'

theorem unmarked_of_all {mark : Char} {text : String}
    (all : (text.toList.all fun c => c != mark && c != '\x00') = true) : Unmarked mark text := by
  unfold Unmarked
  simpa only [List.all_eq_true, Bool.and_eq_true, bne_iff_ne] using all

theorem Unmarked.notMem {mark : Char} {text : String} (unmarked : Unmarked mark text) : mark ∉ text.toList :=
  fun member => (unmarked mark member).1 rfl

theorem Unmarked.nul_notMem {mark : Char} {text : String} (unmarked : Unmarked mark text) : '\x00' ∉ text.toList :=
  fun member => (unmarked '\x00' member).2 rfl

theorem tells_global : Tells (fun transform : Transform => Unmarked ';' transform.name) Transform.bare (· = '*')
    fun transform => ("*" ++ transform.name ++ ":" ++ phase transform.phase ++ ";").toList where
  view_eq {first second behind beyond} firstFit secondFit equal := by
    have whole : ∀ transform : Transform, Unmarked ';' transform.name →
        ';' ∉ transform.name.toList ++ (":" ++ phase transform.phase).toList := by
      intro transform fits member
      rcases List.mem_append.1 member with member | member
      · exact fits.notMem member
      · revert member
        cases transform.phase <;> decide
    have texts : ∀ transform : Transform, ∀ rest : List Char,
        ("*" ++ transform.name ++ ":" ++ phase transform.phase ++ ";").toList ++ rest =
          '*' :: ((transform.name.toList ++ (":" ++ phase transform.phase).toList) ++ ';' :: rest) := by
      intro transform rest
      simp only [String.toList_append, List.append_assoc]
      rfl
    rw [texts, texts] at equal
    obtain ⟨label, rest⟩ := Tells.eq_of_append_cons (whole _ firstFit) (whole _ secondFit) (List.cons.inj equal).2
    obtain ⟨name, phase⟩ := label_inj label
    refine ⟨?_, rest⟩
    unfold Transform.bare
    rw [name, phase]
  starts transform _ := by
    have starts : ("*" ++ transform.name ++ ":" ++ phase transform.phase ++ ";").toList.head? = some '*' := by
      simp only [String.toList_append, List.append_assoc]
      rfl
    obtain ⟨rest, written⟩ := List.head?_eq_some_iff.1 starts
    exact ⟨'*', rest, written, rfl⟩

end Fingerprint

namespace Registration

/-- What stands without quotes in a fingerprint does not look like a mark in it, transforms of one name that tags
declare run in one phase, and tags are listed under their names. -/
structure Legible (phaseOf : String → Phase) (registration : Registration) : Prop where
  id : Fingerprint.Unmarked '|' registration.taglib.id
  entries : ∀ pair ∈ registration.taglib.entries.entries,
    pair.2.rules.name = pair.1 ∧ Fingerprint.PhasedBy phaseOf pair.2
  globals : ∀ transform ∈ registration.taglib.globals, Fingerprint.Unmarked ';' transform.name

end Registration

namespace Fingerprint

theorem toList_registration (registered : Registration) (rest : List Char) :
    (registration registered).toList ++ rest =
      (optional (registered.scope.map directory)).toList ++ '|' :: (registered.taglib.id.toList ++ '|' ::
        (registered.taglib.entries.entries.flatMap (fun (_, tag) => (entry tag ++ ";").toList) ++
          (registered.taglib.globals.flatMap (fun transform =>
            ("*" ++ transform.name ++ ":" ++ phase transform.phase ++ ";").toList) ++ '\n' :: rest))) := by
  unfold registration
  simp only [String.toList_append, List.append_assoc, String.toList_join, List.flatMap_map]
  rfl

theorem tells_directory : Tells (fun _ : String => True) id (· = '"') fun path => (directory path).toList := by
  refine Text.tells_quoted (@Text.tells_of_read Text.readDebugChar _ ?_ ?_)
  · intro c rest
    by_cases quote : c = '\''
    · rw [if_pos (beq_iff_eq.2 quote), quote]
      rfl
    · rw [if_neg (by simpa using quote)]
      exact Text.readDebugChar_debugChar c rest
  · intro c
    by_cases quote : c = '\''
    · exact ⟨'\\', ['\''], if_pos (beq_iff_eq.2 quote), by decide⟩
    · rw [if_neg (by simpa using quote)]
      exact Text.head?_debugChar c

theorem tells_registration (phaseOf : String → Phase) :
    Tells (Registration.Legible phaseOf) (Registration.mapTransforms Transform.bare) (fun c => c = 'N' ∨ c = 'S')
      fun registered => (registration registered).toList where
  view_eq {first second behind beyond} firstFit secondFit equal := by
    rw [toList_registration, toList_registration] at equal
    obtain ⟨scope, afterScope⟩ := (tells_optional tells_directory).view_eq (fun _ _ => trivial) (fun _ _ => trivial) equal
    obtain ⟨sameId, afterId⟩ := Tells.eq_of_append_cons (firstFit.id.notMem) (secondFit.id.notMem)
      (List.cons.inj afterScope).2
    have apart : ∀ c : Char, c = '*' → ¬c = 'T' := by
      rintro c rfl
      decide
    have ends : ∀ {rest : List Char} c others, '\n' :: rest = c :: others → ¬c = '*' := by
      rintro rest c others starts rfl
      exact absurd (List.cons.inj starts).1 (by decide)
    obtain ⟨entries, afterEntries⟩ := (tells_entry phaseOf).flatMap firstFit.entries secondFit.entries
      (tells_global.stops_flatMap firstFit.globals apart (by decide))
      (tells_global.stops_flatMap secondFit.globals apart (by decide)) afterId
    obtain ⟨globals, rest⟩ := tells_global.flatMap firstFit.globals secondFit.globals ends ends afterEntries
    have sameScope : first.scope = second.scope := by simpa using scope
    have sameEntries : first.taglib.entries.map (TagEntry.mapTransforms Transform.bare) =
        second.taglib.entries.map (TagEntry.mapTransforms Transform.bare) := SortedMap.ext_entries entries
    refine ⟨?_, (List.cons.inj rest).2⟩
    unfold Registration.mapTransforms
    dsimp only
    rw [sameScope, String.toList_inj.1 sameId, sameEntries, globals]
  starts registered _ := by
    obtain ⟨c, rest, written, begun⟩ :=
      (tells_optional tells_directory).starts registered.scope (fun _ _ => trivial)
    have shape := toList_registration registered []
    rw [List.append_nil, written] at shape
    exact ⟨c, _, shape, begun⟩

end Fingerprint

/-! ## Registries -/

/-- What is known of a transform: its name and its phase. -/
def Transform.signature (transform : Transform) : String × Phase :=
  (transform.name, transform.phase)

namespace Registry

/-- Tags mean the same in all files: their entries have the same rules, and transforms with the same names in the
same phases; so have the transforms for all tags. -/
structure Alike (first second : Registry) : Prop where
  rules : ∀ tag file, (first.lookup? tag file).map TagEntry.rules = (second.lookup? tag file).map TagEntry.rules
  transforms : ∀ tag file,
    (first.lookup? tag file).map (fun entry => entry.transforms.map Transform.signature) =
      (second.lookup? tag file).map fun entry => entry.transforms.map Transform.signature
  globals : ∀ file, (first.globals file).map Transform.signature = (second.globals file).map Transform.signature

/-- All registrations are legible. -/
def Legible (phaseOf : String → Phase) (registry : Registry) : Prop :=
  ∀ registration ∈ registry.registrations, registration.Legible phaseOf

variable {first second : Registry} {phaseOf : String → Phase}

theorem alike_of_mapTransforms (same : first.mapTransforms Transform.bare = second.mapTransforms Transform.bare) :
    first.Alike second := by
  have lookups : ∀ tag file, (first.lookup? tag file).map (TagEntry.mapTransforms Transform.bare) =
      (second.lookup? tag file).map (TagEntry.mapTransforms Transform.bare) := by
    intro tag file
    rw [← lookup?_mapTransforms, same, lookup?_mapTransforms]
  have bare : ∀ entry : TagEntry, (entry.mapTransforms Transform.bare).transforms.map Transform.signature =
      entry.transforms.map Transform.signature := by
    intro entry
    unfold TagEntry.transforms TagEntry.mapTransforms
    rw [List.map_append, List.map_append, List.map_map]
    rfl
  constructor
  · intro tag file
    have rules := congrArg (Option.map TagEntry.rules) (lookups tag file)
    rwa [Option.map_map, Option.map_map] at rules
  · intro tag file
    have transforms := congrArg (Option.map fun entry => entry.transforms.map Transform.signature) (lookups tag file)
    rw [Option.map_map, Option.map_map] at transforms
    have whole : ((fun entry : TagEntry => entry.transforms.map Transform.signature) ∘
        TagEntry.mapTransforms Transform.bare) = fun entry => entry.transforms.map Transform.signature := funext bare
    rwa [whole] at transforms
  · intro file
    have globals : (first.globals file).map Transform.bare = (second.globals file).map Transform.bare := by
      rw [← globals_mapTransforms, same, globals_mapTransforms]
    have signatures := congrArg (List.map Transform.signature) globals
    rwa [List.map_map, List.map_map] at signatures

/-- The fingerprint of a registry tells what its registrations say. -/
theorem mapTransforms_of_fingerprint (legible : first.Legible phaseOf) (alsoLegible : second.Legible phaseOf)
    (equal : first.fingerprint = second.fingerprint) :
    first.mapTransforms Transform.bare = second.mapTransforms Transform.bare := by
  have texts := congrArg String.toList equal
  unfold fingerprint at texts
  rw [String.toList_join, String.toList_join, List.flatMap_map, List.flatMap_map,
    ← List.append_nil (List.flatMap _ first.registrations), ← List.append_nil (List.flatMap _ second.registrations)] at texts
  have ends : ∀ c rest, [] = c :: rest → ¬(c = 'N' ∨ c = 'S') := by
    rintro c rest impossible
    cases impossible
  have same := ((Fingerprint.tells_registration phaseOf).flatMap legible alsoLegible ends ends texts).1
  unfold mapTransforms
  rw [same]

end Registry

/-! ## Keys -/

namespace Fingerprint

theorem nul_notMem_quoted {write : Char → List Char} (absent : ∀ c, '\x00' ∉ write c) (text : String) :
    '\x00' ∉ (String.ofList ('"' :: text.toList.flatMap write ++ ['"'])).toList := by
  rw [String.toList_ofList]
  intro member
  rcases List.mem_append.1 member with member | member
  · obtain ⟨c, -, written⟩ := List.mem_flatMap.1 (List.mem_of_ne_of_mem (by decide) member)
    exact absent c written
  · exact absurd member (by decide)

theorem nul_notMem_debugString (text : String) : '\x00' ∉ (Text.debugString text).toList :=
  nul_notMem_quoted Text.nul_notMem_debugChar text

theorem nul_notMem_directory (path : String) : '\x00' ∉ (directory path).toList := by
  refine nul_notMem_quoted (fun c => ?_) path
  split
  · decide
  · exact Text.nul_notMem_debugChar c

theorem nul_notMem_joined {parts : List String} (absent : ∀ part ∈ parts, '\x00' ∉ part.toList) :
    '\x00' ∉ (joined parts).toList := by
  unfold joined
  rw [String.toList_intercalate]
  cases parts with
  | nil => exact List.not_mem_nil
  | cons part parts =>
    obtain ⟨first, others⟩ := List.forall_mem_cons.1 absent
    rw [List.map_cons, Tells.intercalate_cons, List.flatMap_map]
    intro member
    rcases List.mem_append.1 member with member | member
    · exact first member
    · obtain ⟨other, among, member⟩ := List.mem_flatMap.1 member
      rcases List.mem_append.1 member with member | member
      · exact absurd member (by decide)
      · exact others other among member

theorem nul_notMem_optional {text : Option String} (absent : ∀ inner ∈ text, '\x00' ∉ inner.toList) :
    '\x00' ∉ (optional text).toList := by
  cases text with
  | none => decide
  | some inner =>
    rw [toList_optional_some]
    have inside := absent inner rfl
    simp only [List.mem_cons, List.mem_append, not_or]
    exact ⟨by decide, by decide, inside, by decide⟩

theorem nul_notMem_nesting (rules : Nesting) : '\x00' ∉ (nesting rules).toList := by
  have allowed : '\x00' ∉ (optional (rules.allowed.map fun allowed =>
      "\x7b" ++ joined (allowed.keys.map Text.debugString) ++ "\x7d")).toList := by
    refine nul_notMem_optional fun inner member => ?_
    obtain ⟨tags, -, rfl⟩ := Option.map_eq_some_iff.1 member
    have keys : '\x00' ∉ (joined (tags.keys.map Text.debugString)).toList := by
      refine nul_notMem_joined fun part member => ?_
      obtain ⟨tag, -, rfl⟩ := List.mem_map.1 member
      exact nul_notMem_debugString tag
    simp only [String.toList_append, List.mem_append, keys, or_false]
    decide
  have merge : '\x00' ∉ (joined (rules.merge.entries.map fun (tag, rule) =>
      Text.debugString tag ++ ": " ++ mergeRule rule)).toList := by
    refine nul_notMem_joined fun part member => ?_
    obtain ⟨⟨tag, rule⟩, -, rfl⟩ := List.mem_map.1 member
    simp only [String.toList_append, List.mem_append, nul_notMem_debugString, false_or]
    cases rule <;> decide
  unfold nesting
  simp only [String.toList_append, List.mem_append, allowed, merge, or_false]
  decide

theorem nul_notMem_entry (tag : TagEntry) : '\x00' ∉ (entry tag).toList := by
  have quoted : ∀ text : Option String, '\x00' ∉ (optional (text.map Text.debugString)).toList := by
    intro text
    refine nul_notMem_optional fun inner member => ?_
    obtain ⟨value, -, rfl⟩ := Option.map_eq_some_iff.1 member
    exact nul_notMem_debugString value
  have names : '\x00' ∉ (joined (tag.transforms.map fun transform => Text.debugString transform.name)).toList := by
    refine nul_notMem_joined fun part member => ?_
    obtain ⟨transform, -, rfl⟩ := List.mem_map.1 member
    exact nul_notMem_debugString transform.name
  have truths : ∀ value, '\x00' ∉ (truth value).toList := by decide
  unfold entry
  simp only [String.toList_append, List.mem_append, nul_notMem_debugString, names, quoted, truths, nul_notMem_nesting,
    or_false]
  decide

theorem nul_notMem_registration {phaseOf : String → Phase} {registered : Registration}
    (legible : registered.Legible phaseOf) : '\x00' ∉ (registration registered).toList := by
  have shape := toList_registration registered []
  rw [List.append_nil] at shape
  have scope : '\x00' ∉ (optional (registered.scope.map directory)).toList := by
    refine nul_notMem_optional fun inner member => ?_
    obtain ⟨path, -, rfl⟩ := Option.map_eq_some_iff.1 member
    exact nul_notMem_directory path
  have entries : '\x00' ∉ registered.taglib.entries.entries.flatMap fun (_, tag) => (entry tag ++ ";").toList := by
    intro member
    obtain ⟨⟨key, tag⟩, -, written⟩ := List.mem_flatMap.1 member
    simp only [String.toList_append, List.mem_append, nul_notMem_entry, false_or] at written
    exact absurd written (by decide)
  have globals : '\x00' ∉ registered.taglib.globals.flatMap fun transform =>
      ("*" ++ transform.name ++ ":" ++ phase transform.phase ++ ";").toList := by
    intro member
    obtain ⟨transform, among, written⟩ := List.mem_flatMap.1 member
    have phases : ∀ one, '\x00' ∉ (phase one).toList := by
      intro one
      cases one <;> decide
    simp only [String.toList_append, List.mem_append, (legible.globals transform among).nul_notMem, phases, or_false]
      at written
    exact absurd written (by decide)
  rw [shape]
  simp only [List.mem_append, List.mem_cons, scope, legible.id.nul_notMem, entries, globals, List.not_mem_nil, false_or,
    or_false]
  decide

end Fingerprint

/-- The fingerprint of a legible registry holds no character without bits. -/
theorem Registry.nul_notMem_fingerprint {registry : Registry} {phaseOf : String → Phase}
    (legible : registry.Legible phaseOf) : '\x00' ∉ registry.fingerprint.toList := by
  unfold fingerprint
  rw [String.toList_join, List.flatMap_map]
  intro member
  obtain ⟨registered, among, written⟩ := List.mem_flatMap.1 member
  exact Fingerprint.nul_notMem_registration (legible registered among) written

namespace Digest

theorem ofNat_ne_zero {n : Nat} (low : 0 < n) (high : n < 256) : UInt8.ofNat n ≠ 0 := by
  intro zero
  have number := congrArg UInt8.toNat zero
  rw [UInt8.toNat_ofNat', Nat.mod_eq_of_lt high] at number
  exact absurd number (Nat.ne_of_gt low)

/-- Only one character is written with the byte that has no bits. -/
theorem ne_zero_of_mem_utf8EncodeChar {c : Char} (other : c ≠ '\x00') : ∀ byte ∈ String.utf8EncodeChar c, byte ≠ 0 := by
  have number : 0 < c.val.toNat :=
    Nat.pos_of_ne_zero fun zero => other (Char.ext (UInt32.toNat_inj.1 zero))
  unfold String.utf8EncodeChar
  dsimp only
  split_ifs
  all_goals
    repeat refine List.forall_mem_cons.2 ⟨ofNat_ne_zero (by omega) (by omega), ?_⟩
    exact fun _ none => absurd none List.not_mem_nil

theorem zero_notMem_textBytes {text : String} (absent : '\x00' ∉ text.toList) : 0 ∉ textBytes text := by
  intro member
  obtain ⟨c, among, byte⟩ := List.mem_flatMap.1 member
  have other : c ≠ '\x00' := by
    rintro rfl
    exact absent among
  exact ne_zero_of_mem_utf8EncodeChar other 0 byte rfl

end Digest

/-- Compilers with one digest, which has no collisions, have one key for two sources only if their registries have one
fingerprint. -/
theorem Compiler.fingerprint_of_key {first second : Compiler} {source other : String}
    (injective : Function.Injective first.digest) (sameDigest : second.digest = first.digest)
    (absent : '\x00' ∉ first.registry.fingerprint.toList) (alsoAbsent : '\x00' ∉ second.registry.fingerprint.toList)
    (equal : first.key source = second.key other) : first.registry.fingerprint = second.registry.fingerprint := by
  unfold key at equal
  rw [sameDigest] at equal
  have material := injective equal
  unfold keyMaterial at material
  exact Digest.textBytes_injective (Tells.eq_of_append_cons_last (Digest.zero_notMem_textBytes absent)
    (Digest.zero_notMem_textBytes alsoAbsent)
    ((List.append_cons _ _ _).trans (material.trans (List.append_cons _ _ _).symm)))

namespace Registry

/-- As far as registries are legible, nothing that can be observed of them is missing in their fingerprints: with one
fingerprint they are alike. So are the registries of compilers that have a key in common, whatever they compile and
whatever their options are. -/
theorem alike_of_fingerprint {first second : Registry} {phaseOf : String → Phase} (legible : first.Legible phaseOf)
    (alsoLegible : second.Legible phaseOf) :
    (first.fingerprint = second.fingerprint → first.Alike second) ∧
      ∀ (compiler other : Compiler) (source otherSource : String), compiler.registry = first → other.registry = second →
        other.digest = compiler.digest → Function.Injective compiler.digest →
        compiler.key source = other.key otherSource → first.Alike second := by
  have alike : first.fingerprint = second.fingerprint → first.Alike second := fun same =>
    alike_of_mapTransforms (mapTransforms_of_fingerprint legible alsoLegible same)
  refine ⟨alike, ?_⟩
  rintro compiler other source otherSource rfl rfl sameDigest injective sameKey
  exact alike (Compiler.fingerprint_of_key injective sameDigest (nul_notMem_fingerprint legible)
    (nul_notMem_fingerprint alsoLegible) sameKey)

/-- What transforms do is not told, neither in fingerprints nor in keys. -/
theorem alike_of_fingerprint_bodies :
    let first := ofTag "card" [{ name := "mark", apply := fun _ => pure .unchanged }]
    let second := ofTag "card" [{ name := "mark", apply := fun _ => pure .changed }]
    let compiler (registry : Registry) : Compiler := { registry, options := {}, fuel := 20, digest := Digest.only [] "" }
    first.fingerprint = second.fingerprint ∧ (compiler first).key "one" = (compiler second).key "one" ∧
      first.Alike second := by
  intro first second compiler
  have legible : ∀ apply, (ofTag "card" [{ name := "mark", apply }]).Legible fun _ => .enter := by
    intro apply registration member
    obtain rfl := List.mem_singleton.1 member
    have id : Fingerprint.Unmarked '|' "card" := Fingerprint.unmarked_of_all (by decide)
    refine ⟨id, ?_, ?_⟩
    · intro pair among
      obtain rfl := List.mem_singleton.1 among
      refine ⟨rfl, fun transform declared => ?_⟩
      obtain rfl := List.mem_singleton.1 declared
      rfl
    · intro transform none
      cases none
  have injective : Function.Injective (Digest.only [] "") := Digest.only_injective (by decide)
  have sameKey : (compiler first).key "one" = (compiler second).key "one" := rfl
  exact ⟨rfl, sameKey, (alike_of_fingerprint (legible _) (legible _)).2 (compiler first) (compiler second) "one" "one"
    rfl rfl rfl injective sameKey⟩

/-- Nor is it told when the transforms of a tag run. -/
theorem not_alike_of_fingerprint :
    let registry (phase : Phase) := ofTag "card" [{ name := "mark", phase, apply := fun _ => pure .unchanged }]
    (registry .enter).fingerprint = (registry .leave).fingerprint ∧ ¬(registry .enter).Alike (registry .leave) := by
  intro registry
  refine ⟨rfl, fun alike => ?_⟩
  have transforms := alike.transforms "card" "page.html"
  rw [lookup?_ofTag, lookup?_ofTag] at transforms
  simp [TagEntry.transforms, Transform.signature] at transforms

end Registry

end HtmlTemplate
