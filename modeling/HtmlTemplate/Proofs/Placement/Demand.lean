import HtmlTemplate.Proofs.Naming.Frame
import HtmlTemplate.Proofs.Placement.Conditional
import HtmlTemplate.Proofs.Placement.Reading
import HtmlTemplate.Proofs.Walk.Calm

/-!
# How often control tags change

An element with an older name of a control tag changes twice, an element with the name itself once, and any
other element once for each of its directives. A change lowers what is left for the node, and raises it for
no other one.
-/

namespace HtmlTemplate

open HtmlTemplate.Tree

/-! ## Entries of the core taglib -/

/-- Of entries with distinct keys the map holds each. -/
theorem SortedMap.find?_ofList {α : Type} {list : List (String × α)} (distinct : (list.map Prod.fst).Nodup) (key : String) :
    (SortedMap.ofList list).find? key = list.lookup key := by
  have folded : ∀ (list : List (String × α)) (map : SortedMap α), (list.map Prod.fst).Nodup →
      (list.foldl (fun map entry => map.insert entry.1 entry.2) map).find? key = (list.lookup key).or (map.find? key) := by
    intro list
    induction list with
    | nil => exact fun map _ => rfl
    | cons first list hypothesis =>
        intro map distinct
        obtain ⟨absent, distinct⟩ := List.nodup_cons.1 distinct
        have found : (map.insert first.1 first.2).find? key = if key = first.1 then some first.2 else map.find? key :=
          lookup_insertEntry first.1 first.2 map.entries key
        rw [List.foldl_cons, hypothesis _ distinct, found, lookup_cons_eq]
        by_cases same : key = first.1
        · have none : list.lookup key = none := by
            refine List.lookup_eq_none_iff.2 fun entry member => ?_
            have apart : key ≠ entry.1 := fun other => absent (List.mem_map.2 ⟨entry, member, other.symm.trans same⟩)
            simpa using apart
          rw [none, if_pos same, if_pos same]
          rfl
        · rw [if_neg same, if_neg same]
  rw [SortedMap.ofList, folded list SortedMap.empty distinct]
  exact Option.or_none

namespace Control

/-- The entry of a tag in the core taglib. -/
def entryOf (tag : String) : Option TagEntry :=
  entries.find? fun entry => entry.rules.name == tag

theorem mem_entries_of_entryOf {tag : String} {entry : TagEntry} (found : entryOf tag = some entry) :
    entry ∈ entries ∧ entry.rules.name = tag :=
  ⟨List.mem_of_find?_eq_some found, by simpa using List.find?_some found⟩

theorem lookup?_core (tag file : String) : Registry.core.lookup? tag file = entryOf tag := by
  have applies : Registry.core.applicable file = [{ taglib }] := by
    simp [Registry.applicable, Registry.core, Registry.register, Registration.appliesTo]
  have keyed : ∀ list : List TagEntry, (list.map fun entry => (entry.rules.name, entry)).lookup tag =
      list.find? fun entry => entry.rules.name == tag := by
    intro list
    induction list with
    | nil => rfl
    | cons first list hypothesis =>
        rw [List.map_cons, List.lookup_cons, List.find?_cons, hypothesis, BEq.comm]
  have found : taglib.entries.find? tag = entryOf tag :=
    (SortedMap.find?_ofList (by decide) tag).trans (keyed entries)
  rw [Registry.lookup?, applies]
  simp [found]

/-- The transform for all tags. -/
def directives : Transform :=
  { name := "attribute-directives", apply := Directive.lower }

theorem globals_core (file : String) : Registry.core.globals file = [directives] := by
  have applies : Registry.core.applicable file = [{ taglib }] := by
    simp [Registry.applicable, Registry.core, Registry.register, Registration.appliesTo]
  rw [Registry.globals, applies]
  rfl

/-- What a transform of the core taglib for a tag of its own is. -/
inductive Own (entry : TagEntry) (own : Transform) : Prop
  /-- A control tag is replaced, or refused. -/
  | control : entry.rules.deprecated = none →
      own.apply = Conditional.lower ∨ own.apply = Iteration.lower ∨ own.apply = Comment.lower ∨
        own.apply = Conditional.refuseStray → Own entry own
  /-- A tag with an older name is given the name of a control tag. -/
  | older {new : String} {control : TagEntry} : entry.rules.deprecated.isSome = true →
      entryOf new = some control → control.rules.deprecated = none →
        (own.apply = fun id => do
          Edit.changeTree fun tree => tree.setKind id (.element new)
          return .changed) → Own entry own

theorem own_of_entryOf {tag : String} {entry : TagEntry} (found : entryOf tag = some entry) :
    entry.rules.renderer = none ∧ ∃ own, entry.declared = [own] ∧ own.phase = .enter ∧ Own entry own := by
  have known := List.mem_of_find?_eq_some found
  simp only [entries, List.mem_cons, List.not_mem_nil, or_false] at known
  rcases known with rfl | rfl | rfl | rfl | rfl | rfl | rfl | rfl | rfl
  · exact ⟨rfl, _, rfl, rfl, .control rfl (.inl rfl)⟩
  · exact ⟨rfl, _, rfl, rfl, .control rfl (.inr (.inr (.inr rfl)))⟩
  · exact ⟨rfl, _, rfl, rfl, .control rfl (.inr (.inr (.inr rfl)))⟩
  · exact ⟨rfl, _, rfl, rfl, .control rfl (.inr (.inl rfl))⟩
  · exact ⟨rfl, _, rfl, rfl, .control rfl (.inr (.inr (.inl rfl)))⟩
  · exact ⟨rfl, _, rfl, rfl, @Own.older _ _ "if" ifEntry rfl rfl rfl rfl⟩
  · exact ⟨rfl, _, rfl, rfl, @Own.older _ _ "else-if" (branchEntry "else-if") rfl rfl rfl rfl⟩
  · exact ⟨rfl, _, rfl, rfl, @Own.older _ _ "else" (branchEntry "else") rfl rfl rfl rfl⟩
  · exact ⟨rfl, _, rfl, rfl, @Own.older _ _ "for" forEntry rfl rfl rfl rfl⟩

/-- The transforms of a tag in the core taglib. -/
theorem transformsFor_core {tree : Tree} {id : NodeId} {tag : String} (tagged : (tree.kind id).tag? = some tag) :
    Walk.transformsFor Registry.core tree id .leave = [] ∧
      (entryOf tag = none ∧ Walk.transformsFor Registry.core tree id .enter = [directives] ∨
        ∃ entry own, entryOf tag = some entry ∧ Own entry own ∧
          Walk.transformsFor Registry.core tree id .enter = [own, directives]) := by
  have tagged : (tree.node id).tag? = some tag := tagged
  have listed : ∀ phase, Walk.transformsFor Registry.core tree id phase =
      ((((entryOf tag).map TagEntry.transforms).getD [] ++ [directives]).filter fun transform => transform.phase == phase) := by
    intro phase
    rw [Walk.transformsFor, tagged]
    dsimp only
    rw [lookup?_core, globals_core]
  rw [listed, listed]
  cases found : entryOf tag with
  | none => exact ⟨rfl, .inl ⟨rfl, rfl⟩⟩
  | some entry =>
      obtain ⟨plain, own, declared, phase, isOwn⟩ := own_of_entryOf found
      have transforms : entry.transforms = [own] := by
        rw [TagEntry.transforms, plain, declared]
        rfl
      have leaves : (own.phase == Phase.leave) = false := by
        rw [phase]
        rfl
      have enters : (own.phase == Phase.enter) = true := by
        rw [phase]
        rfl
      refine ⟨?_, .inr ⟨entry, own, rfl, isOwn, ?_⟩⟩
      · simp [transforms, leaves, directives]
      · simp [transforms, enters, directives]

theorem transformsFor_core_leave (tree : Tree) (id : NodeId) :
    Walk.transformsFor Registry.core tree id .leave = [] := by
  cases tagged : (tree.kind id).tag? with
  | none => exact Walk.transformsFor_of_untagged tagged .leave
  | some tag => exact (transformsFor_core tagged).1

/-! ## Demands -/

/-- How many attributes with these names could be directives. -/
def directiveCount (attributes : List Attribute) : Nat :=
  (attributes.map Attribute.name).count "for" + (attributes.map Attribute.name).count "if"

/-- How often the transforms for a node may still change it. -/
def demand (tree : Tree) (id : NodeId) : Nat :=
  match (tree.kind id).tag? with
  | none => 0
  | some tag =>
      match entryOf tag with
      | some entry => if entry.rules.deprecated.isSome then 2 else 1
      | none => directiveCount (tree.node id).attributes

variable {root id next host : NodeId} {before after tree : Tree} {tag : String}

theorem demand_of_untagged (untagged : (tree.kind id).tag? = none) : demand tree id = 0 := by
  rw [demand, untagged]

theorem demand_of_tagged (tagged : (tree.kind id).tag? = some tag) : demand tree id =
    ((entryOf tag).map fun entry => if entry.rules.deprecated.isSome then 2 else 1).getD
      (directiveCount (tree.node id).attributes) := by
  rw [demand, tagged]
  dsimp only
  cases entryOf tag <;> rfl

theorem demand_of_control {entry : TagEntry} (tagged : (tree.kind id).tag? = some tag) (found : entryOf tag = some entry)
    (current : entry.rules.deprecated = none) : demand tree id = 1 := by
  rw [demand_of_tagged tagged, found, Option.map_some, current]
  rfl

theorem demand_of_older {entry : TagEntry} (tagged : (tree.kind id).tag? = some tag) (found : entryOf tag = some entry)
    (older : entry.rules.deprecated.isSome = true) : demand tree id = 2 := by
  rw [demand_of_tagged tagged, found, Option.map_some, if_pos older]
  rfl

theorem demand_of_common (tagged : (tree.kind id).tag? = some tag) (unknown : entryOf tag = none) :
    demand tree id = directiveCount (tree.node id).attributes := by
  rw [demand_of_tagged tagged, unknown]
  rfl

theorem demand_congr {other : Tree} (kind : other.kind id = tree.kind id)
    (attributes : (other.node id).attributes = (tree.node id).attributes) : demand other id = demand tree id := by
  rw [demand, demand, kind, attributes]

/-- Nodes without two attributes of a name change twice at most. -/
theorem demand_le_two (single : tree.Single) (id : NodeId) : demand tree id ≤ 2 := by
  cases tagged : (tree.kind id).tag? with
  | none => rw [demand_of_untagged tagged]; exact Nat.zero_le 2
  | some tag =>
      rw [demand_of_tagged tagged]
      cases entryOf tag with
      | some entry =>
          rw [Option.map_some, Option.getD_some]
          split <;> decide
      | none =>
          have loops := single id "for" (by decide)
          have tests := single id "if" (by decide)
          rw [Option.map_none, Option.getD_none, directiveCount]
          omega

/-- A directive is used up. -/
theorem directiveCount_eraseP {attributes : List Attribute} {name : String} (directive : name = "for" ∨ name = "if")
    (carried : (attributes.find? fun candidate => candidate.name == name).isSome = true) :
    directiveCount (attributes.eraseP fun candidate => candidate.name == name) + 1 = directiveCount attributes := by
  obtain ⟨found, isFound⟩ := Option.isSome_iff_exists.1 carried
  have member := List.mem_of_find?_eq_some isFound
  have named : found.name = name := by simpa using List.find?_some isFound
  obtain ⟨first, front, rest, -, same, split, erased⟩ :=
    @List.exists_of_eraseP _ (fun candidate : Attribute => candidate.name == name) _ _ member (by simpa using named)
  have firstName : first.name = name := by simpa using same
  rw [erased, split, directiveCount, directiveCount]
  rcases directive with rfl | rfl
  · simp [firstName]
    omega
  · simp [firstName]
    omega

end Control

/-! ## What a change leaves -/

open Control (demand directiveCount entryOf Own directives)

/-- A change of a node: it was allowed, it counts, and other nodes are as they were or new. -/
structure Advanced (root id : NodeId) (before after : Tree) : Prop where
  template : after.IsTemplate root
  size_le : before.size ≤ after.size
  others : ∀ other, other ≠ id → before.Has other → after.parent other ≠ none →
    before.parent other ≠ none ∧ after.kind other = before.kind other ∧
      (after.node other).attributes = (before.node other).attributes
  fresh : ∀ other, ¬before.Has other → (after.kind other).tag? = none
  allowed : 1 ≤ demand before id
  lowered : after.parent id ≠ none → demand after id + 1 ≤ demand before id

/-- What a round of transforms for entering a node comes to. -/
inductive Turn (root id : NodeId) (before : Tree) : Outcome → Tree → Prop
  | unchanged {after : Tree} : before.SameShape after → Turn root id before .unchanged after
  | changed {after : Tree} : Advanced root id before after → after.parent id ≠ none → Turn root id before .changed after
  | replaced {next : NodeId} {after : Tree} : Advanced root id before after → ¬before.Has next → next ≠ id →
      after.parent next ≠ none → Turn root id before (.replaced next) after

namespace Construct

variable {root id host : NodeId} {before tree : Tree} {context : Context}

/-- The document is below no node. -/
theorem not_beyond_root (template : before.IsTemplate root) : ¬before.Beyond host [] root := by
  rintro ⟨top, linked, -, onPath⟩
  have same := onPath_of_root template.top onPath
  rw [same, template.top] at linked
  cases linked

theorem Building.template (building : Building before host tree) (template : before.IsTemplate root) : tree.IsTemplate root := by
  refine ⟨building.wellFormed, building.placed, building.worked.has template.present, ?_, ?_, fun id tag tagged => ?_⟩
  · rw [building.worked.kind root template.present, template.document]
  · rw [building.worked.parent_eq template.present (not_beyond_root template), template.top]
  · by_cases present : before.Has id
    · rw [building.worked.kind id present] at tagged ⊢
      exact template.plain id tag tagged
    · rw [building.worked.untagged id present] at tagged
      cases tagged

/-- Nodes with parents had parents before. -/
theorem Building.attached (building : Building before host tree) {other : NodeId} (present : before.Has other)
    (linked : tree.parent other ≠ none) : before.parent other ≠ none := by
  by_cases beyond : before.Beyond host [] other
  · exact beyond.attached
  · rwa [← building.worked.parent_eq present beyond]

/-- A tag that is replaced for good. -/
theorem Replaces.turn {outcome : Outcome} {after : Context} (replaces : Replaces context host id outcome after)
    (template : context.tree.IsTemplate root) (present : context.tree.Has id) (allowed : 1 ≤ demand context.tree id) :
    Turn root id context.tree outcome after.tree := by
  obtain ⟨new, rfl, building, gone, placed, absent⟩ := replaces
  refine .replaced ⟨building.template template, building.worked.size_le, ?_, building.worked.untagged, allowed,
    fun linked => absurd gone linked⟩ absent (fun same => absent (same ▸ present)) (by rw [placed]; exact Option.some_ne_none host)
  intro other _ known linked
  exact ⟨building.attached known linked, building.worked.kind other known, building.worked.attributes other known⟩

theorem isTemplate_removeAttribute (template : before.IsTemplate root) (id : NodeId) (name : String) :
    (before.removeAttribute id name).2.IsTemplate root := by
  have links := removeAttribute_sameLinks before id name
  refine ⟨(Edited.removeAttribute id name).wellFormed template.wellFormed,
    wellPlaced_removeAttribute template.placed id name, ?_, ?_, ?_, fun other tag tagged => ?_⟩
  · exact (has_update _ _ _ _).2 template.present
  · rw [(links root).1, template.document]
  · rw [(links root).2.2, template.top]
  · rw [(links other).1] at tagged ⊢
    exact template.plain other tag tagged

/-- A tag that a construct is put around. -/
theorem Encloses.turn {outcome : Outcome} {after : Context} {tag : String} (encloses : Encloses context host id outcome after)
    (template : context.tree.IsTemplate root) (present : context.tree.Has id)
    (tagged : (context.tree.kind id).tag? = some tag) (unknown : entryOf tag = none) :
    Turn root id context.tree outcome after.tree := by
  obtain ⟨new, name, rfl, directive, carried, building, placed, absent⟩ := encloses
  have links := removeAttribute_sameLinks context.tree id name
  have size : (context.tree.removeAttribute id name).2.size = context.tree.size := size_update _ _ _
  have had : ∀ {other}, (context.tree.removeAttribute id name).2.Has other ↔ context.tree.Has other := by
    intro other
    rw [Has, size, Has]
  have kindId : after.tree.kind id = context.tree.kind id :=
    (building.worked.kind id (had.2 present)).trans (links id).1
  have attributes : (after.tree.node id).attributes =
      (context.tree.node id).attributes.eraseP fun candidate => candidate.name == name := by
    rw [building.worked.attributes id (had.2 present), Tree.removeAttribute, node_update_self present]
  have fewer := Control.directiveCount_eraseP directive carried
  have demanded := Control.demand_of_common tagged unknown
  refine .replaced ⟨building.template (isTemplate_removeAttribute template id name), ?_, ?_, ?_, ?_, ?_⟩ absent
    (fun same => absent (same ▸ present)) (by rw [placed]; exact Option.some_ne_none host)
  · rw [← size]
    exact building.worked.size_le
  · intro other different known linked
    refine ⟨?_, (building.worked.kind other (had.2 known)).trans (links other).1, ?_⟩
    · rw [← (links other).2.2]
      exact building.attached (had.2 known) linked
    · rw [building.worked.attributes other (had.2 known), Tree.removeAttribute, node_update_of_ne different]
  · exact fun other unknown => building.worked.untagged other fun there => unknown (had.1 there)
  · omega
  · intro _
    rw [Control.demand_of_common (by rw [kindId, tagged]) unknown, attributes, demanded]
    omega

end Construct
end HtmlTemplate
