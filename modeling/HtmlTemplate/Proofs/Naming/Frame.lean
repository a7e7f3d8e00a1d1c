import HtmlTemplate.Scope
import Mathlib

/-!
# Frames of names

What a declaration does to the names in force. A new identifier is none of the taken names, and code is
renamed by the innermost frame that has the name.
-/

namespace HtmlTemplate

/-! ## Maps -/

namespace SortedMap

variable {α : Type} {map : SortedMap α} {key other : String} {value : α}

@[simp]
theorem find?_empty : (empty : SortedMap α).find? key = none :=
  rfl

theorem lookup_cons_eq (entry : String × α) (entries : List (String × α)) (key : String) :
    (entry :: entries).lookup key = if key = entry.1 then some entry.2 else entries.lookup key := by
  rw [List.lookup_cons]
  by_cases same : key = entry.1
  · rw [if_pos same, beq_iff_eq.2 same]
  · rw [if_neg same, beq_eq_false_iff_ne.2 same]

theorem lookup_insertEntry (key : String) (value : α) (entries : List (String × α)) (other : String) :
    (insertEntry key value entries).lookup other =
      if other = key then some value else entries.lookup other := by
  induction entries with
  | nil => exact lookup_cons_eq (key, value) [] other
  | cons entry entries hypothesis =>
      unfold insertEntry
      split
      · exact lookup_cons_eq (key, value) (entry :: entries) other
      · split
        · next equal =>
            rw [lookup_cons_eq, lookup_cons_eq, ← equal]
            by_cases same : other = key <;> simp [same]
        · next different =>
            rw [lookup_cons_eq, hypothesis, lookup_cons_eq]
            by_cases same : other = key
            · have apart : other ≠ entry.1 := fun equal => different (same.symm.trans equal)
              rw [if_neg apart]
              simp [same]
            · simp [same]

/-- The entry that was put in last is found, and the others as before. -/
theorem find?_insert : (map.insert key value).find? other =
    if other = key then some value else map.find? other :=
  lookup_insertEntry key value map.entries other

theorem find?_erase : (map.erase key).find? other = if other = key then none else map.find? other := by
  unfold find? erase
  dsimp only
  induction map.entries with
  | nil => simp
  | cons entry entries hypothesis =>
      by_cases dropped : entry.1 = key
      · rw [List.filter_cons_of_neg (by simpa using dropped), hypothesis, lookup_cons_eq, dropped]
        by_cases same : other = key <;> simp [same]
      · rw [List.filter_cons_of_pos (by simpa using dropped), lookup_cons_eq, hypothesis, lookup_cons_eq]
        by_cases same : other = key
        · have apart : other ≠ entry.1 := fun equal => dropped (equal.symm.trans same)
          rw [if_neg apart]
          simp [same]
        · simp [same]

/-- Keys differ, so the entries of a map are what is found in it. -/
theorem mem_entries_iff : (key, value) ∈ map.entries ↔ map.find? key = some value := by
  unfold find?
  constructor
  · intro member
    obtain ⟨front, back, split⟩ := List.append_of_mem member
    refine List.lookup_eq_some_iff.2 ⟨front, back, split, fun entry before => ?_⟩
    have sorted := map.sorted
    rw [split, List.pairwise_append] at sorted
    have less := sorted.2.2 entry before (key, value) List.mem_cons_self
    simpa using fun equal : key = entry.1 => String.lt_irrefl key (equal ▸ less)
  · intro found
    obtain ⟨front, back, split, -⟩ := List.lookup_eq_some_iff.1 found
    rw [split]
    simp

theorem mem_keys_iff : key ∈ map.keys ↔ ∃ value, map.find? key = some value := by
  simp only [keys, List.mem_map, Prod.exists, exists_and_right, exists_eq_right, mem_entries_iff]

end SortedMap

namespace Scope

/-! ## New identifiers -/

variable {taken : List String} {name : String} {scope : Scope}

theorem numbered_injective (name : String) : Function.Injective (numbered name) := by
  intro first second equal
  unfold numbered at equal
  exact Nat.repr_injective (String.append_right_inj (name ++ "_") |>.1 equal)

theorem append_ne_self {name ending : String} (nonempty : ending ≠ "") : name ++ ending ≠ name := by
  intro equal
  have length := congrArg String.length equal
  rw [String.length_append] at length
  have positive : ending.length ≠ 0 := fun zero => nonempty (String.length_eq_zero_iff.1 zero)
  omega

/-- What is tried for a name, in order: the name itself, and the name with each number from one on. -/
def candidate (name : String) : Nat → String
  | 0 => name
  | n + 1 => numbered name (n + 1)

theorem candidate_of_pos (name : String) {n : Nat} (positive : 1 ≤ n) : candidate name n = numbered name n := by
  cases n with
  | zero => exact absurd positive (Nat.not_succ_le_zero 0)
  | succ n => rfl

theorem numbered_ne_self (name : String) (n : Nat) : numbered name n ≠ name := by
  intro same
  unfold numbered at same
  rw [String.append_assoc] at same
  exact append_ne_self (by simp) same

theorem candidate_injective (name : String) : Function.Injective (candidate name) := by
  intro first second same
  cases first with
  | zero =>
      cases second with
      | zero => rfl
      | succ second => exact absurd same.symm (numbered_ne_self name _)
  | succ first =>
      cases second with
      | zero => exact absurd same (numbered_ne_self name _)
      | succ second => exact numbered_injective name same

/-- A search passes by taken names only, and gives a taken one only when its budget is used up. -/
theorem exists_firstFree (taken : List String) (name : String) (budget n : Nat) :
    ∃ m, n ≤ m ∧ firstFree taken name budget n = numbered name m ∧
      (∀ k, n ≤ k → k < m → numbered name k ∈ taken) ∧ (numbered name m ∈ taken → m = n + budget) := by
  induction budget generalizing n with
  | zero => exact ⟨n, Nat.le_refl n, rfl, fun k low high => absurd high (Nat.not_lt.2 low), fun _ => rfl⟩
  | succ budget hypothesis =>
      unfold firstFree
      split
      · next here =>
          obtain ⟨m, start, same, passed, last⟩ := hypothesis (n + 1)
          refine ⟨m, Nat.le_of_succ_le start, same, fun k low high => ?_, fun member => ?_⟩
          · rcases Nat.eq_or_lt_of_le low with rfl | low
            · exact List.contains_iff_mem.1 here
            · exact passed k low high
          · rw [last member]
            omega
      · next free =>
          refine ⟨n, Nat.le_refl n, rfl, fun k low high => absurd high (Nat.not_lt.2 low), fun member => ?_⟩
          exact absurd (List.contains_iff_mem.2 member) free

/-- There are no more different names among those that are taken than names. -/
theorem count_le_of_injective {candidates : Nat → String} (distinct : Function.Injective candidates) {count : Nat}
    (each : ∀ k < count, candidates k ∈ taken) : count ≤ taken.length := by
  have nodup : ((List.range count).map candidates).Nodup := List.nodup_range.map distinct
  have subset : (List.range count).map candidates ⊆ taken := by
    intro candidate member
    obtain ⟨k, inside, rfl⟩ := List.mem_map.1 member
    exact each k (List.mem_range.1 inside)
  have bound := (List.subperm_of_subset nodup subset).length_le
  rwa [List.length_map, List.length_range] at bound

/-- A new identifier is none of the names that are taken: more numbers are tried than there are names. -/
theorem unique_notMem (taken : List String) (name : String) : unique taken name ∉ taken := by
  unfold unique
  split
  · obtain ⟨m, -, found, passed, last⟩ := exists_firstFree taken name taken.length 1
    rw [found]
    intro ends
    obtain rfl := last ends
    have tried : ∀ k < taken.length + 1, numbered name (1 + k) ∈ taken := by
      intro k inside
      rcases Nat.lt_or_eq_of_le (Nat.le_of_lt_succ inside) with before | rfl
      · exact passed (1 + k) (Nat.le_add_right 1 k) (Nat.add_lt_add_left before 1)
      · exact ends
    have distinct : Function.Injective fun k => numbered name (1 + k) :=
      (numbered_injective name).comp (add_right_injective 1)
    exact absurd (count_le_of_injective distinct tried) (Nat.not_succ_le_self _)
  · next free => exact fun member => free (List.contains_iff_mem.2 member)

/-- The least candidate that is free is the one that is given. It comes behind no more candidates than names are taken. -/
theorem exists_isLeast (taken : List String) (name : String) :
    ∃ n ≤ taken.length, IsLeast {n | candidate name n ∉ taken} n ∧ unique taken name = candidate name n := by
  have free := unique_notMem taken name
  by_cases member : name ∈ taken
  · have searched : unique taken name = firstFree taken name taken.length 1 := if_pos (List.contains_iff_mem.2 member)
    obtain ⟨n, start, found, passed, -⟩ := exists_firstFree taken name taken.length 1
    have same : unique taken name = candidate name n := by
      rw [searched, found, candidate_of_pos name start]
    have met : ∀ k < n, candidate name k ∈ taken := by
      intro k before
      cases k with
      | zero => exact member
      | succ k => exact passed (k + 1) (Nat.succ_pos k) before
    rw [same] at free
    refine ⟨n, count_le_of_injective (candidate_injective name) met, ⟨free, fun k other => ?_⟩, same⟩
    exact Nat.le_of_not_lt fun before => other (met k before)
  · have same : unique taken name = name := if_neg (mt List.contains_iff_mem.1 member)
    exact ⟨0, Nat.zero_le _, ⟨member, fun _ _ => Nat.zero_le _⟩, same⟩

theorem unique_eq_of_isLeast {n : Nat} (least : IsLeast {n | candidate name n ∉ taken} n) :
    unique taken name = candidate name n := by
  obtain ⟨m, -, first, same⟩ := exists_isLeast taken name
  rw [same, first.unique least]

/-! ## Declarations -/

theorem mem_takenNames : name ∈ scope.takenNames ↔ name ∈ reservedNames ∨
    (∃ declaration ∈ scope.hoisted, declaration.name = name) ∨
      ∃ frame ∈ scope.frames, ∃ key identifier, frame.find? key = some identifier ∧
        (key = name ∨ identifier = name) := by
  simp only [takenNames, List.mem_append, List.mem_map, List.mem_flatMap, SortedMap.mem_keys_iff, Prod.exists,
    exists_eq_right, SortedMap.mem_entries_iff, or_assoc]
  refine or_congr_right (or_congr_right (exists_congr fun frame => and_congr_right fun _ => ?_))
  constructor
  · rintro (⟨identifier, found⟩ | ⟨key, found⟩)
    · exact ⟨name, identifier, found, .inl rfl⟩
    · exact ⟨key, name, found, .inr rfl⟩
  · rintro ⟨key, identifier, found, rfl | rfl⟩
    · exact .inl ⟨identifier, found⟩
    · exact .inr ⟨key, found⟩

section Declaring

variable {after : Scope} {identifier : String}

/-- The identifier that is declared for a name is none of the names that were taken. -/
theorem declare_notMem (declares : scope.declare name = (identifier, after)) : identifier ∉ scope.takenNames := by
  obtain ⟨rfl, -⟩ := Prod.mk.inj declares
  exact unique_notMem _ _

theorem declare_inner (declares : scope.declare name = (identifier, after)) :
    after.inner = scope.inner.insert name identifier := by
  obtain ⟨rfl, rfl⟩ := Prod.mk.inj declares
  rfl

theorem declare_outer (declares : scope.declare name = (identifier, after)) : after.outer = scope.outer := by
  obtain ⟨-, rfl⟩ := Prod.mk.inj declares
  rfl

theorem declare_hoisted (declares : scope.declare name = (identifier, after)) :
    after.hoisted = scope.hoisted := by
  obtain ⟨-, rfl⟩ := Prod.mk.inj declares
  rfl

theorem declare_mem (declares : scope.declare name = (identifier, after)) : identifier ∈ after.takenNames := by
  refine mem_takenNames.2 (.inr (.inr ⟨_, List.mem_cons_self, name, _, ?_, .inr rfl⟩))
  rw [declare_inner declares, SortedMap.find?_insert, if_pos rfl]

/-- Taken names stay taken when a name is declared that the innermost frame does not have. -/
theorem takenNames_declare {other : String} (declares : scope.declare name = (identifier, after))
    (new : scope.inner.find? name = none) (member : other ∈ scope.takenNames) : other ∈ after.takenNames := by
  rw [mem_takenNames] at member ⊢
  rcases member with reserved | hoisted | ⟨frame, among, key, found, known, either⟩
  · exact .inl reserved
  · exact .inr (.inl (by rwa [declare_hoisted declares]))
  · rcases List.mem_cons.1 among with rfl | outer
    · refine .inr (.inr ⟨_, List.mem_cons_self, key, found, ?_, either⟩)
      rw [declare_inner declares, SortedMap.find?_insert, if_neg, known]
      rintro rfl
      rw [new] at known
      cases known
    · exact .inr (.inr ⟨frame, List.mem_cons_of_mem _ (by rwa [declare_outer declares]), key, found, known,
        either⟩)

end Declaring

theorem takenNames_push {other : String} (member : other ∈ scope.takenNames) :
    other ∈ scope.push.takenNames := by
  rw [mem_takenNames] at member ⊢
  rcases member with reserved | hoisted | ⟨frame, among, key, identifier, found, either⟩
  · exact .inl reserved
  · exact .inr (.inl hoisted)
  · exact .inr (.inr ⟨frame, List.mem_cons_of_mem _ among, key, identifier, found, either⟩)

/-! ## Renames -/

theorem find?_overlay (renames : SortedMap String) (frame : Frame) (name : String) :
    (overlay renames frame).find? name =
      match frame.find? name with
      | some identifier => if name = identifier then none else some identifier
      | none => renames.find? name := by
  have sorted := frame.sorted
  unfold overlay SortedMap.find?
  generalize frame.entries = entries at sorted ⊢
  induction entries generalizing renames with
  | nil => rfl
  | cons entry entries hypothesis =>
      obtain ⟨first, rest⟩ := List.pairwise_cons.1 sorted
      rw [List.foldl_cons]
      refine (hypothesis _ rest).trans ?_
      by_cases here : name = entry.1
      · have absent : entries.lookup name = none := by
          refine List.lookup_eq_none_iff.2 fun other member => ?_
          have less : entry.1 < other.1 := first other member
          simpa using fun equal : name = other.1 => String.lt_irrefl name (by rwa [← here, ← equal] at less)
        rw [absent, here, List.lookup_cons_self]
        dsimp only
        by_cases plain : entry.1 = entry.2
        · rw [if_pos (beq_iff_eq.2 plain), if_pos plain]
          exact SortedMap.find?_erase.trans (if_pos rfl)
        · rw [if_neg (mt beq_iff_eq.1 plain), if_neg plain]
          exact SortedMap.find?_insert.trans (if_pos rfl)
      · rw [List.lookup_cons, beq_eq_false_iff_ne.2 here]
        dsimp only
        cases entries.lookup name with
        | some _ => rfl
        | none =>
            dsimp only
            split
            · exact SortedMap.find?_erase.trans (if_neg here)
            · exact SortedMap.find?_insert.trans (if_neg here)

/-- The identifier that the innermost frame with the name gives to it. -/
def identifierIn : List Frame → String → Option String
  | [], _ => none
  | frame :: frames, name =>
      match frame.find? name with
      | some identifier => some identifier
      | none => identifierIn frames name

/-- Names are rewritten as the innermost frame says, if it says anything else than the name. -/
theorem find?_renames (scope : Scope) (name : String) :
    scope.renames.find? name = (identifierIn scope.frames name).filter (name ≠ ·) := by
  unfold renames
  induction scope.frames with
  | nil => rfl
  | cons frame frames hypothesis =>
      rw [List.foldr_cons, find?_overlay, identifierIn]
      cases frame.find? name with
      | none => exact hypothesis
      | some identifier => by_cases same : name = identifier <;> simp [same, Option.filter]

end Scope
end HtmlTemplate
