import HtmlTemplate.Proofs.Walk.Order
import Mathlib.Data.List.Induction
import Mathlib.Data.Prod.Lex

/-!
# The most specific taglib

Registrations for a file are ranked by the depth of their directories, and by their numbers where they are as deep. The
directories are all on the path of the file, so that deeper ones lie in shallower ones. A tag means what the highest
registration says that knows it, and the transforms for all tags come from the lowest one on.
-/

namespace HtmlTemplate

/-! ## Directories -/

namespace Registration

variable {registration shallow deep : Registration} {file : String}

/-- The components of the directory that the taglib is meant for; none, if it is meant for all files. -/
def directory (registration : Registration) : List Component :=
  match registration.scope with
  | none => []
  | some directory => Path.components directory

theorem depth_eq_length (registration : Registration) : registration.depth = registration.directory.length := by
  unfold depth directory
  cases registration.scope <;> rfl

theorem appliesTo_eq_true_iff : registration.appliesTo file = true ↔ registration.directory <+: Path.components file := by
  unfold appliesTo directory
  cases registration.scope with
  | none => simp
  | some directory => exact List.isPrefixOf_iff_prefix

/-- A taglib is meant for a file if it has no directory, or one on the path of the file. -/
theorem appliesTo_iff : registration.appliesTo file = true ↔
    ∀ directory ∈ registration.scope, Path.components directory <+: Path.components file := by
  rw [appliesTo_eq_true_iff]
  unfold directory
  cases registration.scope <;> simp

/-- Of two directories on the path of a file the deeper one lies in the other one. -/
theorem prefix_of_depth_lt (first : shallow.appliesTo file) (second : deep.appliesTo file) (deeper : shallow.depth < deep.depth) :
    shallow.directory <+: deep.directory ∧ shallow.directory ≠ deep.directory := by
  rw [depth_eq_length, depth_eq_length] at deeper
  refine ⟨List.prefix_of_prefix_length_le (appliesTo_eq_true_iff.1 first) (appliesTo_eq_true_iff.1 second) (Nat.le_of_lt deeper), ?_⟩
  intro same
  rw [same] at deeper
  exact Nat.lt_irrefl _ deeper

/-- The rank of a registration with a number: its depth counts first, and its number where others are as deep. -/
def rank (registration : Registration) (index : Nat) : Nat ×ₗ Nat :=
  toLex (registration.depth, index)

/-- Is the first one not deeper? -/
def isShallower (first second : Registration) : Bool :=
  first.depth ≤ second.depth

theorem isShallower_total (first second : Registration) : (first.isShallower second || second.isShallower first) = true := by
  simpa [isShallower] using Nat.le_total first.depth second.depth

theorem isShallower_trans (first second third : Registration) (upper : first.isShallower second = true)
    (lower : second.isShallower third = true) : first.isShallower third = true := by
  simp only [isShallower, decide_eq_true_eq] at upper lower ⊢
  exact Nat.le_trans upper lower

/-- The order that sorting keeps is the one of ranks. -/
theorem rank_lt_of_zipIdxLE {first second : Registration × Nat} (sorted : List.zipIdxLE isShallower first second = true)
    (different : first.2 ≠ second.2) : first.1.rank first.2 < second.1.rank second.2 := by
  rw [rank, rank, Prod.Lex.toLex_lt_toLex]
  simp only [List.zipIdxLE, isShallower, decide_eq_true_eq] at sorted
  split at sorted
  · split at sorted
    · simp only [decide_eq_true_eq] at sorted
      omega
    · omega
  · cases sorted

end Registration

/-- The highest value of a list that has an answer gives it when the list is searched from its end. -/
theorem findSome?_reverse_of_pairwise {α β γ : Type} [LinearOrder γ] (rank : α → γ) (answer? : α → Option β) {list : List α}
    (sorted : list.Pairwise fun left right => rank left < rank right) :
    (∃ top ∈ list, (answer? top).isSome ∧ (∀ other ∈ list, (answer? other).isSome → other ≠ top → rank other < rank top) ∧
        list.reverse.findSome? answer? = answer? top) ∨
      (∀ other ∈ list, ¬(answer? other).isSome) ∧ list.reverse.findSome? answer? = none := by
  induction list using List.reverseRecOn with
  | nil => exact .inr ⟨fun _ member => absurd member List.not_mem_nil, rfl⟩
  | append_singleton front last hypothesis =>
      obtain ⟨sorted, -, above⟩ := List.pairwise_append.1 sorted
      rw [List.reverse_append, List.reverse_singleton, List.singleton_append, List.findSome?_cons]
      cases found : answer? last with
      | some value =>
          refine .inl ⟨last, List.mem_append_right _ List.mem_cons_self, by simp [found], ?_, by simp [found]⟩
          intro other member _ different
          rcases List.mem_append.1 member with member | member
          · exact above other member last List.mem_cons_self
          · exact absurd (List.mem_singleton.1 member) different
      | none =>
          rcases hypothesis sorted with ⟨top, inside, answers, highest, equal⟩ | ⟨silent, equal⟩
          · refine .inl ⟨top, List.mem_append_left _ inside, answers, ?_, equal⟩
            intro other member answering different
            rcases List.mem_append.1 member with member | member
            · exact highest other member answering different
            · simp [List.mem_singleton.1 member, found] at answering
          · refine .inr ⟨?_, equal⟩
            intro other member answering
            rcases List.mem_append.1 member with member | member
            · exact silent other member answering
            · simp [List.mem_singleton.1 member, found] at answering

namespace Registry

variable {registry : Registry} {tag file : String}

/-! ## Ranked registrations -/

/-- Registers taglibs, one after the other. -/
def registerAll (registrations : List Registration) : Registry :=
  registrations.foldl (fun registry registration => registry.register registration.scope registration.taglib) {}

theorem registrations_registerAll (registrations : List Registration) :
    (registerAll registrations).registrations = registrations := by
  have behind : ∀ registry : Registry,
      (registrations.foldl (fun registry registration => registry.register registration.scope registration.taglib)
        registry).registrations = registry.registrations ++ registrations := by
    induction registrations with
    | nil => simp
    | cons registration registrations hypothesis =>
        intro registry
        rw [List.foldl_cons, hypothesis, register, List.append_assoc]
        rfl
  exact behind {}

/-- The registrations for a file with their numbers, the lowest first. -/
def ranking (registry : Registry) (file : String) : List (Registration × Nat) :=
  (registry.registrations.zipIdx.mergeSort (List.zipIdxLE Registration.isShallower)).filter fun ranked =>
    ranked.1.appliesTo file

theorem mem_ranking {ranked : Registration × Nat} :
    ranked ∈ registry.ranking file ↔ registry.registrations[ranked.2]? = some ranked.1 ∧ ranked.1.appliesTo file := by
  rw [ranking, List.mem_filter, (List.mergeSort_perm _ _).mem_iff, List.mem_zipIdx_iff_getElem?]

theorem pairwise_ranking (registry : Registry) (file : String) :
    (registry.ranking file).Pairwise fun left right => left.1.rank left.2 < right.1.rank right.2 := by
  have sorted := List.pairwise_mergeSort (List.zipIdxLE_trans Registration.isShallower_trans)
    (List.zipIdxLE_total Registration.isShallower_total) registry.registrations.zipIdx
  have distinct : (registry.registrations.zipIdx.mergeSort (List.zipIdxLE Registration.isShallower)).Pairwise
      fun left right => left.2 ≠ right.2 := by
    have numbers : (registry.registrations.zipIdx.map Prod.snd).Nodup := by
      rw [List.zipIdx_map_snd]
      exact List.nodup_range'
    rw [← ((List.mergeSort_perm _ (List.zipIdxLE Registration.isShallower)).map Prod.snd).nodup_iff] at numbers
    exact List.pairwise_map.1 numbers
  exact ((sorted.and distinct).imp fun both => Registration.rank_lt_of_zipIdxLE both.1 both.2).filter _

theorem pairwise_bySpecificity (registry : Registry) (file : String) :
    (registry.bySpecificity file).Pairwise fun left right => left.depth ≤ right.depth :=
  (List.pairwise_mergeSort Registration.isShallower_trans Registration.isShallower_total _).imp of_decide_eq_true

/-- Registrations as deep as one another come in the order in which they were registered. -/
theorem filter_bySpecificity (registry : Registry) (file : String) (depth : Nat) :
    (registry.bySpecificity file).filter (Registration.depth · == depth) =
      (registry.registrations.filter fun registration => registration.appliesTo file).filter
        (Registration.depth · == depth) :=
  filter_mergeSort _ Registration.depth Registration.isShallower Registration.isShallower_total
    Registration.isShallower_trans (fun _ _ same => decide_eq_true (Nat.le_of_eq same)) depth

theorem map_ranking (registry : Registry) (file : String) :
    (registry.ranking file).map Prod.fst = registry.bySpecificity file := by
  have sorted : (registry.ranking file).map Prod.fst =
      (registry.registrations.mergeSort Registration.isShallower).filter fun registration => registration.appliesTo file := by
    rw [← List.mergeSort_zipIdx, List.filter_map]
    rfl
  rw [sorted]
  refine eq_of_pairwise_of_filter_eq Registration.depth ?_ (pairwise_bySpecificity registry file) fun depth => ?_
  · exact ((List.pairwise_mergeSort Registration.isShallower_trans Registration.isShallower_total _).imp
      of_decide_eq_true).filter _
  · rw [filter_bySpecificity, List.filter_comm, List.filter_comm _ _ registry.registrations]
    congr 1
    exact filter_mergeSort _ Registration.depth _ Registration.isShallower_total
      Registration.isShallower_trans (fun _ _ same => decide_eq_true (Nat.le_of_eq same)) depth

theorem lookup?_eq_findSome? (registry : Registry) (tag file : String) :
    registry.lookup? tag file =
      (registry.ranking file).reverse.findSome? fun ranked => ranked.1.taglib.entries.find? tag := by
  rw [lookup?, ← List.reverse_reverse (registry.applicable file), applicable_reverse, ← map_ranking, ← List.map_reverse,
    List.findSome?_map]
  rfl

theorem globals_eq_flatMap (registry : Registry) (file : String) :
    registry.globals file = (registry.ranking file).flatMap fun ranked => ranked.1.taglib.globals := by
  rw [globals, applicable_reverse, ← map_ranking, List.flatMap_map]

/-- Two neighbours that are not as deep as one another may change places. -/
theorem bySpecificity_exchange {before after : List Registration} {first second : Registration}
    (different : first.depth ≠ second.depth) (file : String) :
    bySpecificity { registrations := before ++ first :: second :: after } file =
      bySpecificity { registrations := before ++ second :: first :: after } file := by
  refine eq_of_pairwise_of_filter_eq Registration.depth (pairwise_bySpecificity _ _) (pairwise_bySpecificity _ _) fun depth => ?_
  rw [filter_bySpecificity, filter_bySpecificity]
  simp only [List.filter_append, List.filter_filter]
  congr 1
  -- At most one of the two is as deep as that.
  by_cases there : first.depth = depth
  · have other : ¬second.depth = depth := fun same => different (there.trans same.symm)
    simp [List.filter_cons, other]
  · simp [List.filter_cons, there]

/-! ## Lookups -/

/-- The registration with this number is meant for the file, and its taglib has the tag. -/
structure Offers (registry : Registry) (tag file : String) (index : Nat) (registration : Registration) : Prop where
  stands : registry.registrations[index]? = some registration
  covers : ∀ directory ∈ registration.scope, Path.components directory <+: Path.components file
  knows : (registration.taglib.entries.find? tag).isSome

/-- Among the registrations that are meant for the file and have the tag, this one has the highest rank. -/
structure MostSpecific (registry : Registry) (tag file : String) (index : Nat) (registration : Registration) : Prop
    extends registry.Offers tag file index registration where
  highest : ∀ other second, registry.Offers tag file other second → other ≠ index →
    second.rank other < registration.rank index

theorem offers_iff {index : Nat} {registration : Registration} : registry.Offers tag file index registration ↔
    (registration, index) ∈ registry.ranking file ∧ (registration.taglib.entries.find? tag).isSome := by
  rw [mem_ranking, Registration.appliesTo_iff]
  exact ⟨fun offers => ⟨⟨offers.stands, offers.covers⟩, offers.knows⟩, fun ⟨⟨stands, covers⟩, knows⟩ => ⟨stands, covers, knows⟩⟩

theorem mostSpecific_lookup? (registry : Registry) (tag file : String) :
    (∃ index registration, registry.MostSpecific tag file index registration ∧
        registry.lookup? tag file = registration.taglib.entries.find? tag) ∨
      (∀ index registration, ¬registry.Offers tag file index registration) ∧ registry.lookup? tag file = none := by
  rw [lookup?_eq_findSome?]
  rcases findSome?_reverse_of_pairwise (fun ranked : Registration × Nat => ranked.1.rank ranked.2)
    (fun ranked => ranked.1.taglib.entries.find? tag) (registry.pairwise_ranking file) with
    ⟨⟨registration, index⟩, inside, knows, highest, found⟩ | ⟨silent, nothing⟩
  · refine .inl ⟨index, registration, { offers_iff.2 ⟨inside, knows⟩ with highest := ?_ }, found⟩
    intro other second offers different
    obtain ⟨member, answers⟩ := offers_iff.1 offers
    exact highest (second, other) member answers fun same => different (congrArg Prod.snd same)
  · exact .inr ⟨fun index registration offers => silent _ (offers_iff.1 offers).1 (offers_iff.1 offers).2, nothing⟩

/-- For taglibs that were registered one after the other: a tag has the entry of the one registration of the highest rank
among those that are meant for the file and have the tag, and none if there is no such registration; of two directories on
the path of a file the deeper one lies properly in the other one; the transforms for all tags are those of the
registrations for the file in ascending order of rank, against which lookups go; and two neighbours that are not as deep
as one another may change places. -/
theorem lookup?_mostSpecific (registrations : List Registration) (file : String) :
    let registry := registerAll registrations
    (∀ tag, (∃ index registration, registry.MostSpecific tag file index registration ∧
          registry.lookup? tag file = registration.taglib.entries.find? tag) ∨
        (∀ index registration, ¬registry.Offers tag file index registration) ∧ registry.lookup? tag file = none) ∧
      (∀ shallow ∈ registrations, ∀ deep ∈ registrations, shallow.appliesTo file → deep.appliesTo file →
        shallow.depth < deep.depth →
          shallow.directory <+: deep.directory ∧ shallow.directory ≠ deep.directory) ∧
      (∃ order : List (Registration × Nat),
        order.Pairwise (fun left right => left.1.rank left.2 < right.1.rank right.2) ∧
        (∀ registration index, (registration, index) ∈ order ↔ registrations[index]? = some registration ∧
          ∀ directory ∈ registration.scope, Path.components directory <+: Path.components file) ∧
        registry.globals file = order.flatMap (fun ranked => ranked.1.taglib.globals) ∧
        ∀ tag, registry.lookup? tag file =
          order.reverse.findSome? fun ranked => ranked.1.taglib.entries.find? tag) ∧
      ∀ before first second after, registrations = before ++ first :: second :: after → first.depth ≠ second.depth →
        let exchanged := registerAll (before ++ second :: first :: after)
        (∀ tag, exchanged.lookup? tag file = registry.lookup? tag file) ∧ exchanged.globals file = registry.globals file := by
  intro registry
  have listed : registry.registrations = registrations := registrations_registerAll registrations
  refine ⟨fun tag => registry.mostSpecific_lookup? tag file, ?_, ?_, ?_⟩
  · exact fun shallow _ deep _ first second deeper => Registration.prefix_of_depth_lt first second deeper
  · refine ⟨registry.ranking file, registry.pairwise_ranking file, fun registration index => ?_,
      registry.globals_eq_flatMap file, fun tag => registry.lookup?_eq_findSome? tag file⟩
    rw [mem_ranking, listed, Registration.appliesTo_iff]
  · intro before first second after shape different exchanged
    have exchangedListed : exchanged.registrations = before ++ second :: first :: after := registrations_registerAll _
    have same : exchanged.bySpecificity file = registry.bySpecificity file := by
      have moved : bySpecificity { registrations := before ++ first :: second :: after } file =
          bySpecificity { registrations := before ++ second :: first :: after } file :=
        bySpecificity_exchange different file
      rw [← shape, ← listed, ← exchangedListed] at moved
      exact moved.symm
    constructor
    · intro tag
      rw [lookup?, lookup?, ← List.reverse_reverse (exchanged.applicable file), ← List.reverse_reverse (registry.applicable file),
        applicable_reverse, applicable_reverse, same]
    · rw [globals, globals, applicable_reverse, applicable_reverse, same]

end Registry

end HtmlTemplate
