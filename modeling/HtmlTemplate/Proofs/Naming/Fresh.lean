import HtmlTemplate.Proofs.Naming.Hygiene

/-!
# The search for new names

A new identifier is searched for without a bound: first the name itself is tried, then the name with one number after
the other. The candidates differ, and only so many names are taken, so each search ends with the first candidate that is
free. Names in frames inside one another are numbered in order, then, by the numbers that are free.
-/

namespace HtmlTemplate
namespace Scope

variable {taken : List String} {name identifier other : String} {scope : Scope} {n : Nat}

/-! ## Searches -/

/-- A search that has come to a candidate gives an identifier in the end. -/
inductive Search (taken : List String) (name : String) : Nat → String → Prop
  | ends {n : Nat} (free : candidate name n ∉ taken) : Search taken name n (candidate name n)
  | goesOn {n : Nat} {identifier : String} (met : candidate name n ∈ taken)
      (rest : Search taken name (n + 1) identifier) : Search taken name n identifier

/-- A search gives one identifier only. -/
theorem Search.unique (search : Search taken name n identifier) (again : Search taken name n other) :
    identifier = other := by
  induction search with
  | ends free =>
      cases again with
      | ends _ => rfl
      | goesOn met _ => exact absurd met free
  | goesOn met _ hypothesis =>
      cases again with
      | ends free => exact absurd met free
      | goesOn _ rest => exact hypothesis rest

/-- A search ends with the least candidate that is free. The induction is on how far it still has to go. -/
theorem search_of_isLeast (least : IsLeast {n | candidate name n ∉ taken} n) {start left : Nat}
    (ahead : start + left = n) : Search taken name start (candidate name n) := by
  induction left generalizing start with
  | zero =>
      obtain rfl : start = n := ahead
      exact .ends least.1
  | succ left hypothesis =>
      have met : candidate name start ∈ taken := by
        by_contra free
        have first := least.2 free
        omega
      exact .goesOn met (hypothesis (by omega))

/-- Every search ends, and with what the scope gives. -/
theorem search_iff : Search taken name 0 identifier ↔ identifier = unique taken name := by
  obtain ⟨n, -, least, same⟩ := exists_isLeast taken name
  have ends := search_of_isLeast least (Nat.zero_add n)
  rw [same]
  constructor
  · intro search
    exact search.unique ends
  · rintro rfl
    exact ends

/-! ## Frames inside one another -/

/-- The scope in which a name was declared in frames inside one another, so many times. -/
def nested (scope : Scope) (name : String) : Nat → Scope
  | 0 => scope
  | depth + 1 => ((scope.nested name depth).push.declare name).2

theorem mem_takenNames_push : other ∈ scope.push.takenNames ↔ other ∈ scope.takenNames := by
  refine ⟨fun member => ?_, takenNames_push⟩
  rw [mem_takenNames] at member ⊢
  rcases member with reserved | hoisted | ⟨frame, among, key, identifier, found, either⟩
  · exact .inl reserved
  · exact .inr (.inl hoisted)
  · rcases List.mem_cons.1 among with rfl | around
    · cases found
    · exact .inr (.inr ⟨frame, around, key, identifier, found, either⟩)

/-- A name that is declared in a frame of its own takes itself and its identifier. -/
theorem mem_takenNames_declare_push : other ∈ (scope.push.declare name).2.takenNames ↔
    other ∈ scope.takenNames ∨ other = name ∨ other = (scope.push.declare name).1 := by
  have inner : (scope.push.declare name).2.inner = SortedMap.empty.insert name (scope.push.declare name).1 := rfl
  constructor
  · intro member
    rcases mem_takenNames.1 member with reserved | hoisted | ⟨frame, among, key, identifier, found, either⟩
    · exact .inl (mem_takenNames.2 (.inl reserved))
    · exact .inl (mem_takenNames.2 (.inr (.inl hoisted)))
    · rcases List.mem_cons.1 among with rfl | around
      · rw [inner, SortedMap.find?_insert] at found
        split at found
        · next same =>
            subst same
            cases found
            exact .inr (either.imp Eq.symm Eq.symm)
        · cases found
      · exact .inl (mem_takenNames.2 (.inr (.inr ⟨frame, around, key, identifier, found, either⟩)))
  · have found : (scope.push.declare name).2.inner.find? name = some (scope.push.declare name).1 := by
      rw [inner, SortedMap.find?_insert, if_pos rfl]
    rintro (before | rfl | rfl)
    · exact takenNames_declare rfl rfl (takenNames_push before)
    · exact mem_takenNames.2 (.inr (.inr ⟨_, List.mem_cons_self, _, _, found, .inl rfl⟩))
    · exact declare_mem rfl

/-- Is the candidate with this number free? -/
def IsFree (scope : Scope) (name : String) (n : Nat) : Prop :=
  candidate name n ∉ scope.takenNames

/-- Only finitely many candidates are taken. -/
theorem infinite_free (scope : Scope) (name : String) : (Set.ofPred (scope.IsFree name)).Infinite := by
  have taken : {n | candidate name n ∈ scope.takenNames}.Finite :=
    Set.Finite.preimage (candidate_injective name).injOn (List.finite_toSet scope.takenNames)
  exact taken.infinite_compl

theorem isLeast_nth (scope : Scope) (name : String) (depth : Nat) :
    IsLeast {n | scope.IsFree name n ∧ ∀ earlier < depth, Nat.nth (scope.IsFree name) earlier < n}
      (Nat.nth (scope.IsFree name) depth) :=
  Nat.isLeast_nth_of_infinite (scope.infinite_free name) depth

/-- A declaration in a frame of its own gives the least candidate that is free. -/
theorem declare_push_of_isLeast (least : IsLeast {n | scope.IsFree name n} n) :
    (scope.push.declare name).1 = candidate name n := by
  refine unique_eq_of_isLeast ?_
  have same : {n | candidate name n ∉ scope.push.takenNames} = {n | scope.IsFree name n} := by
    ext n
    exact not_congr mem_takenNames_push
  rwa [same]

/-- After a declaration in a frame of its own, the candidates behind its identifier are free that were so before. -/
theorem isFree_declare_push_iff (least : IsLeast {n | scope.IsFree name n} n) (m : Nat) :
    (scope.push.declare name).2.IsFree name m ↔ scope.IsFree name m ∧ n < m := by
  have self : candidate name m = name ↔ m = 0 := (candidate_injective name).eq_iff (b := 0)
  have given : candidate name m = candidate name n ↔ m = n := (candidate_injective name).eq_iff
  unfold IsFree
  rw [mem_takenNames_declare_push, declare_push_of_isLeast least, self, given]
  constructor
  · intro free
    have before : candidate name m ∉ scope.takenNames := fun taken => free (.inl taken)
    have other : m ≠ n := fun same => free (.inr (.inr same))
    exact ⟨before, Nat.lt_of_le_of_ne (least.2 before) other.symm⟩
  · rintro ⟨before, behind⟩ (taken | zero | same)
    · exact before taken
    · omega
    · omega

/-- The candidates that are free after declarations in frames inside one another are those behind as many free ones. -/
theorem isFree_nested_iff (scope : Scope) (name : String) (depth n : Nat) :
    (scope.nested name depth).IsFree name n ↔
      scope.IsFree name n ∧ ∀ earlier < depth, Nat.nth (scope.IsFree name) earlier < n := by
  induction depth generalizing n with
  | zero => exact ⟨fun free => ⟨free, fun _ none => absurd none (Nat.not_lt_zero _)⟩, And.left⟩
  | succ depth hypothesis =>
      have least : IsLeast {n | (scope.nested name depth).IsFree name n} (Nat.nth (scope.IsFree name) depth) := by
        simp only [hypothesis]
        exact scope.isLeast_nth name depth
      rw [nested, isFree_declare_push_iff least, hypothesis, and_assoc]
      simp only [Nat.lt_succ_iff_lt_or_eq, or_imp, forall_and, forall_eq]

/-- A name that is declared in frames inside one another gets the candidates that are free, one after the other. -/
theorem declare_nested (scope : Scope) (name : String) (depth : Nat) :
    ((scope.nested name depth).push.declare name).1 = candidate name (Nat.nth (scope.IsFree name) depth) := by
  refine declare_push_of_isLeast ?_
  simp only [isFree_nested_iff]
  exact scope.isLeast_nth name depth

/-- As long as the candidates are all free, the numbers are those of the frames. -/
theorem declare_nested_of_free {depth : Nat} (free : ∀ n ≤ depth, scope.IsFree name n) :
    ((scope.nested name depth).push.declare name).1 = candidate name depth := by
  rw [declare_nested, Nat.nth_of_forall free]

/-! ## New names have the least numbers -/

/-- What an identifier for a name has to be: none of the taken names, the name itself if it can be, and else the name
with the least number from one on that makes it a new one. -/
structure IsNew (taken : List String) (name identifier : String) : Prop where
  free : identifier ∉ taken
  plain : name ∉ taken → identifier = name
  number : name ∈ taken →
    ∃ n ≤ taken.length, IsLeast {n | 1 ≤ n ∧ numbered name n ∉ taken} n ∧ identifier = numbered name n

theorem isNew_unique (taken : List String) (name : String) : IsNew taken name (unique taken name) := by
  obtain ⟨n, within, least, same⟩ := exists_isLeast taken name
  refine ⟨unique_notMem taken name, fun free => ?_, fun member => ?_⟩
  · have first : n = 0 := Nat.le_zero.1 (least.2 free)
    rw [same, first, candidate]
  · have positive : 1 ≤ n := by
      refine Nat.one_le_iff_ne_zero.2 fun zero => ?_
      subst zero
      exact least.1 member
    have numbers := candidate_of_pos name positive
    have free : candidate name n ∉ taken := least.1
    rw [numbers] at free same
    refine ⟨n, within, ⟨⟨positive, free⟩, ?_⟩, same⟩
    rintro k ⟨start, other⟩
    rw [← candidate_of_pos name start] at other
    exact least.2 other

/-- New names have the least numbers. In every scope, and so in all that operations lead to, the search for an
identifier ends, and with the one that is given: the name itself if it is not taken, and else the name with the least
number that is not. So a declaration gives such an identifier, and a value of the module has one or gets one that was
never written for a name. And a name that is declared in frames inside one another is numbered in order. -/
theorem fresh_names (scope : Scope) (name : String) :
    (∀ taken : List String, (∀ identifier, Search taken name 0 identifier ↔ identifier = unique taken name) ∧
      IsNew taken name (unique taken name)) ∧
    IsNew scope.takenNames name (scope.declare name).1 ∧
    (∀ init,
      (∃ declaration ∈ scope.hoisted, declaration.init = init ∧ scope.hoist name init = (declaration.name, scope)) ∨
        (∀ declaration ∈ scope.hoisted, declaration.init ≠ init) ∧ ∃ identifier,
          IsNew (scope.takenNames ++ scope.emitted) name identifier ∧
            scope.hoist name init =
              (identifier, { scope with hoisted := scope.hoisted ++ [{ name := identifier, init }] })) ∧
    ∀ depth, ((scope.nested name depth).push.declare name).1 =
      candidate name (Nat.nth (scope.IsFree name) depth) := by
  refine ⟨fun taken => ⟨fun identifier => search_iff, isNew_unique taken name⟩, isNew_unique _ name, fun init => ?_,
    scope.declare_nested name⟩
  rcases scope.hoist_cases name init with known | ⟨other, identifier, rfl, hoists⟩
  · exact .inl known
  · exact .inr ⟨other, _, isNew_unique _ name, hoists⟩

/-- A name that the module binds itself, two values with one hint, and a name in three frames whose first number is taken
by the first of the values. -/
theorem fresh_names_items :
    let taken := (({} : Scope).hoist "item_1" "first").2
    IsNew ({} : Scope).takenNames "data" "data_1" ∧ (taken.hoist "item_1" "first").1 = "item_1" ∧
      (taken.hoist "item_1" "second").1 = "item_1_1" ∧
      [0, 1, 2].map (fun depth => ((taken.nested "item" depth).push.declare "item").1) = ["item", "item_2", "item_3"] ∧
      candidate "item" (Nat.nth (taken.IsFree "item") 2) = "item_3" := by
  intro taken
  have data := (fresh_names {} "data").2.1
  have items := (fresh_names taken "item").2.2.2 2
  rw [show (({} : Scope).declare "data").1 = "data_1" by rfl] at data
  refine ⟨data, by rfl, by rfl, by rfl, ?_⟩
  rw [← items]
  rfl

end Scope
end HtmlTemplate
