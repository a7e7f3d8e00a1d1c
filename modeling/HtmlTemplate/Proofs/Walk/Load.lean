import HtmlTemplate.Proofs.Tree.Marks
import HtmlTemplate.Proofs.Tree.Reach
import HtmlTemplate.Walk
import Mathlib.Data.Multiset.DershowitzManna
import Mathlib.Data.Multiset.Range

/-!
# The load of a walk

A node that still has to be visited weighs as much as there are changes left to it. The load of a walk is
the multiset of these weights. A change takes one weight away and puts smaller ones in its place, however
many nodes it makes, so loads go down in the well-founded order of multisets.
-/

namespace HtmlTemplate
namespace Walk

/-! ## The order of loads -/

/-- The load is another one, or smaller than it. -/
def Lighter (first second : Multiset Nat) : Prop :=
  first = second ∨ first.IsDershowitzMannaLT second

variable {first second third base extra : Multiset Nat} {left : Nat}

theorem Lighter.refl (load : Multiset Nat) : Lighter load load :=
  .inl rfl

theorem Lighter.trans (lower : Lighter first second) (upper : Lighter second third) :
    Lighter first third := by
  rcases lower with rfl | lower
  · exact upper
  · rcases upper with rfl | upper
    · exact .inr lower
    · exact .inr (lower.trans upper)

theorem Lighter.trans_lt (lower : Lighter first second) (upper : second.IsDershowitzMannaLT third) :
    first.IsDershowitzMannaLT third := by
  rcases lower with rfl | lower
  · exact upper
  · exact lower.trans upper

theorem Lighter.lt_of_lt (lower : first.IsDershowitzMannaLT second) (upper : Lighter second third) :
    first.IsDershowitzMannaLT third := by
  rcases upper with rfl | upper
  · exact lower
  · exact lower.trans upper

theorem lighter_of_le (below : first ≤ second) : Lighter first second := by
  obtain ⟨rest, rfl⟩ := Multiset.le_iff_exists_add.1 below
  by_cases empty : rest = 0
  · exact .inl (by rw [empty, add_zero])
  · exact .inr ⟨first, 0, rest, empty, (add_zero _).symm, rfl, by simp⟩

theorem Lighter.add_right (lower : Lighter first second) (rest : Multiset Nat) :
    Lighter (first + rest) (second + rest) := by
  rcases lower with rfl | ⟨common, added, taken, nonempty, rfl, rfl, smaller⟩
  · exact .refl _
  · exact .inr ⟨common + rest, added, taken, nonempty, add_right_comm _ _ _, add_right_comm _ _ _, smaller⟩

/-- A load without one of its weights is smaller. -/
theorem lt_add_singleton (load : Multiset Nat) (weight : Nat) :
    load.IsDershowitzMannaLT (load + {weight}) :=
  ⟨load, 0, {weight}, Multiset.singleton_ne_zero weight, (add_zero _).symm, rfl, by simp⟩

/-- Any number of smaller weights in the place of one of them makes a load smaller. -/
theorem lt_of_le_add (below : first ≤ base + extra) (smaller : ∀ weight ∈ extra, weight ≤ left) :
    first.IsDershowitzMannaLT (base + {left + 1}) := by
  refine (lighter_of_le below).trans_lt
    ⟨base, extra, {left + 1}, Multiset.singleton_ne_zero _, rfl, rfl, fun weight member => ?_⟩
  exact ⟨left + 1, Multiset.mem_singleton_self _, Nat.lt_succ_of_le (smaller weight member)⟩

/-- What holds of a load if it holds of all smaller ones holds of every load. -/
theorem load_induction {motive : Multiset Nat → Prop}
    (step : ∀ load, (∀ smaller : Multiset Nat, smaller.IsDershowitzMannaLT load → motive smaller) → motive load)
    (load : Multiset Nat) : motive load :=
  Multiset.wellFounded_isDershowitzMannaLT.induction load step

/-! ## Counts that nodes start from -/

variable {state : Progress} {id other : NodeId}

theorem startOf_carry_self (passes : Nat) : (state.carry id passes).startOf id = passes := by
  simp [Progress.startOf, Progress.carry]

theorem startOf_carry_of_ne (different : other ≠ id) (passes : Nat) :
    (state.carry id passes).startOf other = state.startOf other := by
  rw [Progress.startOf, Progress.carry, List.lookup_cons, beq_eq_false_iff_ne.2 different]
  rfl

/-- Of the nodes with the given numbers each one gets the count at least, and others keep theirs. -/
theorem startOf_foldl_carry (numbers : List Nat) (passes : Nat) (state : Progress) (id : NodeId) :
    (numbers.foldl (fun state index => state.carry ⟨index⟩ (max (state.startOf ⟨index⟩) passes))
      state).startOf id = if id.index ∈ numbers then max (state.startOf id) passes else state.startOf id := by
  induction numbers generalizing state with
  | nil => simp
  | cons index numbers hypothesis =>
      rw [List.foldl_cons, hypothesis]
      by_cases same : id = ⟨index⟩
      · subst same
        rw [startOf_carry_self]
        simp
      · have apart : id.index ≠ index := fun equal => same (by cases id; exact congrArg NodeId.mk equal)
        rw [startOf_carry_of_ne same]
        simp [apart]

/-- Handing counts on changes nothing else. -/
theorem inherit_eq (state : Progress) (first past passes : Nat) :
    state.inherit first past passes = { state with carried := (state.inherit first past passes).carried } := by
  unfold Progress.inherit
  generalize List.range' first (past - first) = numbers
  induction numbers generalizing state with
  | nil => rfl
  | cons index numbers hypothesis => exact hypothesis _

theorem startOf_inherit_of_lt {first past passes : Nat} (old : id.index < first) :
    (state.inherit first past passes).startOf id = state.startOf id := by
  rw [Progress.inherit, startOf_foldl_carry, if_neg]
  simp only [List.mem_range'_1]
  omega

theorem le_startOf_inherit (state : Progress) {first past : Nat} (passes : Nat) (new : first ≤ id.index) (made : id.index < past) :
    passes ≤ (state.inherit first past passes).startOf id := by
  rw [Progress.inherit, startOf_foldl_carry, if_pos]
  · exact Nat.le_max_right _ _
  · simp only [List.mem_range'_1]
    omega

/-! ## Waiting nodes -/

/-- The nodes that have not been visited yet. -/
def waiting (tree : Tree) : Multiset NodeId :=
  ((Multiset.range tree.size).map NodeId.mk).filter fun id => (tree.node id).state = .unvisited

/-- How many changes are left to a node that has not been visited yet. -/
def weight (bound : Nat) (state : Progress) (id : NodeId) : Nat :=
  bound - state.startOf id

/-- The weights of the nodes that have not been visited yet. -/
def load (bound : Nat) (state : Progress) (tree : Tree) : Multiset Nat :=
  (waiting tree).map (weight bound state)

variable {tree after : Tree} {bound : Nat}

theorem mem_waiting : id ∈ waiting tree ↔ tree.Has id ∧ (tree.node id).state = .unvisited := by
  simp only [waiting, Multiset.mem_filter, Multiset.mem_map, Multiset.mem_range, Tree.Has]
  constructor
  · rintro ⟨⟨index, inside, rfl⟩, unvisited⟩
    exact ⟨inside, unvisited⟩
  · rintro ⟨inside, unvisited⟩
    exact ⟨⟨id.index, inside, rfl⟩, unvisited⟩

theorem nodup_waiting (tree : Tree) : (waiting tree).Nodup := by
  refine Multiset.Nodup.filter _ (Multiset.Nodup.map ?_ (Multiset.nodup_range _))
  intro first second equal
  exact congrArg NodeId.index equal

theorem waiting_le (same : after.size = tree.size)
    (states : ∀ id, (after.node id).state = .unvisited → (tree.node id).state = .unvisited) :
    waiting after ≤ waiting tree := by
  rw [Multiset.le_iff_subset (nodup_waiting _)]
  intro id member
  obtain ⟨present, unvisited⟩ := mem_waiting.1 member
  refine mem_waiting.2 ⟨?_, states id unvisited⟩
  rwa [Tree.Has, ← same]

/-- A tree of the same size with no more unvisited nodes makes no larger load. -/
theorem load_le (same : after.size = tree.size)
    (states : ∀ id, (after.node id).state = .unvisited → (tree.node id).state = .unvisited) :
    load bound state after ≤ load bound state tree :=
  Multiset.map_le_map (waiting_le same states)

theorem load_setState_le {mark : WalkState} (visited : mark ≠ .unvisited) :
    load bound state (tree.setState id mark) ≤ load bound state tree := by
  refine load_le (Tree.sameShape_setState tree id mark).size fun other unvisited => ?_
  by_cases same : other = id
  · subst same
    by_cases present : tree.Has other
    · rw [Tree.state_setState_self present] at unvisited
      exact absurd unvisited visited
    · exact Tree.state_of_not_has present
  · rwa [Tree.state_setState_of_ne same] at unvisited

/-- The load of a node to be visited is its weight and the load of the others. -/
theorem load_eq_add_weight (bound : Nat) (state : Progress) {mark : WalkState} (visited : mark ≠ .unvisited) (present : tree.Has id)
    (unvisited : (tree.node id).state = .unvisited) :
    load bound state tree = load bound state (tree.setState id mark) + {weight bound state id} := by
  have waiting_eq : waiting tree = id ::ₘ waiting (tree.setState id mark) := by
    have absent : id ∉ waiting (tree.setState id mark) := by
      rw [mem_waiting, Tree.state_setState_self present]
      exact fun member => visited member.2
    refine (Multiset.Nodup.ext (nodup_waiting _)
      (Multiset.nodup_cons.2 ⟨absent, nodup_waiting _⟩)).2 fun other => ?_
    rw [Multiset.mem_cons, mem_waiting, mem_waiting, (Tree.sameShape_setState tree id mark).has_iff]
    by_cases same : other = id
    · subst same
      simp [present, unvisited]
    · rw [Tree.state_setState_of_ne same]
      simp [same]
  rw [load, waiting_eq, Multiset.map_cons, ← Multiset.singleton_add, add_comm]
  rfl

/-- Setting a node aside adds at most the weight that is left to it. -/
theorem load_setAside_le (tree : Tree) (state : Progress) (id : NodeId) {left : Nat} (within : left ≤ bound) :
    load bound (state.carry id (bound - left)) (tree.setState id .unvisited) ≤
      load bound state tree + {left} := by
  have aside : ((waiting (tree.setState id .unvisited)).filter (· = id)).map
      (weight bound (state.carry id (bound - left))) ≤ {left} := by
    have alone : (waiting (tree.setState id .unvisited)).filter (· = id) ≤ {id} := by
      rw [Multiset.le_iff_subset ((nodup_waiting _).filter _)]
      intro other member
      exact Multiset.mem_singleton.2 (Multiset.mem_filter.1 member).2
    refine (Multiset.map_le_map alone).trans_eq ?_
    rw [Multiset.map_singleton, weight, startOf_carry_self, Nat.sub_sub_self within]
  have others : ((waiting (tree.setState id .unvisited)).filter fun other => ¬other = id).map
      (weight bound (state.carry id (bound - left))) ≤ load bound state tree := by
    have subset : (waiting (tree.setState id .unvisited)).filter (fun other => ¬other = id) ≤ waiting tree := by
      rw [Multiset.le_iff_subset ((nodup_waiting _).filter _)]
      intro other member
      obtain ⟨member, different⟩ := Multiset.mem_filter.1 member
      obtain ⟨present, unvisited⟩ := mem_waiting.1 member
      rw [Tree.state_setState_of_ne different] at unvisited
      exact mem_waiting.2 ⟨(Tree.sameShape_setState tree id .unvisited).has_iff.1 present, unvisited⟩
    refine le_of_eq_of_le (Multiset.map_congr rfl fun other member => ?_) (Multiset.map_le_map subset)
    rw [weight, weight, startOf_carry_of_ne (Multiset.mem_filter.1 member).2]
  rw [load, ← Multiset.filter_add_not (· = id) (waiting (tree.setState id .unvisited)), Multiset.map_add,
    add_comm]
  exact add_le_add others aside

/-- New nodes that start from a count weigh no more than what is left after so many changes. -/
theorem load_inherit (state : Progress) (grows : tree.Grows after) {left : Nat} (within : left ≤ bound) :
    ∃ extra, load bound (state.inherit tree.size after.size (bound - left)) after =
      load bound state tree + extra ∧ ∀ weight ∈ extra, weight ≤ left := by
  have kept : waiting tree ≤ waiting after := by
    rw [Multiset.le_iff_subset (nodup_waiting _)]
    intro id member
    obtain ⟨present, unvisited⟩ := mem_waiting.1 member
    exact mem_waiting.2 ⟨grows.has present, (grows.state_of_has id present).trans unvisited⟩
  obtain ⟨fresh, split⟩ := Multiset.le_iff_exists_add.1 kept
  have distinct := nodup_waiting after
  rw [split, Multiset.nodup_add] at distinct
  refine ⟨fresh.map (weight bound (state.inherit tree.size after.size (bound - left))), ?_, ?_⟩
  · rw [load, split, Multiset.map_add, load]
    congr 1
    refine Multiset.map_congr rfl fun id member => ?_
    rw [weight, weight, startOf_inherit_of_lt (mem_waiting.1 member).1]
  · intro weight member
    obtain ⟨id, among, rfl⟩ := Multiset.mem_map.1 member
    obtain ⟨present, unvisited⟩ := mem_waiting.1 (split ▸ Multiset.mem_add.2 (.inr among))
    have new : tree.size ≤ id.index := by
      by_contra old
      have present : tree.Has id := Nat.lt_of_not_le old
      have before := mem_waiting.2 ⟨present, (grows.state_of_has id present).symm.trans unvisited⟩
      exact Multiset.disjoint_left.1 distinct.2.2 before among
    have counted := le_startOf_inherit state (bound - left) new present
    rw [Walk.weight]
    omega

end Walk
end HtmlTemplate
