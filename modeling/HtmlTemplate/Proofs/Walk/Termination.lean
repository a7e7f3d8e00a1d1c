import HtmlTemplate.Proofs.Walk.Load
import HtmlTemplate.Proofs.Walk.Phase

/-!
# Walks that end

A walk ends if its transforms report a change whenever they edit the tree, and if those that report their
node removed make no nodes. Counts are handed on to the nodes that a change makes, so every change lowers
the load of the walk. They are not handed on when a node is removed: a transform that puts a fresh node of
the same tag beside its own and takes that one away keeps a walk going forever.
-/

namespace HtmlTemplate

/-- The transform makes no nodes when it reports that it removed its node. -/
def Transform.RemovesOnly (transform : Transform) : Prop :=
  ∀ {id : NodeId} {before after : Context}, before.tree.WellFormed → before.tree.Has id →
    transform.Does id before .removed after → after.tree.size = before.tree.size

namespace Walk

variable {registry : Registry} {bound : Nat} {state : Progress} {context : Context} {id : NodeId}

/-! ## What one round does to the load -/

/-- What a round of tame transforms does to the states of nodes. -/
inductive Effect (before : Tree) : Outcome → Tree → Prop
  | nothing {after : Tree} : after = before → Effect before .unchanged after
  | removed {after : Tree} : after.WellFormed → after.size = before.size →
      (∀ id, (after.node id).state = .unvisited → (before.node id).state = .unvisited) →
      Effect before .removed after
  | changed {after : Tree} : after.WellFormed → before.Grows after → Effect before .changed after
  | replaced {after : Tree} {next : NodeId} : after.WellFormed → before.Grows after →
      Effect before (.replaced next) after

/-- The transforms that taglibs of the registry declare are honest, and make no nodes when they remove one. -/
structure Tame (registry : Registry) : Prop where
  honest : ∀ transform, registry.Declares transform → transform.Honest
  removesOnly : ∀ transform, registry.Declares transform → transform.RemovesOnly

theorem Tame.transforms (tame : Tame registry) {tree : Tree} {phase : Phase} {transform : Transform}
    (member : transform ∈ transformsFor registry tree id phase) :
    tree.Has id ∧ transform.Honest ∧ transform.RemovesOnly := by
  obtain ⟨present, honest⟩ := honest_of_mem_transformsFor tame.honest member
  refine ⟨present, honest, ?_⟩
  obtain ⟨-, -, declared | ⟨renderer, rfl⟩⟩ := mem_transformsFor member
  · exact tame.removesOnly _ declared
  · intro id before after _ _ does
    rcases Transform.bindRenderer_does does with ⟨reported, -⟩ | ⟨reported, -⟩
    · cases reported
    · cases reported

theorem Tame.effect (tame : Tame registry) {before after : Tree} (wellFormed : before.WellFormed)
    {phase : Phase} {outcome : Outcome}
    (round : Round (transformsFor registry before id phase) id before outcome after) :
    Effect before outcome after := by
  rcases round with ⟨rfl, same⟩ | ⟨transform, member, first, reported, last, rfl, does, -, confirmed⟩
  · exact .nothing same
  · obtain ⟨present, honest, removesOnly⟩ := tame.transforms member
    have reaches := honest.edits wellFormed present does
    have sound := reaches.wellFormed wellFormed
    have grows := reaches.grows wellFormed
    cases confirmed with
    | changed => exact .changed sound grows
    | itself => exact .changed sound grows
    | replaced _ _ => exact .replaced sound grows
    | removed _ =>
        have size := removesOnly wellFormed present does
        have shape := last.tree.sameShape_setState id .settled
        refine .removed (shape.wellFormed sound) (shape.size.trans size) fun other unvisited => ?_
        have present := (Tree.Grows.has grows present)
        have different : other ≠ id := by
          rintro rfl
          rw [Tree.state_setState_self present] at unvisited
          cases unvisited
        rw [Tree.state_setState_of_ne different] at unvisited
        by_cases old : first.tree.Has other
        · rwa [grows.state_of_has other old] at unvisited
        · exact Tree.state_of_not_has old

theorem load_congr {after : Progress} (carried : after.carried = state.carried) (tree : Tree) :
    load bound after tree = load bound state tree := by
  have same : weight bound after = weight bound state := by
    funext id
    rw [weight, weight, Progress.startOf, Progress.startOf, carried]
  rw [load, load, same]

theorem Tame.holds_enterOnce (tame : Tame registry) (bound : Nat) (wellFormed : context.tree.WellFormed) :
    Holds IsFault (enterOnce registry id) state context fun result after left =>
      ∃ entered, entered.WellFormed ∧ entered.size = result.2 ∧
        load bound after entered ≤ load bound state (context.tree.setState id .entering) ∧
        Effect entered result.1 left.tree := by
  refine (Walk.holds_enterOnce fun entered shape =>
    quiet_of_honest tame.honest (shape.wellFormed wellFormed) id .enter).weaken ?_
  rintro result after left ⟨carried, size, entered, shape, states, round⟩
  refine ⟨entered, shape.wellFormed wellFormed, shape.size.trans size.symm, ?_,
    tame.effect (shape.wellFormed wellFormed) round⟩
  rw [load_congr carried]
  exact load_le (shape.size.trans (context.tree.sameShape_setState id .entering).size.symm)
    fun other unvisited => (states other).symm.trans unvisited

/-! ## Counts handed on -/

theorem holds_handOn {halts : Halt → Prop} (before passes : Nat) :
    Holds halts (handOn before passes) state context fun _ after left =>
      after = state.inherit before context.tree.size passes ∧ left = context := by
  unfold handOn
  refine holds_tree.bind ?_
  rintro _ state context ⟨rfl, rfl, rfl⟩
  exact holds_modifyProgress

theorem holds_setAside {halts : Halt → Prop} (passes : Nat) :
    Holds halts (setAside id passes) state context fun _ after left =>
      after = state.carry id passes ∧
        left = { context with tree := context.tree.setState id .unvisited } := by
  unfold setAside
  refine holds_setState.bind ?_
  rintro _ state _ ⟨rfl, rfl⟩
  exact holds_modifyProgress

variable {before after : Tree} {base load' : Multiset Nat} {left rest : Nat}

/-- A change that is not the last one allowed makes the load smaller, with what is left to the node. -/
theorem lt_of_changed (grows : before.Grows after) (within : left ≤ bound)
    (below : load bound state before ≤ base) (lighter : load' ≤
      load bound (state.inherit before.size after.size (bound - left)) after + {left}) :
    load'.IsDershowitzMannaLT (base + {left + 1}) := by
  obtain ⟨extra, split, small⟩ := load_inherit state grows within
  have bounded : load' ≤ base + (extra + {left}) := by
    rw [← add_assoc]
    refine lighter.trans (add_le_add_left ?_ _)
    rw [split]
    exact add_le_add_left below _
  refine lt_of_le_add bounded fun weight member => ?_
  rcases Multiset.mem_add.1 member with among | last
  · exact small weight among
  · exact Nat.le_of_eq (Multiset.mem_singleton.1 last)

/-- The same for a node that another one replaces: both start from the count. -/
theorem lt_of_replaced (grows : before.Grows after) (within : left ≤ bound) (remaining : rest ≤ left)
    (below : load bound state before ≤ base) (lighter : load' ≤
      load bound ((state.inherit before.size after.size (bound - left)).carry id (bound - left))
        (after.setState id .unvisited) + {rest}) :
    load'.IsDershowitzMannaLT (base + {left + 1}) := by
  obtain ⟨extra, split, small⟩ := load_inherit state grows within
  have bounded : load' ≤ base + (extra + {left} + {rest}) := by
    rw [← add_assoc, ← add_assoc]
    refine lighter.trans (add_le_add_left ((load_setAside_le _ _ _ within).trans (add_le_add_left ?_ _)) _)
    rw [split]
    exact add_le_add_left below _
  refine lt_of_le_add bounded fun weight member => ?_
  rcases Multiset.mem_add.1 member with among | last
  · rcases Multiset.mem_add.1 among with among | middle
    · exact small weight among
    · exact Nat.le_of_eq (Multiset.mem_singleton.1 middle)
  · exact (Nat.le_of_eq (Multiset.mem_singleton.1 last)).trans remaining

theorem entering_ne : WalkState.entering ≠ .unvisited := by
  decide

/-- The replacing node goes on from the count of the replaced one at least. -/
theorem lt_of_goesOn (grows : before.Grows after) (within : left ≤ bound) (next : NodeId) {aside : Progress}
    (carried : aside = (state.inherit before.size after.size (bound - left)).carry id (bound - left)) :
    (load bound aside ((after.setState id .unvisited).setState next .entering) +
      {bound - max (bound - left) (aside.startOf next)}).IsDershowitzMannaLT
        (load bound state before + {left + 1}) := by
  have remaining : bound - max (bound - left) (aside.startOf next) ≤ left := by omega
  have lighter : load bound aside ((after.setState id .unvisited).setState next .entering) +
      {bound - max (bound - left) (aside.startOf next)} ≤
      load bound aside (after.setState id .unvisited) +
        {bound - max (bound - left) (aside.startOf next)} :=
    add_le_add_left (load_setState_le entering_ne) _
  generalize bound - max (bound - left) (aside.startOf next) = rest at remaining lighter
  subst carried
  exact lt_of_replaced grows within remaining le_rfl lighter

/-! ## Entering -/

/-- What entering a node leaves of a load: a smaller one, also together with what is left to the node. -/
def Entered (bound : Nat) (given : Multiset Nat) (result : Option (NodeId × Nat)) (state : Progress)
    (context : Context) : Prop :=
  context.tree.WellFormed ∧
    match result with
    | some (_, rest) => rest ≤ bound ∧ Lighter (load bound state context.tree + {rest}) given
    | none => (load bound state context.tree).IsDershowitzMannaLT given

theorem Tame.holds_enter (tame : Tame registry) (left : Nat) (within : left ≤ bound)
    (wellFormed : context.tree.WellFormed) :
    Holds IsFault (enter registry bound left id) state context
      (Entered bound (load bound state (context.tree.setState id .entering) + {left})) := by
  induction left generalizing state context id with
  | zero =>
      refine .enter_zero ((tame.holds_enterOnce bound wellFormed).weaken ?_)
      rintro ⟨outcome, size⟩ after final ⟨entered, sound, -, below, effect⟩
      cases effect with
      | nothing same =>
          subst same
          exact ⟨sound, within, lighter_of_le (add_le_add_left below _)⟩
      | @removed _ sound same states =>
          refine ⟨sound, (lighter_of_le ((load_le same states).trans below)).trans_lt ?_⟩
          exact lt_add_singleton _ _
      | changed _ _ => exact ⟨_, rfl⟩
      | replaced _ _ => exact ⟨_, rfl⟩
  | succ left hypothesis =>
      refine .enter_succ ((tame.holds_enterOnce bound wellFormed).weaken ?_)
      rintro ⟨outcome, size⟩ after final ⟨entered, sound, rfl, below, effect⟩
      have less : left ≤ bound := Nat.le_of_succ_le within
      cases effect with
      | nothing same =>
          subst same
          exact ⟨sound, within, lighter_of_le (add_le_add_left below _)⟩
      | @removed _ sound same states =>
          refine ⟨sound, (lighter_of_le ((load_le same states).trans below)).trans_lt ?_⟩
          exact lt_add_singleton _ _
      | changed sound grows =>
          refine (hypothesis less sound).weaken ?_
          have lower : (load bound (after.inherit entered.size final.tree.size (bound - left))
              (final.tree.setState id .entering) + {left}).IsDershowitzMannaLT
              (load bound state (context.tree.setState id .entering) + {left + 1}) :=
            lt_of_changed grows less below (add_le_add_left (load_setState_le entering_ne) _)
          rintro (_ | ⟨next, rest⟩) last end' ⟨sound, lighter⟩
          · exact ⟨sound, lighter.trans lower⟩
          · exact ⟨sound, lighter.1, .inr (lighter.2.trans_lt lower)⟩
      | @replaced _ next sound grows =>
          have kept := (final.tree.sameShape_setState id .unvisited).wellFormed sound
          refine (hypothesis less kept).weaken ?_
          have lower : (load bound ((after.inherit entered.size final.tree.size (bound - left)).carry id
              (bound - left)) ((final.tree.setState id .unvisited).setState next .entering) +
              {left}).IsDershowitzMannaLT
              (load bound state (context.tree.setState id .entering) + {left + 1}) :=
            lt_of_replaced grows less (Nat.le_refl left) below
              (add_le_add_left (load_setState_le entering_ne) _)
          rintro (_ | ⟨next, rest⟩) last end' ⟨sound, lighter⟩
          · exact ⟨sound, lighter.trans lower⟩
          · exact ⟨sound, lighter.1, .inr (lighter.2.trans_lt lower)⟩

/-! ## Visits -/

/-- Enough fuel for a visit, and then any more, gives one result, which is a fault or a smaller load. -/
def VisitEnds (registry : Registry) (bound : Nat) (given : Multiset Nat) : Prop :=
  ∀ (state : Progress) (context : Context) (id : NodeId) (passes : Nat), context.tree.WellFormed →
    load bound state (context.tree.setState id .entering) + {bound - max passes (state.startOf id)} = given →
    Settles IsFault (fun fuel => visit registry bound fuel id passes) state context fun _ after final =>
      final.tree.WellFormed ∧ (load bound after final.tree).IsDershowitzMannaLT given

variable {given : Multiset Nat}

/-- Visiting children ends if visits with smaller loads do. The induction is on the load, since a visit
lowers it, and then on the number of children that are left to look at. -/
theorem settles_visitChildren
    (visits : ∀ smaller, smaller.IsDershowitzMannaLT given → VisitEnds registry bound smaller)
    (wellFormed : context.tree.WellFormed)
    (light : (load bound state context.tree).IsDershowitzMannaLT given) (parent : NodeId) (index : Nat) :
    Settles IsFault (fun fuel => visitChildren registry bound fuel parent index) state context fun _ after final =>
      final.tree.WellFormed ∧ Lighter (load bound after final.tree) (load bound state context.tree) := by
  induction measure : load bound state context.tree using load_induction generalizing state context index with
  | step current outer =>
      induction ahead : (context.tree.children parent).length - index generalizing index with
      | zero =>
          refine Settles.step ?_
          simp only [visitChildren]
          refine holds_tree.settles.bind ?_
          rintro _ state context ⟨rfl, rfl, rfl⟩
          rw [List.getElem?_eq_none (by omega)]
          exact (holds_pure ⟨wellFormed, .inl measure⟩).settles
      | succ ahead inner =>
          have inside : index < (context.tree.children parent).length := by omega
          refine Settles.step ?_
          simp only [visitChildren]
          refine holds_tree.settles.bind ?_
          rintro _ state context ⟨rfl, rfl, rfl⟩
          rw [List.getElem?_eq_getElem inside]
          dsimp only
          by_cases unvisited : (context.tree.node (context.tree.children parent)[index]).state = .unvisited
          · have present := wellFormed.has_child (List.getElem_mem inside)
            have split := load_eq_add_weight bound state entering_ne present unvisited
            simp only [unvisited, beq_self_eq_true, if_true]
            refine (visits current (measure ▸ light) state context _ 0 wellFormed ?_).bind ?_
            · rw [← measure, split, weight, Nat.zero_max]
            · rintro _ after final ⟨sound, smaller⟩
              refine (outer _ smaller sound (smaller.trans (measure ▸ light)) index rfl).weaken ?_
              rintro _ last end' ⟨kept, lighter⟩
              exact ⟨kept, .inr (lighter.trans_lt smaller)⟩
          · simp only [beq_eq_false_iff_ne.2 unvisited, Bool.false_eq_true, if_false]
            exact inner (index + 1) (by omega)

/-- Leaving a node ends if visits with smaller loads do. The induction is on what is left to the node. -/
theorem Tame.settles_leave (tame : Tame registry)
    (visits : ∀ smaller, smaller.IsDershowitzMannaLT given → VisitEnds registry bound smaller)
    (wellFormed : context.tree.WellFormed) (within : left ≤ bound)
    (light : Lighter (load bound state context.tree + {left}) given) :
    Settles IsFault (fun fuel => leave registry bound fuel id left) state context fun _ after final =>
      final.tree.WellFormed ∧ (load bound after final.tree).IsDershowitzMannaLT given := by
  induction left using Nat.strong_induction_on generalizing state context with
  | _ left hypothesis =>
      refine Settles.step ?_
      simp only [leave]
      refine (holds_runPhase (quiet_of_honest tame.honest wellFormed id .leave)).settles.bind ?_
      rintro ⟨outcome, size⟩ after final ⟨carried, rfl, round⟩
      have effect := tame.effect wellFormed round
      rw [← load_congr carried] at light
      cases effect with
      | nothing same =>
          refine (holds_setState.weaken ?_).settles
          rintro _ _ _ ⟨rfl, rfl⟩
          refine ⟨(final.tree.sameShape_setState id .settled).wellFormed (same ▸ wellFormed), ?_⟩
          refine (lighter_of_le (load_setState_le (by decide))).trans_lt ?_
          rw [same]
          exact Lighter.lt_of_lt (lt_add_singleton _ _) light
      | removed sound same states =>
          have below : load bound after final.tree ≤ load bound after context.tree := load_le same states
          refine (holds_pure ⟨sound, (lighter_of_le below).trans_lt ?_⟩).settles
          exact Lighter.lt_of_lt (lt_add_singleton _ _) light
      | changed sound grows =>
          cases left with
          | zero => exact (holds_unsettled fun fault => ⟨fault, rfl⟩).settles
          | succ left =>
              have less : left ≤ bound := Nat.le_of_succ_le within
              refine (holds_handOn _ _).settles.bind ?_
              rintro _ _ final ⟨rfl, rfl⟩
              have lower : (load bound (after.inherit context.tree.size final.tree.size (bound - left))
                  final.tree + {left}).IsDershowitzMannaLT
                  (load bound after context.tree + {left + 1}) :=
                lt_of_changed grows less le_rfl le_rfl
              refine (settles_visitChildren visits sound
                (Lighter.lt_of_lt ((lt_add_singleton _ _).trans lower) light) id 0).bind ?_
              rintro _ last end' ⟨kept, lighter⟩
              exact hypothesis left (Nat.lt_succ_self left) kept less
                (((lighter.add_right _).trans (.inr lower)).trans light)
      | @replaced _ next sound grows =>
          cases left with
          | zero => exact (holds_unsettled fun fault => ⟨fault, rfl⟩).settles
          | succ left =>
              have less : left ≤ bound := Nat.le_of_succ_le within
              refine (holds_handOn _ _).settles.bind ?_
              rintro _ _ final ⟨rfl, rfl⟩
              refine (holds_setAside _).settles.bind ?_
              rintro _ _ _ ⟨rfl, rfl⟩
              have kept := (final.tree.sameShape_setState id .unvisited).wellFormed sound
              generalize counted : (after.inherit context.tree.size final.tree.size (bound - left)).carry id
                (bound - left) = aside
              have lower := lt_of_goesOn grows less next counted.symm
              have smaller := Lighter.lt_of_lt lower light
              have visited := visits _ smaller aside
                { final with tree := final.tree.setState id .unvisited } next (bound - left) kept rfl
              refine visited.weaken ?_
              rintro _ last end' ⟨sound, lighter⟩
              exact ⟨sound, lighter.trans smaller⟩

/-- Every visit ends, and leaves less to visit than it was given. -/
theorem Tame.visitEnds (tame : Tame registry) (bound : Nat) (given : Multiset Nat) :
    VisitEnds registry bound given := by
  induction given using load_induction with
  | step given visits =>
      intro state context id passes wellFormed measure
      refine Settles.step ?_
      simp only [visit]
      refine holds_progress.settles.bind ?_
      rintro _ state context ⟨rfl, rfl, rfl⟩
      refine holds_modifyProgress.settles.bind ?_
      rintro _ counted context ⟨carried, rfl⟩
      have same : ∀ tree, load bound counted tree = load bound state tree := load_congr (by rw [carried])
      refine (tame.holds_enter _ (Nat.sub_le _ _) wellFormed).settles.bind ?_
      rw [same, measure]
      rintro (_ | ⟨next, rest⟩) after entered ⟨sound, lighter⟩
      · exact (holds_pure ⟨sound, lighter⟩).settles
      · obtain ⟨within, lighter⟩ := lighter
        refine holds_setState.settles.bind ?_
        rintro _ after marked ⟨rfl, made⟩
        have kept : marked.tree.WellFormed := by
          rw [made]
          exact (entered.tree.sameShape_setState next .entered).wellFormed sound
        have light : Lighter (load bound after marked.tree + {rest}) given := by
          rw [made]
          exact (lighter_of_le (add_le_add_left (load_setState_le (by decide)) _)).trans lighter
        have less := Lighter.lt_of_lt (lt_add_singleton (load bound after marked.tree) rest) light
        refine (settles_visitChildren visits kept less next 0).bind ?_
        rintro _ last final ⟨sound, lower⟩
        refine holds_setState.settles.bind ?_
        rintro _ last exiting ⟨rfl, made⟩
        have kept : exiting.tree.WellFormed := by
          rw [made]
          exact (final.tree.sameShape_setState next .exiting).wellFormed sound
        have light : Lighter (load bound last exiting.tree + {rest}) given := by
          rw [made]
          exact ((lighter_of_le (load_setState_le (by decide))).trans lower).add_right {rest} |>.trans light
        exact tame.settles_leave visits kept within light

/-- Nodes are marked as unvisited. The induction is on those that are left. -/
theorem holds_markAll_of {halts : Halt → Prop} {holds : List NodeId → Context → Prop}
    (marks : ∀ context id rest, holds (id :: rest) context →
      holds rest { context with tree := context.tree.setState id .unvisited })
    {ids : List NodeId} (begun : holds ids context) :
    Holds halts (forIn ids PUnit.unit fun id _ => do
        setState id .unvisited
        pure (ForInStep.yield PUnit.unit)) state context fun _ after left => after = state ∧ holds [] left := by
  induction ids generalizing context with
  | nil => exact holds_pure ⟨rfl, begun⟩
  | cons id rest hypothesis =>
      rw [List.forIn_cons]
      have marked : Holds halts (do
          setState id .unvisited
          pure (ForInStep.yield PUnit.unit)) state context fun step after left =>
            step = .yield PUnit.unit ∧ after = state ∧
              left = { context with tree := context.tree.setState id .unvisited } := by
        refine holds_setState.bind ?_
        rintro _ _ _ ⟨rfl, rfl⟩
        exact holds_pure ⟨rfl, rfl, rfl⟩
      refine marked.bind ?_
      rintro _ state _ ⟨rfl, rfl, rfl⟩
      exact hypothesis (marks context id rest begun)

/-- Marking nodes as unvisited keeps the shape of the tree. -/
theorem holds_markAll {halts : Halt → Prop} (ids : List NodeId) :
    Holds halts (forIn ids PUnit.unit fun id _ => do
        setState id .unvisited
        pure (ForInStep.yield PUnit.unit)) state context fun _ after left =>
      after = state ∧ left.options = context.options ∧ context.tree.SameShape left.tree ∧
        ∀ id, (left.tree.node id).state =
          if id ∈ ids then .unvisited else (context.tree.node id).state := by
  -- Those that are left count as marked.
  refine Holds.weaken (@holds_markAll_of state context halts (fun rest left => left.options = context.options ∧
    context.tree.SameShape left.tree ∧ ∀ id, (if id ∈ rest then .unvisited else (left.tree.node id).state) =
      if id ∈ ids then .unvisited else (context.tree.node id).state) ?_ ids ⟨rfl, .refl _, fun _ => rfl⟩) ?_
  · rintro middle first rest ⟨options, shape, states⟩
    refine ⟨options, shape.trans (middle.tree.sameShape_setState first .unvisited), fun id => ?_⟩
    rw [← states]
    by_cases same : id = first
    · subst same
      by_cases present : middle.tree.Has id
      · simp [Tree.state_setState_self present]
      · simp [Tree.state_of_not_has ((middle.tree.sameShape_setState id .unvisited).has_iff.not.2 present)]
    · simp [Tree.state_setState_of_ne same, same]
  · rintro _ after left ⟨rfl, options, shape, states⟩
    exact ⟨rfl, options, shape, fun id => by simpa using states id⟩

theorem Tame.settles_start (tame : Tame registry) (wellFormed : context.tree.WellFormed) (root : NodeId) :
    Settles IsFault (fun fuel => start registry fuel root) state context fun _ _ _ => True := by
  unfold start
  refine holds_context.settles.bind ?_
  rintro _ state context ⟨rfl, rfl, rfl⟩
  refine (holds_markAll _).settles.bind ?_
  rintro _ after left ⟨rfl, -, shape, -⟩
  exact (tame.visitEnds _ _ after left root 0 (shape.wellFormed wellFormed) rfl).weaken fun _ _ _ _ => trivial

end Walk

/-- A walk over a well-formed tree ends, however the transforms of its registry change the tree and
whatever the bound on changes: with enough fuel it comes to one and the same answer, which is not that the
fuel ran out. -/
theorem Context.walk_ends (context : Context) (registry : Registry) (root : NodeId)
    (wellFormed : context.tree.WellFormed)
    (honest : ∀ transform, registry.Declares transform → transform.Honest)
    (removesOnly : ∀ transform, registry.Declares transform → transform.RemovesOnly) :
    ∃ enough answer, (∀ fuel, enough ≤ fuel → context.walk registry fuel root = answer) ∧
      answer.1 ≠ .error .exhausted := by
  have tame : Walk.Tame registry := ⟨honest, removesOnly⟩
  obtain ⟨enough, result, same, meets⟩ : Walk.Settles Walk.IsFault
    (fun fuel => Walk.start registry fuel root) {} context fun _ _ _ => True := tame.settles_start wellFormed root
  refine ⟨enough, (result.1.1.map fun _ => result.1.2, result.2), fun fuel large => ?_, ?_⟩
  · have reached : Walk.start registry fuel root {} context = result := same fuel large
    rw [Context.walk, reached]
    rfl
  · rcases result with ⟨⟨halt | value, progress⟩, final⟩
    · obtain ⟨fault, rfl⟩ := meets
      intro equal
      cases equal
    · intro equal
      cases equal

/-- A transform that sets an attribute of its node, and so reports a change each time. -/
def Transform.stamp : Transform :=
  { name := "stamp"
    apply := fun id => do
      Edit.changeTree fun tree => tree.setAttribute id "stamp" "yes"
      return .changed }

theorem Transform.stamp_does {id : NodeId} {before after : Context} {outcome : Outcome}
    (does : Transform.stamp.Does id before outcome after) :
    outcome = .changed ∧ ∃ tree, before.tree.setAttribute id "stamp" "yes" = .ok tree ∧
      after = { before with tree } := by
  unfold Transform.Does Transform.stamp at does
  rw [Edit.run_bind_eq_ok_iff] at does
  obtain ⟨⟨⟩, between, changed, done⟩ := does
  obtain ⟨tree, made, rfl⟩ := Edit.run_changeTree_eq_ok_iff.1 changed
  obtain ⟨rfl, rfl⟩ := Edit.run_pure_eq_ok_iff.1 done
  exact ⟨rfl, tree, made, rfl⟩

/-- Even a node that changes each time keeps no walk going. -/
theorem Context.walk_ends_stamp :
    let tree : Tree := { file := "page", nodes := [{ kind := .element "stamp" }] }
    let context := Context.start tree default (Registry.ofTag "stamp" [Transform.stamp])
    ∃ enough answer, (∀ fuel, enough ≤ fuel →
      context.walk (Registry.ofTag "stamp" [Transform.stamp]) fuel ⟨0⟩ = answer) ∧
        answer.1 ≠ .error .exhausted := by
  intro tree context
  refine Context.walk_ends context _ ⟨0⟩ ?_ ?_ ?_
  · exact Tree.wellFormed_of_unlinked (by simp [tree, context, Context.start])
  · intro transform declared
    obtain rfl := List.mem_singleton.1 (Registry.declares_ofTag.1 declared)
    constructor
    · intro id before after outcome _ _ does
      obtain ⟨-, tree, made, rfl⟩ := Transform.stamp_does does
      exact .single (.setAttribute made)
    · intro id before after _ _ does
      obtain ⟨reported, -⟩ := Transform.stamp_does does
      cases reported
  · intro transform declared id before after _ _ does
    obtain rfl := List.mem_singleton.1 (Registry.declares_ofTag.1 declared)
    obtain ⟨reported, -⟩ := Transform.stamp_does does
    cases reported

end HtmlTemplate
