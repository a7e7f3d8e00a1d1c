import HtmlTemplate.Proofs.Tree.Relinking
import HtmlTemplate.Proofs.Walk.Phase

/-!
# Nodes that a walk passes

A walk does nothing but mark a node whose tag passes its check and has no transforms. So it passes a subtree
of such nodes: it settles there, without a change and whatever the counts are.
-/

namespace HtmlTemplate

/-- The transforms of a tag in a file for a phase: its own, then those for all tags. -/
def Registry.transformsOf (registry : Registry) (tag file : String) (phase : Phase) : List Transform :=
  (((registry.lookup? tag file).map TagEntry.transforms).getD [] ++ registry.globals file).filter
    fun transform => transform.phase == phase

namespace Walk

variable {α β : Type} {registry : Registry} {tree : Tree} {state : Progress} {context : Context}
variable {id parent other : NodeId} {bound passes left index : Nat} {halts : Halt → Prop}

theorem transformsFor_of_tag {tag : String} (tagged : (tree.kind id).tag? = some tag) (phase : Phase) :
    transformsFor registry tree id phase = registry.transformsOf tag tree.file phase := by
  have tagged : (tree.node id).tag? = some tag := tagged
  rw [transformsFor, tagged]
  rfl

theorem transformsFor_of_untagged (untagged : (tree.kind id).tag? = none) (phase : Phase) :
    transformsFor registry tree id phase = [] := by
  have untagged : (tree.node id).tag? = none := untagged
  rw [transformsFor, untagged]

/-! ## What walks come to -/

/-- With enough fuel, and then with any more, the part of the walk comes to one and the same result, which
satisfies the condition. -/
def Concludes (work : Nat → Walk α) (state : Progress) (context : Context)
    (meets : (Except Halt α × Progress) × Context → Prop) : Prop :=
  ∃ enough result, (∀ fuel, enough ≤ fuel → work fuel state context = result) ∧ meets result

variable {work : Nat → Walk α} {good : α → Progress → Context → Prop}
variable {meets : (Except Halt β × Progress) × Context → Prop}

/-- What comes after a part that does not halt decides what the whole comes to. -/
theorem Settles.bind_concludes {next : Nat → α → Walk β} (begins : Settles (fun _ => False) work state context good)
    (goesOn : ∀ value state context, good value state context →
      Concludes (fun fuel => next fuel value) state context meets) :
    Concludes (fun fuel => work fuel >>= next fuel) state context meets := by
  obtain ⟨enough, ⟨⟨halt | value, between⟩, middle⟩, same, ended⟩ := begins
  · exact ended.elim
  · obtain ⟨more, result, sameRest, endedRest⟩ := goesOn value between middle ended
    refine ⟨max enough more, result, fun fuel large => ?_, endedRest⟩
    change (work fuel >>= next fuel) state context = _
    rw [bind_apply, same fuel (by omega)]
    exact sameRest fuel (by omega)

/-- One step of a recursion costs one unit of fuel. -/
theorem Concludes.step {work : Nat → Walk β} (comes : Concludes (fun fuel => work (fuel + 1)) state context meets) :
    Concludes work state context meets := by
  obtain ⟨enough, result, same, ended⟩ := comes
  refine ⟨enough + 1, result, fun fuel large => ?_, ended⟩
  obtain ⟨fuel, rfl⟩ := Nat.exists_eq_succ_of_ne_zero (Nat.ne_of_gt (Nat.zero_lt_of_lt large))
  exact same fuel (by omega)

/-! ## Passing -/

/-- The walk changed nothing but the marks of some nodes. -/
structure OnlyMarked (touched : NodeId → Prop) (state : Progress) (context : Context) (after : Progress)
    (final : Context) : Prop where
  carried : after.carried = state.carried
  applied : after.applied = state.applied
  shape : context.tree.SameShape final.tree
  states : ∀ other, ¬touched other → (final.tree.node other).state = (context.tree.node other).state

namespace OnlyMarked

variable {touched more : NodeId → Prop} {between after : Progress} {middle final : Context}

theorem trans (first : OnlyMarked touched state context between middle)
    (second : OnlyMarked touched between middle after final) : OnlyMarked touched state context after final where
  carried := second.carried.trans first.carried
  applied := second.applied.trans first.applied
  shape := first.shape.trans second.shape
  states other outside := (second.states other outside).trans (first.states other outside)

theorem mono (passed : OnlyMarked touched state context after final) (within : ∀ other, touched other → more other) :
    OnlyMarked more state context after final where
  carried := passed.carried
  applied := passed.applied
  shape := passed.shape
  states other outside := passed.states other fun among => outside (within other among)

end OnlyMarked

theorem onlyMarked_setState (id : NodeId) (mark : WalkState) :
    OnlyMarked (· = id) state context state { context with tree := context.tree.setState id mark } :=
  ⟨rfl, rfl, context.tree.sameShape_setState id mark, fun _ different => Tree.state_setState_of_ne different⟩

theorem holds_setState_marks (id : NodeId) (mark : WalkState) :
    Holds halts (setState id mark) state context fun _ after final =>
      OnlyMarked (· = id) state context after final ∧
        (context.tree.Has id → (final.tree.node id).state = mark) :=
  ⟨onlyMarked_setState id mark, fun present => Tree.state_setState_self present⟩

/-- The tag of the node passes its check: it is known or needs no entry, and the parent allows it. -/
structure Accepted (registry : Registry) (tree : Tree) (id : NodeId) : Prop where
  known : ∀ tag, (tree.kind id).tag? = some tag →
    (registry.lookup? tag tree.file).isSome = true ∨ needsEntry (tree.kind id) = false
  allowed : ∀ tag parent above entry, (tree.kind id).tag? = some tag → tree.parent id = some parent →
    (tree.kind parent).tag? = some above → registry.lookup? above tree.file = some entry →
      entry.rules.nesting.allows tag = true

/-- The node has no transforms, and the tag of the node passes its check. -/
structure Plain (registry : Registry) (tree : Tree) (id : NodeId) : Prop where
  accepted : Accepted registry tree id
  transforms : ∀ phase, transformsFor registry tree id phase = []

theorem Accepted.sameShape {after : Tree} (accepted : Accepted registry tree id) (shape : tree.SameShape after) :
    Accepted registry after id where
  known := by
    rw [shape.kind, shape.file]
    exact accepted.known
  allowed tag parent := by
    rw [shape.kind, shape.kind, shape.file, shape.parent]
    exact accepted.allowed tag parent

theorem transformsFor_sameShape {after : Tree} (shape : tree.SameShape after) (id : NodeId) (phase : Phase) :
    transformsFor registry after id phase = transformsFor registry tree id phase := by
  have tagged : (after.node id).tag? = (tree.node id).tag? := congrArg Kind.tag? (shape.kind id)
  rw [transformsFor, transformsFor, tagged, shape.file]

theorem Plain.sameShape {after : Tree} (plain : Plain registry tree id) (shape : tree.SameShape after) :
    Plain registry after id :=
  ⟨plain.accepted.sameShape shape, fun phase => (transformsFor_sameShape shape id phase).trans (plain.transforms phase)⟩

/-! ## Checks that pass -/

theorem Accepted.not_rejected (accepted : Accepted registry context.tree id) (halt : Halt) :
    ¬Rejected registry id context halt := by
  intro rejected
  cases rejected with
  | unrecognized tagged unknown =>
      rcases accepted.known _ tagged with found | unneeded
      · rw [unknown.missing] at found
        cases found
      · cases unneeded.symm.trans unknown.needed
  | disallowed tagged disallowed _ =>
      obtain ⟨⟨parent, linked, aboveTag⟩, entry, known, refused⟩ := disallowed
      cases refused.symm.trans (accepted.allowed _ parent _ entry tagged linked aboveTag known)

theorem Accepted.holds_checkTag (accepted : Accepted registry context.tree id) :
    Holds halts (checkTag registry id) state context fun _ => OnlyMarked (fun _ => False) state context := by
  refine Meets.weaken holds_checkTag_inspected (fun halt rejected => absurd rejected (accepted.not_rejected halt)) ?_
  rintro _ _ _ inspected
  obtain ⟨codes, diagnostics, tree, rfl, rfl, rfl | rfl⟩ := inspected.frame
  · exact ⟨rfl, rfl, .refl _, fun _ _ => rfl⟩
  · exact ⟨rfl, rfl, Tree.sameShape_setPreserve _ _ _, fun _ _ => Tree.state_setPreserve⟩

/-! ## Rounds without transforms -/

theorem holds_runPhase_of_nil {phase : Phase} (none : transformsFor registry context.tree id phase = []) :
    Holds halts (runPhase registry id phase) state context fun result after final =>
      result.1 = .unchanged ∧ after = state ∧ final = context := by
  refine Holds.runPhase ?_
  rw [none]
  exact ⟨rfl, rfl, rfl⟩

/-- Nodes without tags are entered as they are. -/
theorem holds_enter_untagged (untagged : (context.tree.kind id).tag? = none) :
    Holds halts (enter registry bound left id) state context fun result after final =>
      result = some (id, left) ∧ after = state ∧ final = { context with tree := context.tree.setState id .entering } := by
  have marked : ((context.tree.setState id .entering).kind id).tag? = none := by
    rw [(Tree.sameShape_setState _ _ _).kind, untagged]
  refine .enter_unchanged (.enterOnce (holds_checkTag_untagged marked) ?_)
  rintro _ _ ⟨rfl, rfl⟩
  refine (holds_runPhase_of_nil (transformsFor_of_untagged marked .enter)).weaken ?_
  rintro result _ _ ⟨unchanged, rfl, rfl⟩
  exact ⟨unchanged, rfl, rfl, rfl⟩

theorem Plain.holds_enterOnce (plain : Plain registry context.tree id) :
    Holds halts (enterOnce registry id) state context fun result after final =>
      result.1 = .unchanged ∧ OnlyMarked (· = id) state context after final := by
  have entering := context.tree.sameShape_setState id .entering
  refine .enterOnce (Accepted.holds_checkTag (plain.accepted.sameShape entering)) fun after final checked => ?_
  have passed : OnlyMarked (· = id) state context after final := (onlyMarked_setState id .entering).trans
    (checked.mono fun _ impossible => impossible.elim)
  refine (holds_runPhase_of_nil ((plain.sameShape passed.shape).transforms .enter)).weaken ?_
  rintro result _ _ ⟨unchanged, rfl, rfl⟩
  exact ⟨unchanged, passed⟩

/-- A plain node is entered at once. -/
theorem Plain.holds_enter (plain : Plain registry context.tree id) :
    Holds halts (enter registry bound left id) state context fun entered after final =>
      entered = some (id, left) ∧ OnlyMarked (· = id) state context after final := by
  refine .enter_unchanged (plain.holds_enterOnce.weaken ?_)
  rintro result after final ⟨unchanged, passed⟩
  exact ⟨unchanged, rfl, passed⟩

/-- A plain node is left at once. -/
theorem Plain.settles_leave (plain : Plain registry context.tree id) :
    Settles halts (fun fuel => leave registry bound fuel id left) state context fun _ after final =>
      OnlyMarked (· = id) state context after final ∧ (context.tree.Has id → (final.tree.node id).state = .settled) := by
  refine Settles.step ?_
  simp only [leave]
  refine (holds_runPhase_of_nil (plain.transforms .leave)).settles.bind ?_
  rintro ⟨outcome, size⟩ _ _ ⟨rfl, rfl, rfl⟩
  exact (holds_setState_marks id .settled).settles

/-! ## Subtrees of plain nodes -/

/-- All that is below the node is plain and has not been visited yet. -/
inductive Calm (registry : Registry) (tree : Tree) : NodeId → Prop
  | intro {id : NodeId} : Plain registry tree id → (tree.node id).state = .unvisited →
      (∀ child ∈ tree.children id, Calm registry tree child) → Calm registry tree id

theorem Calm.unvisited (calm : Calm registry tree id) : (tree.node id).state = .unvisited := by
  cases calm with
  | intro _ unvisited _ => exact unvisited

theorem Calm.plain_below (wellFormed : tree.WellFormed) (calm : Calm registry tree id)
    (onPath : tree.OnPath id other) : Plain registry tree other := by
  suffices Calm registry tree other by
    cases this with
    | intro plain _ _ => exact plain
  induction onPath with
  | self => exact calm
  | step linked _ hypothesis =>
      cases hypothesis with
      | intro _ _ below => exact below _ ((wellFormed.linked _ _).2 linked)

/-- The tree has the same shape, and below the node the same states. -/
structure AsBelow (tree : Tree) (top : NodeId) (current : Tree) : Prop where
  shape : tree.SameShape current
  states : ∀ id, tree.OnPath top id → (current.node id).state = (tree.node id).state

namespace AsBelow

variable {touched : NodeId → Prop} {after : Progress} {final : Context}

theorem lower (alike : AsBelow tree id context.tree) (onPath : tree.OnPath id other) :
    AsBelow tree other context.tree :=
  ⟨alike.shape, fun below under => alike.states below (onPath.trans under)⟩

/-- What is passed elsewhere leaves the states below the node as they are. -/
theorem passed (alike : AsBelow tree id context.tree) (passed : OnlyMarked touched state context after final)
    (apart : ∀ other, tree.OnPath id other → ¬touched other) : AsBelow tree id final.tree :=
  ⟨alike.shape.trans passed.shape,
    fun other below => (passed.states other (apart other below)).trans (alike.states other below)⟩

/-- Marks on the parent leave the states below a child as they are. -/
theorem child (wellFormed : tree.WellFormed) (alike : AsBelow tree parent context.tree)
    (linked : tree.parent id = some parent) (passed : OnlyMarked (· = parent) state context after final) :
    AsBelow tree id final.tree := by
  refine (alike.lower (.step linked .self)).passed passed ?_
  rintro _ below rfl
  obtain ⟨depth, grounded⟩ := wellFormed.grounded id
  exact Tree.not_onPath_parent grounded linked below

/-- What is passed below one child leaves the states below another child as they are. -/
theorem sibling (wellFormed : tree.WellFormed) {first : NodeId} (alike : AsBelow tree id context.tree)
    (linked : tree.parent id = some parent) (beside : tree.parent first = some parent) (different : first ≠ id)
    (passed : OnlyMarked (tree.OnPath first) state context after final) : AsBelow tree id final.tree :=
  alike.passed passed fun _ below under =>
    different (wellFormed.eq_of_onPath_of_siblings beside linked under below)

end AsBelow

/-- A visit of the node passes it and all that is below it, whatever it starts from. -/
def PassesBy (registry : Registry) (bound : Nat) (tree : Tree) (id : NodeId) : Prop :=
  ∀ passes state context, AsBelow tree id context.tree →
    Settles (fun _ => False) (fun fuel => visit registry bound fuel id passes) state context fun _ after final =>
      OnlyMarked (tree.OnPath id) state context after final ∧ (final.tree.node id).state ≠ .unvisited

/-- Children that are passed by are visited one after the other, up to the first one that is not among
them. The induction is on what is left of them. -/
theorem concludes_of_passesBy {meets : (Except Halt Unit × Progress) × Context → Prop} (before front rest : List NodeId)
    (wellFormed : tree.WellFormed) (passes : ∀ first ∈ front, PassesBy registry bound tree first)
    (unvisited : ∀ first ∈ front, (tree.node first).state = .unvisited)
    (split : tree.children parent = before ++ (front ++ rest)) (shape : tree.SameShape context.tree)
    (alike : ∀ first ∈ front, AsBelow tree first context.tree)
    (goesOn : ∀ after final, OnlyMarked (fun other => ∃ first ∈ front, tree.OnPath first other) state context after final →
      Concludes (fun fuel => visitChildren registry bound fuel parent (before ++ front).length) after final meets) :
    Concludes (fun fuel => visitChildren registry bound fuel parent before.length) state context meets := by
  induction front generalizing before state context with
  | nil =>
      rw [List.append_nil] at goesOn
      exact goesOn state context ⟨rfl, rfl, .refl _, fun _ _ => rfl⟩
  | cons first front hypothesis =>
      have listed : first ∈ tree.children parent := by simp [split]
      have linked := (wellFormed.linked parent first).1 listed
      have apart : ∀ later ∈ front, first ≠ later := by
        have distinct := wellFormed.nodup parent
        rw [split] at distinct
        rintro later member rfl
        have distinct := (List.nodup_cons.1 (List.nodup_append.1 distinct).2.1).1
        exact distinct (List.mem_append_left _ member)
      have found : ∀ current : Context, tree.SameShape current.tree →
          (current.tree.children parent)[before.length]? = some first := by
        intro current same
        rw [same.children, split]
        simp
      refine Concludes.step ?_
      simp only [visitChildren]
      refine holds_tree.settles.bind_concludes ?_
      rintro _ state context ⟨rfl, rfl, rfl⟩
      rw [found context shape]
      have mark : (context.tree.node first).state = .unvisited :=
        ((alike first List.mem_cons_self).states first .self).trans (unvisited first List.mem_cons_self)
      simp only [mark, beq_self_eq_true, if_true]
      refine (passes first List.mem_cons_self 0 state context (alike first List.mem_cons_self)).bind_concludes ?_
      rintro _ between middle ⟨passed, visited⟩
      refine Concludes.step ?_
      simp only [visitChildren]
      refine holds_tree.settles.bind_concludes ?_
      rintro _ between middle ⟨rfl, rfl, rfl⟩
      rw [found middle (shape.trans passed.shape)]
      simp only [beq_eq_false_iff_ne.2 visited, Bool.false_eq_true, if_false]
      have next : (before ++ [first]).length = before.length + 1 := by simp
      rw [← next]
      refine hypothesis (before ++ [first]) (fun later member => passes later (List.mem_cons_of_mem _ member))
        (fun later member => unvisited later (List.mem_cons_of_mem _ member)) (by simp [split])
        (shape.trans passed.shape) (fun later member => ?_) fun after final others => ?_
      · have linkedLater := (wellFormed.linked parent later).1 (by simp [split, member])
        exact (alike later (List.mem_cons_of_mem _ member)).sibling wellFormed linkedLater linked
          (apart later member) passed
      · have all := goesOn after final ((passed.mono fun other under => ⟨first, List.mem_cons_self, under⟩).trans
          (others.mono fun _ below => below.imp fun _ => And.imp_left (List.mem_cons_of_mem _)))
        rwa [List.append_assoc, List.singleton_append]

/-- A visit passes a subtree of plain nodes. The induction is on the subtree. -/
theorem Calm.passesBy (wellFormed : tree.WellFormed) (present : tree.Has id) (calm : Calm registry tree id) :
    PassesBy registry bound tree id := by
  induction calm with
  | @intro id plain unvisited below hypothesis =>
      intro passes state context alike
      refine Settles.step ?_
      simp only [visit]
      refine holds_progress.settles.bind ?_
      rintro _ state context ⟨rfl, rfl, rfl⟩
      refine holds_modifyProgress.settles.bind ?_
      rintro _ _ context ⟨rfl, rfl⟩
      refine (plain.sameShape alike.shape).holds_enter.settles.bind ?_
      rintro _ between middle ⟨rfl, entered⟩
      dsimp only
      refine (holds_setState_marks id .entered).settles.bind ?_
      rintro _ after final ⟨marked, -⟩
      have before := entered.trans marked
      have children : Settles (fun _ => False) (fun fuel => visitChildren registry bound fuel id 0) after final
          fun _ last end' => OnlyMarked (fun other => ∃ child ∈ tree.children id, tree.OnPath child other) after final
            last end' := by
        have shape := alike.shape.trans before.shape
        refine concludes_of_passesBy [] (tree.children id) [] wellFormed
          (fun child member => hypothesis child member (wellFormed.has_child member))
          (fun child member => (below child member).unvisited) (by simp) shape
          (fun child member => alike.child wellFormed ((wellFormed.linked id child).1 member) before)
          fun last end' passed => ?_
        refine Concludes.step ?_
        simp only [visitChildren]
        refine holds_tree.settles.bind_concludes ?_
        rintro _ last end' ⟨rfl, rfl, rfl⟩
        rw [List.getElem?_eq_none (by rw [(shape.trans passed.shape).children]; simp)]
        have ended : Holds (fun _ => False) (pure ()) last end' fun _ last end' => OnlyMarked
            (fun other => ∃ child ∈ tree.children id, tree.OnPath child other) after final last end' := passed
        exact ended.settles
      refine children.bind ?_
      rintro _ last end' passed
      have within : ∀ other, (∃ child ∈ tree.children id, tree.OnPath child other) → tree.OnPath id other := by
        rintro other ⟨child, member, under⟩
        exact (Tree.OnPath.step ((wellFormed.linked id child).1 member) .self).trans under
      have through := (before.mono fun other same => same ▸ .self).trans (passed.mono within)
      refine (holds_setState_marks id .exiting).settles.bind ?_
      rintro _ leaving exit ⟨marked, -⟩
      have through := through.trans (marked.mono fun other same => same ▸ .self)
      have shape := alike.shape.trans through.shape
      refine (plain.sameShape shape).settles_leave.weaken ?_
      rintro _ settled end'' ⟨left, mark⟩
      have whole := through.trans (left.mono fun other same => same ▸ .self)
      have there : exit.tree.Has id := shape.has_iff.2 present
      refine ⟨⟨whole.carried, whole.applied, whole.shape, whole.states⟩, ?_⟩
      rw [mark there]
      decide

end Walk
end HtmlTemplate
