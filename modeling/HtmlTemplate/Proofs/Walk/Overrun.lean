import HtmlTemplate.Proofs.Tree.Ancestry
import HtmlTemplate.Proofs.Tree.Rewiring
import HtmlTemplate.Proofs.Walk.Calm
import HtmlTemplate.Proofs.Walk.Termination

/-!
# Tags that bring themselves back

A transform that puts a subtree with its own tag in the place of each element with the tag keeps that tag in
the tree, so a walk can only stop at the bound on changes. It does after one change more than the bound: all
the changes come down on one line of descent, in which each element starts from the count of the one before.
-/

namespace HtmlTemplate
namespace Walk

variable {α β : Type} {registry : Registry} {tag : String} {transform : Transform} {tree : Tree}
variable {state : Progress} {context : Context} {id target top : NodeId} {bound left : Nat}

/-! ## Elements ahead -/

/-- The tag of the node passes its check, and the node is an element with the given tag or has no transforms. -/
structure Suits (registry : Registry) (tag : String) (tree : Tree) (id : NodeId) : Prop where
  accepted : Accepted registry tree id
  transforms : tree.kind id = .element tag ∨ ∀ phase, transformsFor registry tree id phase = []

theorem Suits.sameShape {after : Tree} (suits : Suits registry tag tree id) (shape : tree.SameShape after) :
    Suits registry tag after id where
  accepted := suits.accepted.sameShape shape
  transforms := by
    rcases suits.transforms with tagged | none
    · exact .inl ((shape.kind id).trans tagged)
    · exact .inr fun phase => (transformsFor_sameShape shape id phase).trans (none phase)

/-- From the node a walk comes to the target, an element with the tag, by plain nodes only. -/
inductive Ahead (registry : Registry) (tag : String) (tree : Tree) (target : NodeId) : NodeId → Prop
  | here {parent : NodeId} : tree.kind target = .element tag → Accepted registry tree target →
      tree.parent target = some parent → Ahead registry tag tree target target
  | further {id child : NodeId} {front rest : List NodeId} : Plain registry tree id →
      tree.children id = front ++ child :: rest → (∀ first ∈ front, Calm registry tree first) →
      (tree.node child).state = .unvisited → Ahead registry tag tree target child →
      Ahead registry tag tree target id

theorem Ahead.kind (ahead : Ahead registry tag tree target top) : tree.kind target = .element tag := by
  induction ahead with
  | here tagged _ _ => exact tagged
  | further _ _ _ _ _ hypothesis => exact hypothesis

/-- A list satisfies the first condition, or it has a first item that satisfies the second one. -/
theorem forall_or_exists_first {first second : α → Prop} (list : List α)
    (either : ∀ item ∈ list, first item ∨ second item) :
    (∀ item ∈ list, first item) ∨
      ∃ front item rest, list = front ++ item :: rest ∧ (∀ item ∈ front, first item) ∧ second item := by
  induction list with
  | nil => exact .inl fun _ member => absurd member List.not_mem_nil
  | cons head list hypothesis =>
      rcases either head List.mem_cons_self with holds | other
      · rcases hypothesis fun item member => either item (List.mem_cons_of_mem _ member) with
          all | ⟨front, item, rest, rfl, before, found⟩
        · exact .inl (List.forall_mem_cons.2 ⟨holds, all⟩)
        · exact .inr ⟨head :: front, item, rest, rfl, List.forall_mem_cons.2 ⟨holds, before⟩, found⟩
      · exact .inr ⟨[], head, list, rfl, fun _ member => absurd member List.not_mem_nil, other⟩

/-- The node is below the top node, and no element with the tag is between them. -/
structure Foremost (tag : String) (tree : Tree) (top id : NodeId) : Prop where
  below : tree.OnPath top id
  clear : ∀ above, above ≠ id → tree.OnPath top above → tree.OnPath above id → tree.kind above ≠ .element tag

theorem foremost_self (wellFormed : tree.WellFormed) (top : NodeId) : Foremost tag tree top top where
  below := .self
  clear above different under lower _ := by
    obtain ⟨depth, grounded⟩ := wellFormed.grounded top
    exact different (Tree.OnPath.antisymm grounded under lower).symm

theorem Foremost.child (wellFormed : tree.WellFormed) (foremost : Foremost tag tree top id)
    (untagged : tree.kind id ≠ .element tag) {child : NodeId} (member : child ∈ tree.children id) :
    Foremost tag tree top child where
  below := .step ((wellFormed.linked id child).1 member) foremost.below
  clear above different under lower := by
    rcases Tree.onPath_iff.1 lower with same | ⟨parent, linked, upper⟩
    · exact absurd same different
    · obtain rfl := Option.some.inj (((wellFormed.linked id child).1 member).symm.trans linked)
      by_cases same : above = id
      · rw [same]
        exact untagged
      · exact foremost.clear above same under upper

/-- If the foremost nodes below one suit, then all that is below is plain, or the walk comes to a foremost
element with the tag. -/
theorem calm_or_ahead (wellFormed : tree.WellFormed)
    (placed : tree.kind top = .element tag → tree.parent top ≠ none)
    (suits : ∀ id, Foremost tag tree top id → Suits registry tag tree id ∧ (tree.node id).state = .unvisited) :
    Calm registry tree top ∨ ∃ target, Foremost tag tree top target ∧ Ahead registry tag tree target top := by
  have within : ∀ id, Foremost tag tree top id → Calm registry tree id ∨ (tree.node id).state = .unvisited ∧
      ∃ target, Foremost tag tree top target ∧ Ahead registry tag tree target id := by
    intro id
    induction id using wellFormed.below_induction with
    | step id hypothesis =>
        intro foremost
        obtain ⟨suit, unvisited⟩ := suits id foremost
        by_cases tagged : tree.kind id = .element tag
        · refine .inr ⟨unvisited, id, foremost, ?_⟩
          cases linked : tree.parent id with
          | some parent => exact .here tagged suit.accepted linked
          | none =>
              obtain rfl := Tree.onPath_of_root linked foremost.below
              exact absurd linked (placed tagged)
        · have plain : Plain registry tree id := ⟨suit.accepted, suit.transforms.resolve_left tagged⟩
          rcases forall_or_exists_first (tree.children id) fun child member =>
              hypothesis child member (foremost.child wellFormed tagged member) with
            calm | ⟨front, child, rest, split, calm, waiting, target, first, ahead⟩
          · exact .inl (.intro plain unvisited calm)
          · exact .inr ⟨unvisited, target, first, .further plain split calm waiting ahead⟩
  rcases within top (foremost_self wellFormed top) with calm | ⟨-, found⟩
  · exact .inl calm
  · exact .inr found

/-- A subtree that is passed has no elements with a tag that has a transform for entering. -/
theorem Calm.untagged (wellFormed : tree.WellFormed) (calm : Calm registry tree top) (below : tree.OnPath top id)
    (single : registry.transformsOf tag tree.file .enter = [transform]) : tree.kind id ≠ .element tag := by
  intro tagged
  have none := (calm.plain_below wellFormed below).transforms .enter
  rw [transformsFor_of_tag (by rw [tagged]; rfl), single] at none
  cases none

/-! ## Transforms that bring their tag back -/

/-- In the place of an element with the tag stands a subtree with an element with the tag. It is made of new
nodes that suit the tag, and maybe of the old element with whatever is below it. -/
structure Regrown (registry : Registry) (tag : String) (id next : NodeId) (before after : Tree) : Prop where
  wellFormed : after.WellFormed
  file : after.file = before.file
  size : before.size ≤ after.size
  kind : after.kind id = .element tag
  place : after.parent next = before.parent id
  fresh : ∀ other, after.OnPath next other → ¬(after.OnPath next id ∧ after.OnPath id other) →
    ¬before.Has other ∧ (after.node other).state = .unvisited ∧ Suits registry tag after other
  old : after.OnPath next id → Accepted registry after id
  bears : ∃ other, after.OnPath next other ∧ after.kind other = .element tag

/-- Whatever element with the tag the transform is applied to in the file, it reports one replaced that was
put in its place with another element with the tag. -/
def Regrows (registry : Registry) (tag file : String) (transform : Transform) : Prop :=
  ∀ (id parent : NodeId) (before : Context), before.tree.WellFormed → before.tree.file = file →
    before.tree.kind id = .element tag → before.tree.parent id = some parent → Accepted registry before.tree id →
      ∃ next after, transform.Does id before (.replaced next) after ∧
        Regrown registry tag id next before.tree after.tree

theorem Regrown.has {before after : Tree} {next : NodeId} (regrown : Regrown registry tag id next before after) :
    after.Has id :=
  has_of_element regrown.kind

/-- What stands in the place of the element is a way to another one: the old element or a new one. -/
theorem Regrown.ahead {before after : Tree} {next parent : NodeId} (regrown : Regrown registry tag id next before after)
    (single : registry.transformsOf tag after.file .enter = [transform]) (linked : before.parent id = some parent) :
    ∃ target, (target = id ∨ ¬before.Has target) ∧
      Ahead registry tag (after.setState id .unvisited) target next := by
  have shape := after.sameShape_setState id .unvisited
  have wellFormed := shape.wellFormed regrown.wellFormed
  have present := regrown.has
  have suits : ∀ other, Foremost tag (after.setState id .unvisited) next other →
      (other = id ∨ ¬before.Has other) ∧ Suits registry tag (after.setState id .unvisited) other ∧
        ((after.setState id .unvisited).node other).state = .unvisited := by
    intro other foremost
    by_cases same : other = id
    · subst same
      exact ⟨.inl rfl, .sameShape ⟨regrown.old (shape.onPath_iff.1 foremost.below), .inl regrown.kind⟩ shape,
        Tree.state_setState_self present⟩
    · have outside : ¬(after.OnPath next id ∧ after.OnPath id other) := fun ⟨upper, under⟩ =>
        foremost.clear id (fun equal => same equal.symm) (shape.onPath upper) (shape.onPath under)
          ((shape.kind id).trans regrown.kind)
      obtain ⟨new, unvisited, suit⟩ := regrown.fresh other (shape.onPath_iff.1 foremost.below) outside
      exact ⟨.inr new, suit.sameShape shape, (Tree.state_setState_of_ne same).trans unvisited⟩
  have placed : (after.setState id .unvisited).parent next ≠ none := by
    rw [shape.parent, regrown.place, linked]
    exact Option.some_ne_none parent
  rcases calm_or_ahead wellFormed (fun _ => placed) fun other foremost => (suits other foremost).2 with
    calm | ⟨target, foremost, ahead⟩
  · obtain ⟨other, below, tagged⟩ := regrown.bears
    exact absurd ((shape.kind other).trans tagged) (calm.untagged wellFormed (shape.onPath below) single)
  · exact ⟨target, (suits target foremost).1, ahead⟩

theorem Regrown.sameShape {before earlier after : Tree} {next : NodeId} (shape : earlier.SameShape before)
    (regrown : Regrown registry tag id next before after) : Regrown registry tag id next earlier after where
  wellFormed := regrown.wellFormed
  file := regrown.file.trans shape.file
  size := shape.size ▸ regrown.size
  kind := regrown.kind
  place := regrown.place.trans (shape.parent id)
  fresh other below outside := by
    obtain ⟨new, rest⟩ := regrown.fresh other below outside
    exact ⟨fun present => new (shape.has_iff.2 present), rest⟩
  old := regrown.old
  bears := regrown.bears

/-- Entering an element with the tag applies the transform once. -/
theorem Regrows.holds_enterOnce {parent : NodeId} (regrows : Regrows registry tag context.tree.file transform)
    (single : registry.transformsOf tag context.tree.file .enter = [transform]) (wellFormed : context.tree.WellFormed)
    (tagged : context.tree.kind id = .element tag) (linked : context.tree.parent id = some parent)
    (accepted : Accepted registry context.tree id) :
    Holds (fun _ => False) (enterOnce registry id) state context fun result after final =>
      result.2 = context.tree.size ∧ after.carried = state.carried ∧ after.applied = state.applied + 1 ∧
        ∃ next, Regrown registry tag id next context.tree final.tree ∧
          result.1 = if next = id then .changed else .replaced next := by
  have entering := context.tree.sameShape_setState id .entering
  refine .enterOnce (Accepted.holds_checkTag (accepted.sameShape entering)) fun after entered checked => .runPhase ?_
  have passed : OnlyMarked (· = id) state context after entered := (onlyMarked_setState id .entering).trans
    (checked.mono fun _ impossible => impossible.elim)
  have shape := passed.shape
  have taggedStill : entered.tree.kind id = .element tag := (shape.kind id).trans tagged
  rw [transformsFor_of_tag (by rw [taggedStill]; rfl), shape.file, single]
  obtain ⟨next, final, does, regrown⟩ := regrows id parent entered (shape.wellFormed wellFormed) shape.file
    taggedStill ((shape.parent id).trans linked) (accepted.sameShape shape)
  have regrown := regrown.sameShape shape
  have confirmed : Holds (fun _ => False) (confirm transform id (.replaced next)) { after with applied := after.applied + 1 }
      final fun outcome last end' => last = { after with applied := after.applied + 1 } ∧ end' = final ∧
        outcome = if next = id then .changed else .replaced next := by
    by_cases same : next = id
    · refine holds_tree.bind ?_
      rintro _ _ _ ⟨rfl, rfl, rfl⟩
      rw [if_pos (by simpa using same)]
      exact ⟨rfl, rfl, (if_pos same).symm⟩
    · refine holds_confirm_replaced same ?_ ⟨rfl, rfl, (if_neg same).symm⟩
      rw [regrown.place, linked]
      exact Option.some_ne_none parent
  refine holds_applyFirst_acts does (fun impossible => by cases impossible) (confirmed.weaken ?_)
  rintro outcome _ _ ⟨rfl, rfl, reported⟩
  exact ⟨shape.size, passed.carried, congrArg (· + 1) passed.applied, next, regrown, reported⟩

/-! ## Running over the bound -/

/-- The walk stops at the bound, at an element with the tag and after so many changes. -/
def Overruns (tag : String) (bound applied : Nat) : (Except Halt α × Progress) × Context → Prop
  | ((.error (.fault fault), after), _) =>
      fault.cause = .unsettled ("<" ++ tag ++ ">") bound ∧ after.applied = applied
  | _ => False

theorem concludes_unsettled (tagged : context.tree.kind id = .element tag) :
    Concludes (fun _ => (unsettled bound id : Walk α)) state context (Overruns tag bound state.applied) := by
  refine ⟨0, _, fun _ _ => rfl, ?_, rfl⟩
  have described : (context.tree.node id).describe = "<" ++ tag ++ ">" := by
    have kind : (context.tree.node id).kind = .element tag := tagged
    rw [Node.describe, kind]
    rfl
  exact congrArg (Cause.unsettled · bound) described

theorem Concludes.bind_overruns {work : Nat → Walk α} {next : Nat → α → Walk β} {applied : Nat}
    (comes : Concludes work state context (Overruns tag bound applied)) :
    Concludes (fun fuel => work fuel >>= next fuel) state context (Overruns tag bound applied) := by
  obtain ⟨enough, ⟨⟨(fault | _) | value, between⟩, middle⟩, same, overruns⟩ := comes
  · refine ⟨enough, ((.error (.fault fault), between), middle), fun fuel large => ?_, overruns⟩
    change (work fuel >>= next fuel) state context = _
    rw [bind_apply, same fuel large]
  · exact overruns.elim
  · exact overruns.elim

/-- What a visit goes on with when its node was entered. -/
def proceed (registry : Registry) (bound fuel : Nat) : Option (NodeId × Nat) → Walk Unit
  | none => return ()
  | some (id, left) => do
      setState id .entered
      visitChildren registry bound fuel id 0
      setState id .exiting
      leave registry bound fuel id left

theorem concludes_visit {meets : (Except Halt Unit × Progress) × Context → Prop}
    (comes : Concludes (fun fuel => enter registry bound (bound - state.startOf id) id >>= proceed registry bound fuel)
      { state with visited := state.visited + 1 } context meets) :
    Concludes (fun fuel => visit registry bound fuel id 0) state context meets := by
  refine Concludes.step ?_
  simp only [visit]
  refine holds_progress.settles.bind_concludes ?_
  rintro _ state context ⟨rfl, rfl, rfl⟩
  refine holds_modifyProgress.settles.bind_concludes ?_
  rintro _ _ context ⟨rfl, rfl⟩
  rw [Nat.zero_max]
  convert comes using 4 with fuel entered
  rcases entered with _ | ⟨next, left⟩ <;> rfl

/-- A plain node is entered at once, and its children are visited up to the first one that is not calm. If
the walk stops there, it stops. -/
theorem Plain.overruns {child : NodeId} {front rest : List NodeId} {given applied : Nat} (wellFormed : tree.WellFormed)
    (plain : Plain registry tree id) (split : tree.children id = front ++ child :: rest)
    (calm : ∀ first ∈ front, Calm registry tree first) (waiting : (tree.node child).state = .unvisited)
    (alike : AsBelow tree id context.tree)
    (visits : ∀ after final, AsBelow tree child final.tree → after.carried = state.carried →
      after.applied = state.applied →
        Concludes (fun fuel => visit registry bound fuel child 0) after final (Overruns tag bound applied)) :
    Concludes (fun fuel => enter registry bound given id >>= proceed registry bound fuel) state context
      (Overruns tag bound applied) := by
  have linked : ∀ kid ∈ front ++ child :: rest, tree.parent kid = some id := fun kid member =>
    (wellFormed.linked id kid).1 (split ▸ member)
  have distinct := wellFormed.nodup id
  rw [split] at distinct
  refine (plain.sameShape alike.shape).holds_enter.settles.bind_concludes ?_
  rintro _ between middle ⟨rfl, entered⟩
  refine (holds_setState_marks id .entered).settles.bind_concludes ?_
  rintro _ between middle ⟨marked, -⟩
  have before := entered.trans marked
  have shape := alike.shape.trans before.shape
  refine Concludes.bind_overruns ?_
  refine concludes_of_passesBy [] front (child :: rest) wellFormed
    (fun first member => (calm first member).passesBy wellFormed
      (wellFormed.has_child (split ▸ List.mem_append_left _ member)))
    (fun first member => (calm first member).unvisited) split shape
    (fun first member => alike.child wellFormed (linked first (List.mem_append_left _ member)) before)
    fun after final passed => ?_
  have alikeChild : AsBelow tree child final.tree := by
    refine (alike.child wellFormed (linked child (by simp)) before).passed passed ?_
    rintro other under ⟨first, member, lower⟩
    have same := wellFormed.eq_of_onPath_of_siblings (linked first (List.mem_append_left _ member))
      (linked child (by simp)) lower under
    subst same
    exact (List.nodup_append.1 distinct).2.2 first member first List.mem_cons_self rfl
  refine Concludes.step ?_
  simp only [visitChildren]
  refine holds_tree.settles.bind_concludes ?_
  rintro _ after final ⟨rfl, rfl, rfl⟩
  have found : (final.tree.children id)[([] ++ front).length]? = some child := by
    rw [alikeChild.shape.children, split]
    simp
  have mark : (final.tree.node child).state = .unvisited := (alikeChild.states child .self).trans waiting
  rw [found]
  simp only [mark, beq_self_eq_true, if_true]
  exact (visits after final alikeChild (passed.carried.trans before.carried)
    (passed.applied.trans before.applied)).bind_overruns

/-! ## Counts along the descent -/

/-- In the file, the tag has one transform for entering, which brings the tag back. -/
structure Perennial (registry : Registry) (tag file : String) (transform : Transform) : Prop where
  single : registry.transformsOf tag file .enter = [transform]
  regrows : Regrows registry tag file transform

/-- Nodes that were not made yet start from nothing. -/
def Counted (tree : Tree) (state : Progress) : Prop :=
  ∀ id, ¬tree.Has id → state.startOf id = 0

theorem startOf_inherit (state : Progress) (id : NodeId) (first past passes : Nat) :
    (state.inherit first past passes).startOf id =
      if first ≤ id.index ∧ id.index < past then max (state.startOf id) passes else state.startOf id := by
  rw [Progress.inherit, startOf_foldl_carry]
  refine if_congr ?_ rfl rfl
  simp only [List.mem_range'_1]
  omega

theorem applied_inherit (state : Progress) (first past passes : Nat) :
    (state.inherit first past passes).applied = state.applied := by
  rw [inherit_eq]

/-- Handing a count on keeps it that nodes that were not made yet start from nothing. -/
theorem Counted.inherit {before after : Tree} (counted : Counted before state) (size : before.size ≤ after.size)
    (passes : Nat) : Counted after (state.inherit before.size after.size passes) := by
  intro id absent
  rw [startOf_inherit, if_neg fun within => absent within.2]
  exact counted id fun present => absent (Nat.lt_of_lt_of_le present size)

theorem startOf_inherit_new {before after : Tree} (counted : Counted before state) (new : ¬before.Has id)
    (made : after.Has id) (passes : Nat) : (state.inherit before.size after.size passes).startOf id = passes := by
  rw [startOf_inherit, if_pos ⟨Nat.le_of_not_lt new, made⟩, counted id new, Nat.zero_max]

theorem Counted.congr {after : Tree} {other : Progress} (counted : Counted tree state) (size : after.size = tree.size)
    (carried : other.carried = state.carried) : Counted after other := by
  intro id absent
  rw [Progress.startOf, carried]
  exact counted id (by rwa [Tree.Has, ← size])

/-- Entered with so many changes left, an element with the tag is the first of a descent that runs over. -/
def EnterOverruns (registry : Registry) (tag file : String) (bound left : Nat) : Prop :=
  ∀ (state : Progress) (context : Context) (id parent : NodeId), context.tree.WellFormed →
    context.tree.file = file → context.tree.kind id = .element tag → context.tree.parent id = some parent →
      Accepted registry context.tree id → Counted context.tree state →
        Concludes (fun fuel => enter registry bound left id >>= proceed registry bound fuel) state context
          (Overruns tag bound (state.applied + left + 1))

/-- A visit that comes to an element with so many changes left to it runs over. -/
def VisitOverruns (registry : Registry) (tag file : String) (bound left : Nat) : Prop :=
  ∀ (tree : Tree) (state : Progress) (context : Context) (target top : NodeId), tree.WellFormed →
    tree.file = file → Ahead registry tag tree target top → AsBelow tree top context.tree → Counted tree state →
      state.startOf target = bound - left →
        Concludes (fun fuel => visit registry bound fuel top 0) state context
          (Overruns tag bound (state.applied + left + 1))

variable {file : String}

theorem visitOverruns (within : left ≤ bound) (enters : EnterOverruns registry tag file bound left) :
    VisitOverruns registry tag file bound left := by
  intro tree state context target top wellFormed named ahead alike counted starts
  induction ahead generalizing state context with
  | here tagged accepted linked =>
      have shape := alike.shape
      refine concludes_visit ?_
      rw [starts, Nat.sub_sub_self within]
      exact enters _ context target _ (shape.wellFormed wellFormed) (shape.file.trans named)
        ((shape.kind target).trans tagged) ((shape.parent target).trans linked) (accepted.sameShape shape)
        (counted.congr shape.size rfl)
  | further plain split calm waiting _ hypothesis =>
      refine concludes_visit (plain.overruns wellFormed split calm waiting alike fun after final same carried applied => ?_)
      have starts : after.startOf target = bound - left := by
        rw [Progress.startOf, carried]
        exact starts
      have overruns := hypothesis after final same (counted.congr rfl carried) starts
      rwa [applied] at overruns

/-- Entering a node from which a walk comes to an element runs over as entering the element does. -/
theorem concludes_enter_of_ahead (context : Context) (enters : EnterOverruns registry tag file bound left)
    (visits : VisitOverruns registry tag file bound left) (wellFormed : context.tree.WellFormed)
    (named : context.tree.file = file) (ahead : Ahead registry tag context.tree target top)
    (counted : Counted context.tree state) (starts : state.startOf target = bound - left) :
    Concludes (fun fuel => enter registry bound left top >>= proceed registry bound fuel) state context
      (Overruns tag bound (state.applied + left + 1)) := by
  cases ahead with
  | here tagged accepted linked => exact enters state context target _ wellFormed named tagged linked accepted counted
  | further plain split calm waiting further =>
      refine plain.overruns wellFormed split calm waiting ⟨.refl _, fun _ _ => rfl⟩
        fun after final alike carried applied => ?_
      have overruns := visits context.tree after final target _ wellFormed named further alike
        (counted.congr rfl carried) (by rw [Progress.startOf, carried]; exact starts)
      rwa [applied] at overruns

/-- The changes left go down by one from each element of the descent to the next one. The old element may
come up itself, at once or below its replacement, or a new one: all of them start from the same count. -/
theorem Perennial.enterOverruns (perennial : Perennial registry tag file transform) (within : left ≤ bound) :
    EnterOverruns registry tag file bound left := by
  induction left with
  | zero =>
      intro state context id parent wellFormed named tagged linked accepted counted
      subst named
      refine Concludes.bind_overruns ?_
      simp only [enter]
      refine (perennial.regrows.holds_enterOnce perennial.single wellFormed tagged linked accepted).settles.bind_concludes ?_
      rintro ⟨outcome, size⟩ after final ⟨rfl, -, applied, next, regrown, reported⟩
      dsimp only at reported ⊢
      have stops : Concludes (fun _ => (unsettled bound id : Walk (Option (NodeId × Nat)))) after final
          (Overruns tag bound (state.applied + 0 + 1)) := by
        rw [Nat.add_zero, ← applied]
        exact concludes_unsettled regrown.kind
      by_cases same : next = id
      · rw [reported, if_pos same]
        exact stops
      · rw [reported, if_neg same]
        exact stops
  | succ left hypothesis =>
      intro state context id parent wellFormed named tagged linked accepted counted
      subst named
      have within := Nat.le_of_succ_le within
      have enters := hypothesis within
      have visits := visitOverruns within enters
      simp only [enter, bind_assoc]
      refine (perennial.regrows.holds_enterOnce perennial.single wellFormed tagged linked accepted).settles.bind_concludes ?_
      rintro ⟨outcome, size⟩ after final ⟨rfl, carried, applied, next, regrown, reported⟩
      dsimp only at reported ⊢
      have counted := counted.congr rfl carried
      have total : state.applied + (left + 1) + 1 = after.applied + left + 1 := by omega
      have place := regrown.place.trans linked
      rw [total, reported]
      by_cases same : next = id
      · subst same
        simp only [if_true, bind_assoc]
        refine (holds_handOn _ _).settles.bind_concludes ?_
        rintro _ _ final ⟨rfl, rfl⟩
        have overruns := enters (after.inherit context.tree.size final.tree.size (bound - left)) final next parent
          regrown.wellFormed regrown.file regrown.kind place (regrown.old .self) (counted.inherit regrown.size _)
        rwa [applied_inherit] at overruns
      · simp only [same, if_false, bind_assoc]
        refine (holds_handOn _ _).settles.bind_concludes ?_
        rintro _ _ final ⟨rfl, rfl⟩
        refine (holds_setAside _).settles.bind_concludes ?_
        rintro _ _ _ ⟨rfl, rfl⟩
        have shape := final.tree.sameShape_setState id .unvisited
        have single : registry.transformsOf tag final.tree.file .enter = [transform] := regrown.file ▸ perennial.single
        obtain ⟨target, origin, ahead⟩ := regrown.ahead single linked
        have starts : ((after.inherit context.tree.size final.tree.size (bound - left)).carry id
            (bound - left)).startOf target = bound - left := by
          rcases origin with rfl | new
          · exact startOf_carry_self _
          · have other : target ≠ id := fun equal => new (equal ▸ Tree.has_of_parent linked)
            rw [startOf_carry_of_ne other]
            exact startOf_inherit_new counted new (shape.has_iff.1 (has_of_element ahead.kind)) _
        have counted : Counted (final.tree.setState id .unvisited)
            ((after.inherit context.tree.size final.tree.size (bound - left)).carry id (bound - left)) := by
          intro other absent
          have absent : ¬final.tree.Has other := fun present => absent (shape.has_iff.2 present)
          have different : other ≠ id := fun equal => absent (equal ▸ regrown.has)
          rw [startOf_carry_of_ne different]
          exact counted.inherit regrown.size _ other absent
        have overruns := concludes_enter_of_ahead { final with tree := final.tree.setState id .unvisited } enters visits
          (shape.wellFormed regrown.wellFormed) (shape.file.trans regrown.file) ahead counted starts
        have kept : ((after.inherit context.tree.size final.tree.size (bound - left)).carry id (bound - left)).applied =
            after.applied := applied_inherit _ _ _ _
        rwa [kept] at overruns

end Walk

/-- A walk over a tree with an element whose tag brings itself back stops at an element with the tag since it
does not settle, after one change more than the bound. The root is not such an element, and the other nodes of
the tree pass their checks and have no transforms. -/
theorem Context.walk_overruns (context : Context) (registry : Registry) (tag : String) (transform : Transform)
    (root : NodeId) (wellFormed : context.tree.WellFormed)
    (perennial : Walk.Perennial registry tag context.tree.file transform)
    (suits : ∀ id, context.tree.OnPath root id → Walk.Suits registry tag context.tree id)
    (other : context.tree.kind root ≠ .element tag)
    (bears : ∃ id, context.tree.OnPath root id ∧ context.tree.kind id = .element tag) :
    ∃ enough fault progress after,
      fault.cause = .unsettled ("<" ++ tag ++ ">") context.options.maxTransformPasses ∧
        progress.applied = context.options.maxTransformPasses + 1 ∧
          ∀ fuel, enough ≤ fuel →
            Walk.start registry fuel root {} context = ((.error (.fault fault), progress), after) ∧
              context.walk registry fuel root = (.error (.fault fault), after) := by
  have comes : Walk.Concludes (fun fuel => Walk.start registry fuel root) {} context
      (Walk.Overruns tag context.options.maxTransformPasses (context.options.maxTransformPasses + 1)) := by
    unfold Walk.start
    refine Walk.holds_context.settles.bind_concludes ?_
    rintro _ state context ⟨rfl, rfl, rfl⟩
    refine (Walk.holds_markAll _).settles.bind_concludes ?_
    rintro _ _ marked ⟨rfl, -, shape, states⟩
    have sound := shape.wellFormed wellFormed
    have named : marked.tree.file = context.tree.file := shape.file
    have single : registry.transformsOf tag marked.tree.file .enter = [transform] := named ▸ perennial.single
    have enters := perennial.enterOverruns (Nat.le_refl context.options.maxTransformPasses)
    rcases Walk.calm_or_ahead sound
        (fun tagged => absurd ((shape.kind root).symm.trans tagged) other) (fun id foremost =>
          ⟨(suits id (shape.onPath_iff.1 foremost.below)).sameShape shape, by
            rw [states, if_pos (wellFormed.mem_preorder (shape.onPath_iff.1 foremost.below))]⟩) with
      calm | ⟨target, -, ahead⟩
    · obtain ⟨id, below, tagged⟩ := bears
      exact absurd ((shape.kind id).trans tagged) (calm.untagged sound (shape.onPath below) single)
    · have overruns := Walk.visitOverruns (Nat.le_refl _) enters marked.tree {} marked target root sound named ahead
        ⟨.refl _, fun _ _ => rfl⟩ (fun _ _ => rfl) (Nat.sub_self _).symm
      rwa [Nat.zero_add] at overruns
  obtain ⟨enough, ⟨⟨(fault | _) | value, progress⟩, after⟩, same, overruns⟩ := comes
  · obtain ⟨cause, applied⟩ := overruns
    refine ⟨enough, fault, progress, after, cause, applied, fun fuel large => ⟨same fuel large, ?_⟩⟩
    have reached : Walk.start registry fuel root {} context = _ := same fuel large
    rw [Context.walk, reached]
    rfl
  · exact overruns.elim
  · exact overruns.elim

/-- A transform that puts a new element `<again>` with a `<div>` around it in the place of a node. -/
def Transform.renew : Transform :=
  { name := "renew"
    apply := fun id => do
      match (← Edit.tree).parent id with
      | none => return .unchanged
      | some parent =>
          let inner ← Edit.makeTree fun tree => tree.create {} (.element "again") [] []
          let outer ← Edit.makeTree fun tree => tree.create {} (.element "div") [] [inner]
          Edit.changeTree fun tree => tree.replace parent id outer
          return .replaced outer }

section renew

variable {tree : Tree} {id parent : NodeId}

theorem Registry.lookup?_ofTag_of_ne {tag other : String} (different : other ≠ tag) (declared : List Transform)
    (file : String) : (Registry.ofTag tag declared).lookup? other file = none := by
  rw [Registry.lookup?, Registry.applicable_ofTag]
  simp [Registry.ofTag, SortedMap.find?, SortedMap.insert, SortedMap.insertEntry, SortedMap.empty, different]

/-- Nothing is forbidden below the one tag, and standard elements need no entry. -/
theorem Walk.accepted_ofTag (declared : List Transform) (tree : Tree) (id : NodeId) {tag : String}
    (kind : ∀ other, (tree.kind id).tag? = some other → other = tag ∨ Walk.needsEntry (tree.kind id) = false) :
    Walk.Accepted (Registry.ofTag tag declared) tree id where
  known other tagged := by
    rcases kind other tagged with rfl | unneeded
    · exact .inl (by rw [Registry.lookup?_ofTag]; rfl)
    · exact .inr unneeded
  allowed other parent above entry _ _ _ found := by
    by_cases same : above = tag
    · subst same
      rw [Registry.lookup?_ofTag] at found
      obtain rfl := Option.some.inj found
      rfl
    · rw [Registry.lookup?_ofTag_of_ne same] at found
      cases found

theorem Registry.transformsOf_again (file : String) :
    (Registry.ofTag "again" [Transform.renew]).transformsOf "again" file .enter = [Transform.renew] := by
  rw [Registry.transformsOf, Registry.lookup?_ofTag, Registry.globals_ofTag]
  rfl

/-- With one tag known, nodes without a tag, elements with the tag and standard elements suit it. -/
theorem Walk.suits_ofTag {tag : String} (declared : List Transform)
    (kind : (tree.kind id).tag? = none ∨ tree.kind id = .element tag ∨
      ∃ other, tree.kind id = .element other ∧ other ≠ tag ∧ Name.isStandard other = true) :
    Walk.Suits (Registry.ofTag tag declared) tag tree id := by
  rcases kind with untagged | tagged | ⟨other, tagged, different, standard⟩
  · refine ⟨Walk.accepted_ofTag declared tree id fun other tagged => ?_,
      .inr (Walk.transformsFor_of_untagged untagged)⟩
    cases untagged.symm.trans tagged
  · refine ⟨Walk.accepted_ofTag declared tree id fun other named => .inl ?_, .inl tagged⟩
    rw [tagged] at named
    exact (Option.some.inj named).symm
  · have named : (tree.kind id).tag? = some other := congrArg Kind.tag? tagged
    refine ⟨Walk.accepted_ofTag declared tree id fun _ _ => .inr ?_, .inr fun phase => ?_⟩
    · rw [tagged, Walk.needsEntry, standard]
      rfl
    · rw [Walk.transformsFor_of_tag named, Registry.transformsOf,
        Registry.lookup?_ofTag_of_ne different, Registry.globals_ofTag]
      rfl

theorem Name.isStandard_div : Name.isStandard "div" = true := by
  decide +kernel

/-- The new elements stand in the place of the old one. -/
theorem Transform.regrows_renew (file : String) :
    Walk.Regrows (Registry.ofTag "again" [Transform.renew]) "again" file Transform.renew := by
  intro id parent before wellFormed named tagged linked accepted
  have again : (Kind.element "again").check = .ok () := by decide
  have div : (Kind.element "div").check = .ok () := by decide
  obtain ⟨first, madeInner, editedInner, extension, inner⟩ := before.tree.exists_create {} again
  obtain ⟨second, madeOuter, editedOuter, outer, inside, extends'⟩ := Tree.exists_create_around {} div rfl inner
  have kept := extends' before.tree extension Tree.not_has_size
  have made := editedOuter.wellFormed (editedInner.wellFormed wellFormed)
  have hasParent := wellFormed.has_parent linked
  have present := Tree.has_of_parent linked
  obtain ⟨front, rest, listed⟩ := List.append_of_mem ((wellFormed.linked parent id).2 linked)
  have listed : second.children parent = front ++ id :: rest := by
    rw [Tree.children, kept.node_of_has parent hasParent]
    exact listed
  have older : ∀ other, before.tree.Has other → other ≠ ⟨before.tree.size⟩ ∧ other ≠ ⟨first.size⟩ := by
    intro other old
    exact ⟨Tree.ne_size_of_has old, Tree.ne_size_of_has (extension.has old)⟩
  have apart : ¬second.OnPath ⟨first.size⟩ parent := fun above =>
    (older _ (kept.has_of_onPath wellFormed hasParent above)).2 rfl
  obtain ⟨last, replaced, edited, relinked, placed, detached, attached⟩ :=
    Tree.exists_replace made listed outer.present outer.parent apart
  refine ⟨⟨first.size⟩, { before with tree := last }, ?_, ?_⟩
  · have ran : (Edit.changeTree fun tree => tree.replace parent id ⟨first.size⟩).run { before with tree := second } =
        (.ok (), { before with tree := last }) := Edit.run_changeTree_eq_ok_iff.2 ⟨last, replaced, rfl⟩
    unfold Transform.Does Transform.renew
    dsimp only
    rw [Edit.run_bind_eq_ok_iff]
    refine ⟨_, _, rfl, ?_⟩
    rw [linked]
    dsimp only
    rw [Edit.run_bind_eq_ok_iff]
    refine ⟨_, _, Edit.run_makeTree_eq_ok_iff.2 ⟨first, madeInner, rfl⟩, ?_⟩
    rw [Edit.run_bind_eq_ok_iff]
    refine ⟨_, _, Edit.run_makeTree_eq_ok_iff.2 ⟨second, madeOuter, rfl⟩, ?_⟩
    rw [Edit.run_bind_eq_ok_iff]
    exact ⟨_, _, ran, rfl⟩
  · have sound := edited.wellFormed made
    have reaches : before.tree.Reaches last := .tail (.tail (.single editedInner) editedOuter) edited
    have grows := reaches.grows wellFormed
    have unmoved : (⟨before.tree.size⟩ : NodeId) ∉ [id, ⟨first.size⟩] := by
      simp only [List.mem_cons, List.not_mem_nil, or_false, not_or]
      exact ⟨fun same => (older id present).1 same.symm, Tree.ne_size_of_has inner.present⟩
    have kid := inside.relinked relinked (by simpa using fun same => (older parent hasParent).1 same.symm) unmoved
    have top := (relinked.kind ⟨first.size⟩).trans outer.kind
    have children : last.children ⟨first.size⟩ = [⟨before.tree.size⟩] := by
      rw [relinked.children _ (by simpa using fun same => (older parent hasParent).2 same.symm), outer.children]
    have below : ∀ other, last.OnPath ⟨first.size⟩ other → other = ⟨first.size⟩ ∨ other = ⟨before.tree.size⟩ := by
      intro other onPath
      induction onPath with
      | self => exact .inl rfl
      | step linked _ hypothesis =>
          rcases hypothesis with rfl | rfl
          · refine .inr (List.mem_singleton.1 ?_)
            rw [← children]
            exact (sound.linked _ _).2 linked
          · have listed := (sound.linked _ _).2 linked
            rw [kid.children] at listed
            exact absurd listed List.not_mem_nil
    have kindOld : last.kind id = .element "again" := by
      rw [relinked.kind, Tree.kind, kept.node_of_has id present]
      exact tagged
    refine ⟨sound, grows.file, grows.size_le, kindOld, attached.trans linked.symm, ?_, ?_, ?_⟩
    · intro other onPath _
      have absent : ¬before.tree.Has other := fun old => by
        rcases below other onPath with same | same
        · exact (older other old).2 same
        · exact (older other old).1 same
      refine ⟨absent, grows.unvisited other absent, ?_⟩
      rcases below other onPath with rfl | rfl
      · exact Walk.suits_ofTag _ (.inr (.inr ⟨"div", top, by decide, Name.isStandard_div⟩))
      · exact Walk.suits_ofTag _ (.inr (.inl kid.kind))
    · intro _
      exact (Walk.suits_ofTag _ (.inr (.inl kindOld))).accepted
    · exact ⟨⟨before.tree.size⟩, .step kid.parent .self, kid.kind⟩

end renew

/-- An element `<again>` in a `<div>`, which comes back in a new `<div>` each time. -/
theorem Context.walk_overruns_renew :
    let tree : Tree := { file := "page", nodes := [
      { kind := .document, children := [⟨1⟩] }, { kind := .element "div", children := [⟨2⟩], parent := some ⟨0⟩ },
      { kind := .element "again", parent := some ⟨1⟩ }] }
    let registry := Registry.ofTag "again" [Transform.renew]
    let context := Context.start tree default registry
    ∃ enough fault progress after,
      fault.cause = .unsettled "<again>" 10 ∧ progress.applied = 11 ∧
        ∀ fuel, enough ≤ fuel →
          Walk.start registry fuel ⟨0⟩ {} context = ((.error (.fault fault), progress), after) ∧
            context.walk registry fuel ⟨0⟩ = (.error (.fault fault), after) := by
  intro tree registry context
  refine Context.walk_overruns context registry "again" Transform.renew ⟨0⟩ ?_ ?_ ?_ ?_ ?_
  · exact Tree.Ordered.wellFormed (by decide)
  · exact ⟨Registry.transformsOf_again _, Transform.regrows_renew _⟩
  · intro id _
    refine Walk.suits_ofTag _ ?_
    match id with
    | ⟨0⟩ => exact .inl rfl
    | ⟨1⟩ => exact .inr (.inr ⟨"div", rfl, by decide, Name.isStandard_div⟩)
    | ⟨2⟩ => exact .inr (.inl rfl)
    | ⟨_ + 3⟩ => exact .inl rfl
  · decide
  · have inner : context.tree.parent ⟨2⟩ = some ⟨1⟩ := rfl
    have outer : context.tree.parent ⟨1⟩ = some ⟨0⟩ := rfl
    exact ⟨⟨2⟩, .step inner (.step outer .self), rfl⟩

end HtmlTemplate
