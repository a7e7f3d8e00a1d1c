import HtmlTemplate.Proofs.Walk.Applied
import HtmlTemplate.Proofs.Walk.Termination
import HtmlTemplate.Proofs.Walk.Watch

/-!
# Walks that settle everything

If all changes that transforms make are confined, a walk that succeeds leaves no node behind: every node
below the root has settled. No transform that runs after the children of its node then ever sees a child
that has not settled, so a watch on all transforms goes unnoticed.
-/

namespace HtmlTemplate
namespace Walk

/-- The transforms that taglibs of the registry declare are honest, and their changes are confined. -/
structure Orderly (registry : Registry) : Prop where
  honest : ∀ transform, registry.Declares transform → transform.Honest
  confined : ∀ transform, registry.Declares transform → transform.Confined

/-- What a visit of the next node does: everything under the host but the first children may change. -/
structure Visited (root : NodeId) (host : Option NodeId) (front : List NodeId) (before after : Tree) : Prop where
  walked : Walked root host after
  held : Held root host front before after
  front : ∀ parent, host = some parent → front <+: after.children parent
  root : host = none → (after.node root).state = .settled

/-- The walk comes to the node from the host, or comes back to it after a change. -/
def Comes (root : NodeId) (host : Option NodeId) (front : List NodeId) (id : NodeId) (tree : Tree) : Prop :=
  (Walked root host tree ∨ Walked root (some id) tree) ∧ Next host front id tree ∧ tree.OnPath root id ∧
    tree.Has id

/-- The walk is at a node that took the place of the next one, or is that node. -/
structure Stands (root : NodeId) (host : Option NodeId) (front : List NodeId) (before : Tree) (id : NodeId)
    (after : Tree) : Prop where
  walked : Walked root (some id) after
  next : Next host front id after
  present : after.Has id
  held : Held root host front before after

/-- How a round of orderly transforms for the node that the walk is at leaves the tree. -/
inductive Passed (root : NodeId) (host : Option NodeId) (front : List NodeId) (id : NodeId) (before : Tree) :
    Outcome → Tree → Prop
  | unchanged {after : Tree} : after = before → Passed root host front id before .unchanged after
  | changed {after : Tree} : Stands root host front before id after →
      Passed root host front id before .changed after
  | replaced {next : NodeId} {after : Tree} : Comes root host front next (after.setState id .unvisited) →
      Held root host front before (after.setState id .unvisited) →
      Passed root host front id before (.replaced next) after
  | removed {after : Tree} : Visited root host front before after →
      Passed root host front id before .removed after

variable {registry : Registry} {alarm : NodeId → Edit Outcome} {bound : Nat}
variable {root id : NodeId} {host : Option NodeId} {front : List NodeId}
variable {state : Progress} {context : Context} {before middle after : Tree}

/-! ## Where the walk is -/

theorem Comes.wellFormed (comes : Comes root host front id before) : before.WellFormed := by
  rcases comes.1 with walked | walked
  · exact walked.wellFormed
  · exact walked.wellFormed

theorem Visited.after_held (wellFormed : before.WellFormed) (held : Held root host front before middle)
    (visited : Visited root host front middle after) : Visited root host front before after :=
  ⟨visited.walked, held.trans wellFormed visited.held, visited.front, visited.root⟩

theorem Stands.after_held (wellFormed : before.WellFormed) (held : Held root host front before middle)
    (stands : Stands root host front middle id after) : Stands root host front before id after :=
  ⟨stands.walked, stands.next, stands.present, held.trans wellFormed stands.held⟩

theorem Stands.comes (stands : Stands root host front before id after) : Comes root host front id after :=
  ⟨.inr stands.walked, stands.next, stands.walked.reached id rfl, stands.present⟩

/-- A node that the walk comes to or stands at takes an open mark. -/
theorem Comes.mark (comes : Comes root host front id before) {mark : WalkState} (isOpen : IsOpen mark) :
    Stands root host front before id (before.setState id mark) := by
  obtain ⟨walked, next, reaches, present⟩ := comes
  have shape := before.sameShape_setState id mark
  refine ⟨?_, next.of_sameShape shape, shape.has_iff.2 present,
    (Held.refl before).mark (next.under reaches) next.behind mark⟩
  rcases walked with walked | walked
  · exact walked.enter next isOpen reaches present
  · exact walked.remark isOpen present

theorem Stands.of_sameShape (stands : Stands root host front before id middle) (wellFormed : before.WellFormed)
    (shape : middle.SameShape after) (states : ∀ id, (after.node id).state = (middle.node id).state) :
    Stands root host front before id after :=
  ⟨stands.walked.of_sameShape shape states, stands.next.of_sameShape shape, shape.has_iff.2 stands.present,
    stands.held.trans wellFormed (held_of_sameShape shape states)⟩

/-- The walk still stands at a node after visits of its children. -/
theorem Stands.below (stands : Stands root host front before id middle) (wellFormed : before.WellFormed)
    (walked : Walked root (some id) after) (held : Held root (some id) [] middle after) :
    Stands root host front before id after := by
  have sound := stands.walked.wellFormed
  refine ⟨walked, stands.next.kept sound stands.present held, held.has stands.present, ?_⟩
  exact stands.held.trans wellFormed (held.narrow sound stands.next (stands.walked.reached id rfl))

/-- Children that have settled are not the node that takes a mark. -/
theorem Stands.settled_setState (stands : Stands root host front before id middle) (mark : WalkState)
    (settled : ∀ child ∈ middle.children id, (middle.node child).state = .settled) :
    ∀ child ∈ (middle.setState id mark).children id,
      ((middle.setState id mark).node child).state = .settled := by
  intro child member
  rw [(middle.sameShape_setState id mark).children] at member
  have different : child ≠ id := by
    rintro rfl
    exact (stands.walked.opened child rfl child .self).2 (settled child member)
  rw [Tree.state_setState_of_ne different]
  exact settled child member

/-- The visit is over when the node settles. -/
theorem Stands.settle (stands : Stands root host front before id middle) (wellFormed : before.WellFormed)
    (settled : ∀ child ∈ middle.children id, (middle.node child).state = .settled) :
    Visited root host front before (middle.setState id .settled) := by
  have reaches := stands.walked.reached id rfl
  have next := stands.next.of_sameShape (middle.sameShape_setState id .settled)
  refine ⟨stands.walked.leave stands.next stands.present settled, ?_, next.first, ?_⟩
  · exact stands.held.trans wellFormed
      ((Held.refl middle).mark (stands.next.under reaches) stands.next.behind .settled)
  · rintro rfl
    obtain rfl := Tree.onPath_of_root stands.next.parent reaches
    exact Tree.state_setState_self stands.present

/-! ## Rounds -/

theorem Orderly.transforms (orderly : Orderly registry) {tree : Tree} {phase : Phase} {transform : Transform}
    (member : transform ∈ transformsFor registry tree id phase) :
    tree.Has id ∧ transform.Honest ∧ transform.Confined := by
  obtain ⟨present, honest⟩ := honest_of_mem_transformsFor orderly.honest member
  refine ⟨present, honest, ?_⟩
  obtain ⟨-, -, declared | ⟨renderer, rfl⟩⟩ := mem_transformsFor member
  · exact orderly.confined _ declared
  · exact Transform.confined_bindRenderer renderer

/-- A node that takes the place of another one is the next one to visit. -/
theorem Applied.replaced {next parent : NodeId}
    (applied : Applied root host front id before (.replaced next) after)
    (linked : after.parent next = some parent) :
    Passed root host front id before (.replaced next) after := by
  have shape := after.sameShape_setState id .unvisited
  obtain ⟨sameParent, behind⟩ := applied.confined.replaced next rfl
  rw [linked, applied.next.parent] at sameParent
  subst sameParent
  have walked : Walked root (some parent) (after.setState id .unvisited) := applied.goes fun _ => rfl
  have nextLinked := (shape.parent next).trans linked
  have place : Next (some parent) front next (after.setState id .unvisited) := by
    refine ⟨nextLinked, fun member => behind (applied.next.isPrefix_preceding.subset member), ?_⟩
    intro other hosted
    obtain rfl := Option.some.inj hosted
    rw [shape.children]
    exact applied.front_prefix
  refine .replaced ⟨.inl walked, place, ?_, Tree.has_of_parent nextLinked⟩ (applied.held_setState _)
  exact .step nextLinked (walked.reached _ rfl)

/-- When a node is removed, the visit is over. -/
theorem Applied.removed (applied : Applied root host front id before .removed after)
    (detached : after.parent id = none) : Visited root host front before (after.setState id .settled) := by
  have shape := after.sameShape_setState id .settled
  have held := applied.held_setState .settled
  cases host with
  | none => exact absurd applied.next.parent (applied.confined.removed rfl)
  | some parent =>
      refine ⟨applied.goes fun reaches => ?_, held, ?_, fun impossible => by cases impossible⟩
      · obtain rfl := Tree.onPath_of_root detached reaches
        cases applied.walked.top.symm.trans applied.next.parent
      · intro other hosted
        obtain rfl := Option.some.inj hosted
        rw [shape.children]
        exact applied.front_prefix

theorem Orderly.passed (orderly : Orderly registry) (walked : Walked root (some id) before)
    (next : Next host front id before) {phase : Phase} {outcome : Outcome}
    (round : Round (transformsFor registry before id phase) id before outcome after) :
    Passed root host front id before outcome after := by
  rcases round with ⟨rfl, rfl⟩ | ⟨transform, member, first, reported, last, rfl, does, reports, confirmed⟩
  · exact .unchanged rfl
  · obtain ⟨present, honest, confined⟩ := orderly.transforms member
    have wellFormed := walked.wellFormed
    have reaches := honest.edits wellFormed present does
    have applied : Applied root host front id first.tree reported last.tree :=
      ⟨walked, next, present, reaches.wellFormed wellFormed, reaches.grows wellFormed,
        confined wellFormed present does reports⟩
    have stays : last.tree.parent id = first.tree.parent id →
        Passed root host front id first.tree .changed last.tree := by
      intro linked
      obtain ⟨walked, next⟩ := applied.stays linked
      exact .changed ⟨walked, next, applied.isOpen.1, applied.held⟩
    cases confirmed with
    | changed => exact stays (applied.confined.changed rfl)
    | itself => exact stays (applied.confined.replaced id rfl).1
    | replaced different linked => exact applied.replaced linked
    | removed detached => exact .removed (applied.removed detached)

/-! ## Entering -/

/-- Where the walk is after a node was entered. -/
def Arrived (root : NodeId) (host : Option NodeId) (front : List NodeId) (before : Tree) :
    Option (NodeId × Nat) → Tree → Prop
  | some (id, _), after => Stands root host front before id after
  | none, after => Visited root host front before after

theorem Arrived.after_held (wellFormed : before.WellFormed) (held : Held root host front before middle)
    {result : Option (NodeId × Nat)} (arrived : Arrived root host front middle result after) :
    Arrived root host front before result after := by
  rcases result with _ | ⟨id, left⟩
  · exact Visited.after_held wellFormed held arrived
  · exact Stands.after_held wellFormed held arrived

theorem Orderly.holds_enterOnce (orderly : Orderly registry) (comes : Comes root host front id context.tree) :
    Holds IsFault (enterOnce registry id) state context fun result _ left =>
      ∃ entered, Stands root host front context.tree id entered ∧
        Passed root host front id entered result.1 left.tree := by
  have wellFormed := comes.wellFormed
  have entering : IsOpen .entering := ⟨by decide, by decide⟩
  refine (Walk.holds_enterOnce fun entered shape =>
    quiet_of_honest orderly.honest (shape.wellFormed wellFormed) id .enter).weaken ?_
  rintro result after left ⟨-, -, entered, shape, states, round⟩
  have marks : (context.tree.setState id .entering).SameShape entered :=
    (context.tree.sameShape_setState id .entering).symm.trans shape
  have stands := (comes.mark entering).of_sameShape wellFormed marks states
  exact ⟨entered, stands, orderly.passed stands.walked stands.next round⟩

theorem Orderly.holds_enter (orderly : Orderly registry) (left : Nat)
    (comes : Comes root host front id context.tree) :
    Holds IsFault (enter registry bound left id) state context fun result _ final =>
      Arrived root host front context.tree result final.tree := by
  have wellFormed := comes.wellFormed
  induction left generalizing state context id with
  | zero =>
      refine .enter_zero ((orderly.holds_enterOnce comes).weaken ?_)
      rintro ⟨outcome, size⟩ state final ⟨entered, stands, passed⟩
      cases passed with
      | unchanged same =>
          subst same
          exact stands
      | changed _ => exact ⟨_, rfl⟩
      | replaced _ _ => exact ⟨_, rfl⟩
      | removed visited => exact Visited.after_held wellFormed stands.held visited
  | succ left hypothesis =>
      refine .enter_succ ((orderly.holds_enterOnce comes).weaken ?_)
      rintro ⟨outcome, size⟩ state final ⟨entered, stands, passed⟩
      cases passed with
      | unchanged same =>
          subst same
          exact stands
      | removed visited => exact Visited.after_held wellFormed stands.held visited
      | changed stays =>
          refine (hypothesis stays.comes stays.comes.wellFormed).weaken ?_
          intro result _ last arrived
          exact arrived.after_held wellFormed (stands.held.trans wellFormed stays.held)
      | replaced comes stays =>
          refine (hypothesis comes comes.wellFormed).weaken ?_
          intro result _ last arrived
          exact arrived.after_held wellFormed (stands.held.trans wellFormed stays)

/-! ## Visits -/

/-- With this fuel, a visit of the next node is the same under a watch, and does what a visit does. -/
def VisitsAgree (registry : Registry) (alarm : NodeId → Edit Outcome) (bound fuel : Nat) : Prop :=
  ∀ {root : NodeId} {host : Option NodeId} {front : List NodeId} {id : NodeId} {passes : Nat}
    {state : Progress} {context : Context}, Comes root host front id context.tree →
    Agree (visit (registry.watch alarm) bound fuel id passes) (visit registry bound fuel id passes) state context
      fun _ _ final => Visited root host front context.tree final.tree

/-- The same for the children of a node, of which the first ones have settled. -/
def ChildrenAgree (registry : Registry) (alarm : NodeId → Edit Outcome) (bound fuel : Nat) : Prop :=
  ∀ {root parent : NodeId} {index : Nat} {state : Progress} {context : Context},
    Walked root (some parent) context.tree →
    (∀ child ∈ (context.tree.children parent).take index, (context.tree.node child).state = .settled) →
    Agree (visitChildren (registry.watch alarm) bound fuel parent index)
      (visitChildren registry bound fuel parent index) state context fun _ _ final =>
        Walked root (some parent) final.tree ∧ Held root (some parent) [] context.tree final.tree ∧
          ∀ child ∈ final.tree.children parent, (final.tree.node child).state = .settled

/-- The same for leaving a node all of whose children have settled. -/
def LeavesAgree (registry : Registry) (alarm : NodeId → Edit Outcome) (bound fuel : Nat) : Prop :=
  ∀ {root : NodeId} {host : Option NodeId} {front : List NodeId} {before : Tree} {id : NodeId} {left : Nat}
    {state : Progress} {context : Context}, before.WellFormed →
    Stands root host front before id context.tree →
    (∀ child ∈ context.tree.children id, (context.tree.node child).state = .settled) →
    Agree (leave (registry.watch alarm) bound fuel id left) (leave registry bound fuel id left) state context
      fun _ _ final => Visited root host front before final.tree

variable {fuel : Nat}

theorem Orderly.visit_agree (orderly : Orderly registry) (children : ChildrenAgree registry alarm bound fuel)
    (leaves : LeavesAgree registry alarm bound fuel) : VisitsAgree registry alarm bound (fuel + 1) := by
  intro root host front id passes state context comes
  have wellFormed := comes.wellFormed
  simp only [visit]
  refine holds_progress.agree.bind ?_
  rintro _ state context ⟨rfl, rfl, rfl⟩
  refine holds_modifyProgress.agree.bind ?_
  rintro _ counted context ⟨-, rfl⟩
  rw [enter_watch]
  refine (orderly.holds_enter _ comes).agree.bind ?_
  rintro (_ | ⟨next, rest⟩) state entered arrived
  · exact (holds_pure arrived).agree
  · have stands : Stands root host front context.tree next entered.tree := arrived
    -- The node takes the mark for its children, they are visited, and it takes the one for leaving.
    refine holds_setState.agree.bind ?_
    rintro _ state marked ⟨-, made⟩
    have entered : Stands root host front context.tree next marked.tree := by
      rw [made]
      exact (stands.comes.mark ⟨by decide, by decide⟩).after_held wellFormed stands.held
    refine (children entered.walked fun child member => ?_).bind ?_
    · rw [List.take_zero] at member
      cases member
    rintro _ state below ⟨walked, held, settled⟩
    have returned := entered.below wellFormed walked held
    refine holds_setState.agree.bind ?_
    rintro _ state exiting ⟨-, made⟩
    have exits : Stands root host front below.tree next exiting.tree := by
      rw [made]
      exact returned.comes.mark ⟨by decide, by decide⟩
    refine leaves wellFormed (exits.after_held wellFormed returned.held) ?_
    rw [made]
    exact returned.settled_setState .exiting settled

/-- The first children settle one after the other, and stay the first ones during the visits of the others. -/
theorem children_agree (visits : VisitsAgree registry alarm bound fuel)
    (children : ChildrenAgree registry alarm bound fuel) : ChildrenAgree registry alarm bound (fuel + 1) := by
  intro root parent index state context walked settled
  have wellFormed := walked.wellFormed
  simp only [visitChildren]
  refine holds_tree.agree.bind ?_
  rintro _ state context ⟨rfl, rfl, rfl⟩
  cases found : (context.tree.children parent)[index]? with
  | none =>
      refine (holds_pure ⟨walked, .refl _, fun child member => settled child ?_⟩).agree
      rwa [List.take_of_length_le (List.getElem?_eq_none_iff.1 found)]
  | some child =>
      have member := List.mem_of_getElem? found
      have linked := (wellFormed.linked parent child).1 member
      obtain ⟨inside, stands⟩ := List.getElem?_eq_some_iff.1 found
      have reaches : context.tree.OnPath root child := .step linked (walked.reached parent rfl)
      by_cases unvisited : (context.tree.node child).state = .unvisited
      · simp only [unvisited, beq_self_eq_true, if_true]
        have behind : child ∉ (context.tree.children parent).take index := by
          rw [← stands]
          rw [List.mem_take_iff_getElem]
          rintro ⟨place, before, same⟩
          have equal := (wellFormed.nodup parent).getElem_inj_iff.1 same
          omega
        have comes : Comes root (some parent) ((context.tree.children parent).take index) child context.tree := by
          refine ⟨.inl walked, ⟨linked, behind, ?_⟩, reaches, Tree.has_of_parent linked⟩
          intro other hosted
          obtain rfl := Option.some.inj hosted
          exact List.take_prefix _ _
        refine (visits comes).bind ?_
        rintro _ state middle ⟨walked, held, front, -⟩
        -- The children looked at so far are still the first ones, and settled.
        have first : (middle.tree.children parent).take index = (context.tree.children parent).take index := by
          have same := List.prefix_iff_eq_take.1 (front parent rfl)
          rw [List.length_take_of_le (Nat.le_of_lt inside)] at same
          exact same.symm
        have apart : Held root (some parent) [] context.tree middle.tree :=
          ⟨held.size_le, held.parent, held.state, held.children, fun _ _ _ member => by cases member⟩
        have done : ∀ other ∈ (middle.tree.children parent).take index,
            (middle.tree.node other).state = .settled := by
          intro other member
          rw [first] at member
          rw [held.front parent rfl other member]
          exact settled other member
        refine (children walked done).weaken ?_
        rintro _ _ final ⟨walked, stays, done⟩
        exact ⟨walked, apart.trans wellFormed stays, done⟩
      · have done : (context.tree.node child).state = .settled := by
          refine (walked.others child reaches fun other hosted above => ?_).resolve_left unvisited
          obtain rfl := Option.some.inj hosted
          obtain ⟨depth, grounded⟩ := wellFormed.grounded child
          exact Tree.not_onPath_parent grounded linked above
        have other : ((context.tree.node child).state == .unvisited) = false := by
          rw [done]
          rfl
        simp only [other, Bool.false_eq_true, if_false]
        refine children walked fun sibling member => ?_
        rw [List.take_succ_eq_append_getElem inside, stands, List.mem_append, List.mem_singleton] at member
        rcases member with front | rfl
        · exact settled sibling front
        · exact done

theorem Orderly.leave_agree (orderly : Orderly registry) (visits : VisitsAgree registry alarm bound fuel)
    (children : ChildrenAgree registry alarm bound fuel)
    (leaves : LeavesAgree registry alarm bound fuel) : LeavesAgree registry alarm bound (fuel + 1) := by
  intro root host front before id left state context wellFormed stands settled
  have quiet := quiet_of_honest orderly.honest stands.walked.wellFormed id .leave
  have round : Agree (runPhase (registry.watch alarm) id .leave) (runPhase registry id .leave) state context
      fun result _ final => Passed root host front id context.tree result.1 final.tree := by
    refine .of_eq (runPhase_watch (Tree.childrenSettled_eq_true_iff.2 settled) quiet) ?_
    refine (holds_runPhase quiet).weaken ?_
    rintro result after final ⟨-, -, round⟩
    exact orderly.passed stands.walked stands.next round
  simp only [leave]
  refine round.bind ?_
  rintro ⟨outcome, size⟩ state final passed
  cases passed with
  | unchanged same =>
      refine holds_setState.agree.weaken ?_
      rintro _ _ last ⟨-, made⟩
      rw [made, same]
      exact stands.settle wellFormed settled
  | removed visited =>
      exact (holds_pure (Visited.after_held wellFormed stands.held visited)).agree
  | changed stays =>
      cases left with
      | zero => exact (holds_unsettled fun fault => ⟨fault, rfl⟩).agree
      | succ left =>
          refine (holds_handOn _ _).agree.bind ?_
          rintro _ _ final ⟨rfl, rfl⟩
          have returned := stays.after_held wellFormed stands.held
          refine (children returned.walked fun child member => ?_).bind ?_
          · rw [List.take_zero] at member
            cases member
          rintro _ _ below ⟨walked, held, done⟩
          exact leaves wellFormed (returned.below wellFormed walked held) done
  | replaced comes stays =>
      cases left with
      | zero => exact (holds_unsettled fun fault => ⟨fault, rfl⟩).agree
      | succ left =>
          refine (holds_handOn _ _).agree.bind ?_
          rintro _ _ final ⟨rfl, rfl⟩
          refine (holds_setAside _).agree.bind ?_
          rintro _ _ aside ⟨-, made⟩
          have tree : aside.tree = final.tree.setState id .unvisited := by rw [made]
          rw [← tree] at comes stays
          refine (visits comes).weaken ?_
          intro _ _ last visited
          exact visited.after_held wellFormed (stands.held.trans wellFormed stays)

theorem Orderly.agree (orderly : Orderly registry) (fuel : Nat) :
    VisitsAgree registry alarm bound fuel ∧ ChildrenAgree registry alarm bound fuel ∧
      LeavesAgree registry alarm bound fuel := by
  induction fuel with
  | zero =>
      refine ⟨fun _ => ?_, fun _ _ => ?_, fun _ _ _ => ?_⟩
      · exact ⟨rfl, trivial⟩
      · exact ⟨rfl, trivial⟩
      · exact ⟨rfl, trivial⟩
  | succ fuel hypothesis =>
      obtain ⟨visits, children, leaves⟩ := hypothesis
      exact ⟨orderly.visit_agree children leaves, children_agree visits children,
        orderly.leave_agree visits children leaves⟩

/-! ## Whole walks -/

/-- At the start all nodes below the root are unvisited. -/
theorem comes_of_unvisited (wellFormed : before.WellFormed) (top : before.parent root = none)
    (present : before.Has root) (shape : before.SameShape after)
    (states : ∀ id ∈ before.preorder root, (after.node id).state = .unvisited) :
    Comes root none [] root after := by
  have unvisited : ∀ id, after.OnPath root id → (after.node id).state = .unvisited := by
    intro id onPath
    exact states id (wellFormed.mem_preorder (shape.onPath_iff.1 onPath))
  have rootTop := (shape.parent root).trans top
  have next : Next none [] root after :=
    ⟨rootTop, List.not_mem_nil, fun parent impossible => by cases impossible⟩
  refine ⟨.inl ⟨shape.wellFormed wellFormed, rootTop, ?_, ?_, ?_, ?_⟩, next, .self, shape.has_iff.2 present⟩
  · intro parent impossible
    cases impossible
  · intro parent impossible
    cases impossible
  · exact fun id onPath _ => .inl (unvisited id onPath)
  · intro id onPath settled
    rw [unvisited id onPath] at settled
    cases settled

theorem Orderly.start_agree (orderly : Orderly registry) (wellFormed : context.tree.WellFormed)
    (top : context.tree.parent root = none) (present : context.tree.Has root) (fuel : Nat) :
    Agree (start (registry.watch alarm) fuel root) (start registry fuel root) state context
      fun _ _ final => ∃ begun, Visited root none [] begun final.tree := by
  unfold start
  refine holds_context.agree.bind ?_
  rintro _ state context ⟨rfl, rfl, rfl⟩
  refine (holds_markAll _).agree.bind ?_
  rintro _ after marked ⟨rfl, -, shape, states⟩
  have comes : Comes root none [] root marked.tree := by
    refine comes_of_unvisited wellFormed top present shape fun id member => ?_
    rw [states, if_pos member]
  refine ((orderly.agree fuel).1 comes).weaken ?_
  intro _ _ final visited
  exact ⟨marked.tree, visited⟩

/-- When the root has settled, so has all that is below it. -/
theorem Visited.settled (visited : Visited root none front before after) (onPath : after.OnPath root id) :
    (after.node id).state = .settled := by
  have walked := visited.walked
  induction onPath with
  | self => exact visited.root rfl
  | @step id parent linked upper settled =>
      exact walked.closed parent upper settled id ((walked.wellFormed.linked parent id).2 linked)

end Walk

/-- A walk that succeeds settles everything below its root, and it goes the same way whatever an alarm
does that is raised when a transform should run after the children of its node and not all of them have
settled: there is no such moment. -/
theorem Context.walk_settles (context : Context) (registry : Registry) (alarm : NodeId → Edit Outcome)
    (fuel : Nat) (root : NodeId) (wellFormed : context.tree.WellFormed)
    (present : context.tree.Has root) (top : context.tree.parent root = none)
    (honest : ∀ transform, registry.Declares transform → transform.Honest)
    (confined : ∀ transform, registry.Declares transform → transform.Confined) :
    context.walk (registry.watch alarm) fuel root = context.walk registry fuel root ∧
      ∀ progress final, context.walk registry fuel root = (.ok progress, final) →
        ∀ id, final.tree.OnPath root id → (final.tree.node id).state = .settled := by
  have orderly : Walk.Orderly registry := ⟨honest, confined⟩
  obtain ⟨same, holds⟩ : Walk.Agree (Walk.start (registry.watch alarm) fuel root)
      (Walk.start registry fuel root) {} context _ := orderly.start_agree wellFormed top present fuel
  constructor
  · rw [Context.walk, Context.walk, same]
  · intro progress final walked id onPath
    unfold Context.walk at walked
    unfold Walk.Holds at holds
    generalize Walk.start registry fuel root {} context = result at walked holds
    rcases result with ⟨⟨halt | value, after⟩, last⟩
    · cases walked
    · cases walked
      obtain ⟨begun, visited⟩ := holds
      exact visited.settled onPath

/-- A transform that runs after the children of its node and marks it, once. -/
def Transform.seal : Transform :=
  { name := "seal"
    phase := .leave
    apply := fun id => do
      if ((← Edit.tree).attribute? id "sealed").isSome then return .unchanged
      else
        Edit.changeTree fun tree => tree.setAttribute id "sealed" "yes"
        return .changed }

theorem Transform.seal_does {id : NodeId} {before after : Context} {outcome : Outcome}
    (does : Transform.seal.Does id before outcome after) :
    outcome = .unchanged ∧ after = before ∨
      outcome = .changed ∧ ∃ tree, before.tree.setAttribute id "sealed" "yes" = .ok tree ∧
        after = { before with tree } := by
  unfold Transform.Does Transform.seal at does
  rw [Edit.run_bind_eq_ok_iff] at does
  obtain ⟨_, _, ⟨⟩, done⟩ := does
  split at done
  · obtain ⟨rfl, rfl⟩ := Edit.run_pure_eq_ok_iff.1 done
    exact .inl ⟨rfl, rfl⟩
  · obtain ⟨⟨⟩, between, changed, done⟩ := Edit.run_bind_eq_ok_iff.1 done
    obtain ⟨tree, made, rfl⟩ := Edit.run_changeTree_eq_ok_iff.1 changed
    obtain ⟨rfl, rfl⟩ := Edit.run_pure_eq_ok_iff.1 done
    exact .inr ⟨rfl, tree, made, rfl⟩

theorem Transform.honest_seal : Transform.seal.Honest where
  edits _ _ does := by
    rcases Transform.seal_does does with ⟨-, rfl⟩ | ⟨-, tree, made, rfl⟩
    · exact .refl
    · exact .single (.setAttribute made)
  reports _ _ does := by
    rcases Transform.seal_does does with ⟨-, rfl⟩ | ⟨reported, -⟩
    · rfl
    · cases reported

theorem Transform.confined_seal : Transform.seal.Confined := by
  intro id before after outcome _ _ does reports
  rcases Transform.seal_does does with ⟨unchanged, -⟩ | ⟨rfl, tree, made, rfl⟩
  · exact absurd unchanged reports
  · obtain ⟨value, -, rfl⟩ := Tree.setAttribute_eq_ok_iff.1 made
    refine Tree.confined_of_links_eq (fun other => ?_) fun other => ?_
    · exact Tree.field_update before.tree id other Node.children fun _ => rfl
    · exact Tree.field_update before.tree id other Node.parent fun _ => rfl

/-- Nodes that are marked after their children have settled. -/
theorem Context.walk_settles_seal :
    let alarm : NodeId → Edit Outcome := fun _ => return .removed
    let tree : Tree := { file := "page", nodes := [
      { kind := .document, children := [⟨1⟩] }, { kind := .element "seal", parent := some ⟨0⟩ }] }
    let registry := Registry.ofTag "seal" [Transform.seal]
    let context := Context.start tree default registry
    context.walk (registry.watch alarm) 9 ⟨0⟩ = context.walk registry 9 ⟨0⟩ ∧
      ∃ progress final, context.walk registry 9 ⟨0⟩ = (.ok progress, final) ∧
        ∀ id, final.tree.OnPath ⟨0⟩ id → (final.tree.node id).state = .settled := by
  intro alarm tree registry context
  have apart : Tree.WellFormed { file := "page", nodes := [{ kind := .document }, { kind := .element "seal" }] } :=
    Tree.wellFormed_of_unlinked (by simp)
  have wellFormed : context.tree.WellFormed := by
    refine Tree.Edited.wellFormed ?_ apart
    exact @Tree.Edited.append _ ⟨0⟩ ⟨1⟩ _ (by decide) (by decide) rfl
  have only : ∀ transform, registry.Declares transform → transform = Transform.seal := fun _ declared =>
    List.mem_singleton.1 (Registry.declares_ofTag.1 declared)
  obtain ⟨same, settled⟩ := Context.walk_settles context registry alarm 9 ⟨0⟩ wellFormed (by decide) rfl
    (fun transform declared => only transform declared ▸ Transform.honest_seal)
    (fun transform declared => only transform declared ▸ Transform.confined_seal)
  refine ⟨same, ?_⟩
  have ends : (context.walk registry 9 ⟨0⟩).1.isOk = true := by decide +kernel
  generalize context.walk registry 9 ⟨0⟩ = result at ends settled
  rcases result with ⟨_ | progress, final⟩
  · cases ends
  · exact ⟨progress, final, rfl, settled progress final rfl⟩

/-- A transform that puts a fresh node before the first of two siblings, and reports that it did. -/
def Transform.squeeze : Transform :=
  { name := "squeeze"
    apply := fun id => do
      let tree ← Edit.tree
      match tree.parent id with
      | none => return .unchanged
      | some parent =>
          match tree.children parent with
          | [first, _] => do
              let made ← Edit.makeTree fun tree => tree.create {} .conditional [] []
              Edit.changeTree fun tree => tree.insertBefore parent made first
              return .changed
          | _ => return .unchanged }

theorem Transform.squeeze_does {id : NodeId} {before after : Context} {outcome : Outcome}
    (does : Transform.squeeze.Does id before outcome after) :
    outcome = .unchanged ∧ after = before ∨
      outcome = .changed ∧ ∃ parent first made tree, before.tree.parent id = some parent ∧
        before.tree.create {} .conditional [] [] = .ok made ∧
          made.2.insertBefore parent made.1 first = .ok tree ∧ after = { before with tree } := by
  unfold Transform.Does Transform.squeeze at does
  rw [Edit.run_bind_eq_ok_iff] at does
  obtain ⟨_, _, ⟨⟩, done⟩ := does
  split at done
  · obtain ⟨rfl, rfl⟩ := Edit.run_pure_eq_ok_iff.1 done
    exact .inl ⟨rfl, rfl⟩
  · next parent linked =>
      split at done
      · next first second _ =>
          obtain ⟨made, between, creates, done⟩ := Edit.run_bind_eq_ok_iff.1 done
          obtain ⟨created, created_eq, rfl⟩ := Edit.run_makeTree_eq_ok_iff.1 creates
          obtain ⟨⟨⟩, last, inserts, done⟩ := Edit.run_bind_eq_ok_iff.1 done
          obtain ⟨tree, inserted, rfl⟩ := Edit.run_changeTree_eq_ok_iff.1 inserts
          obtain ⟨rfl, rfl⟩ := Edit.run_pure_eq_ok_iff.1 done
          exact .inr ⟨rfl, parent, first, (made, created), tree, linked, created_eq, inserted, rfl⟩
      · obtain ⟨rfl, rfl⟩ := Edit.run_pure_eq_ok_iff.1 done
        exact .inl ⟨rfl, rfl⟩

theorem Transform.honest_squeeze : Transform.squeeze.Honest where
  edits _ _ does := by
    rcases Transform.squeeze_does does with ⟨-, rfl⟩ | ⟨-, parent, first, made, tree, -, created, inserted, rfl⟩
    · exact .refl
    · refine .tail (.single (.create (by simp) created)) (.insertBefore ?_ inserted)
      exact Tree.has_of_create created
  reports _ _ does := by
    rcases Transform.squeeze_does does with ⟨-, rfl⟩ | ⟨reported, -⟩
    · rfl
    · cases reported

theorem Transform.local_squeeze : Transform.squeeze.Local := by
  intro id before after outcome wellFormed present does reports
  rcases Transform.squeeze_does does with
    ⟨unchanged, -⟩ | ⟨rfl, parent, first, made, tree, linked, created, inserted, rfl⟩
  · exact absurd unchanged reports
  · have extension := Tree.extends_create created
    have hasMade := Tree.has_of_create created
    have sound : made.2.WellFormed := (Tree.Edited.create (by simp) created).wellFormed wellFormed
    have adopts := Tree.adopts_insertBefore sound hasMade inserted
    have old : ∀ other, before.tree.Has other → other ∉ [made.1] := by
      rintro other present member
      obtain rfl := List.mem_singleton.1 member
      rw [(Tree.create_numbers created).1] at present
      exact Tree.not_has_size present
    have parent_eq : ∀ other, before.tree.Has other → tree.parent other = before.tree.parent other := by
      intro other present
      rw [adopts.parent_of_notMem other (old other present), Tree.parent, extension.node_of_has other present,
        Tree.parent]
    refine ⟨?_, fun other present _ => parent_eq other present, fun _ => parent_eq id present, ?_, ?_⟩
    · intro other present _ different
      have apart : other ≠ parent := by
        rintro rfl
        exact different linked
      rw [adopts.children_of_ne other apart, Tree.children, extension.node_of_has other present, Tree.children]
    · intro next impossible
      cases impossible
    · intro impossible
      cases impossible

/-- Children that come up before those that were visited are passed over: a walk succeeds, and leaves a
node unvisited that a transform put before the siblings of its own node, as it reported. -/
theorem Context.walk_skips :
    let tree : Tree := { file := "page", nodes := [
      { kind := .document, children := [⟨1⟩, ⟨2⟩] }, { kind := .conditional, parent := some ⟨0⟩ },
      { kind := .element "squeeze", parent := some ⟨0⟩ }] }
    let registry := Registry.ofTag "squeeze" [Transform.squeeze]
    let context := Context.start tree default registry
    (∀ transform, registry.Declares transform → transform.Honest ∧ transform.Local) ∧
      ∃ progress final, context.walk registry 9 ⟨0⟩ = (.ok progress, final) ∧
        final.tree.children ⟨0⟩ = [⟨3⟩, ⟨1⟩, ⟨2⟩] ∧ (final.tree.node ⟨3⟩).state = .unvisited := by
  intro tree registry context
  constructor
  · intro transform declared
    obtain rfl := List.mem_singleton.1 (Registry.declares_ofTag.1 declared)
    exact ⟨Transform.honest_squeeze, Transform.local_squeeze⟩
  · have ends : (context.walk registry 9 ⟨0⟩).1.isOk = true := by decide +kernel
    have listed : (context.walk registry 9 ⟨0⟩).2.tree.children ⟨0⟩ = [⟨3⟩, ⟨1⟩, ⟨2⟩] := by decide +kernel
    have unvisited : ((context.walk registry 9 ⟨0⟩).2.tree.node ⟨3⟩).state = .unvisited := by decide +kernel
    generalize context.walk registry 9 ⟨0⟩ = result at ends listed unvisited
    rcases result with ⟨_ | progress, final⟩
    · cases ends
    · exact ⟨progress, final, rfl, listed, unvisited⟩

end HtmlTemplate
