import HtmlTemplate.Proofs.Tree.Ancestry
import HtmlTemplate.Proofs.Walk.Run
import HtmlTemplate.Proofs.Walk.Settling

/-!
# Walks inside of the tree

A transform is tethered if it leaves the path to the parent of its node as it is, and the walk goes on below that
parent. Then whatever is above the node that a walk is at stays above it, down from the root, and the walk never gets
out of the tree.
-/

namespace HtmlTemplate

/-- The node at which a walk goes on after a transform, if the walk stays with the node or what took its place. -/
def Outcome.next? (outcome : Outcome) (id : NodeId) (after : Tree) : Option NodeId :=
  match outcome with
  | .unchanged => some id
  | .changed => some id
  | .replaced next => if next = id ∨ (after.parent next).isSome then some next else none
  | .removed => none

/-- What a transform did to a node does no harm to what is above the node. -/
structure Tree.Tethered (before : Tree) (id : NodeId) (outcome : Outcome) (after : Tree) : Prop where
  /-- The parent of the node stays where it is. -/
  above : ∀ parent, before.parent id = some parent →
    ∀ other, before.OnPath other parent → after.parent other = before.parent other
  /-- The walk goes on below the parent. -/
  goesOn : ∀ next, outcome.next? id after = some next → Walk.Under id after (before.parent id) next
  /-- A node without a parent gets none. -/
  top : before.parent id = none → ∀ next, outcome.next? id after = some next → after.parent id = none

/-- The transform changes trees by edits only, and whatever it does, it does no harm to what is above its node. -/
structure Transform.Tethered (transform : Transform) : Prop where
  edits : ∀ {id : NodeId} {before after : Context} {outcome : Outcome}, before.tree.WellFormed →
    before.tree.Has id → transform.Does id before outcome after → before.tree.Reaches after.tree
  tethered : ∀ {id : NodeId} {before after : Context} {outcome : Outcome}, before.tree.WellFormed →
    before.tree.Has id → transform.Does id before outcome after → before.tree.Tethered id outcome after.tree

/-- A transform that keeps all parents does no harm. -/
theorem Tree.tethered_of_parent_eq {before after : Tree} {id : NodeId} {outcome : Outcome}
    (same : ∀ other, after.parent other = before.parent other) (stays : outcome = .unchanged ∨ outcome = .changed) :
    before.Tethered id outcome after where
  above _ _ other _ := same other
  goesOn next goes := by
    have here : next = id := by
      rcases stays with rfl | rfl
      · exact (Option.some.inj goes).symm
      · exact (Option.some.inj goes).symm
    subst here
    cases linked : before.parent next with
    | none => exact .self
    | some parent => exact ⟨next, (same next).trans linked, .self⟩
  top none _ _ := (same id).trans none

theorem Transform.tethered_bindRenderer (renderer : String) : (Transform.bindRenderer renderer).Tethered where
  edits := (Transform.honest_bindRenderer renderer).edits
  tethered _ _ does := by
    rcases Transform.bindRenderer_does does with ⟨rfl, rfl⟩ | ⟨rfl, tag, tree, -, made, rfl⟩
    · exact Tree.tethered_of_parent_eq (fun _ => rfl) (.inl rfl)
    · obtain ⟨-, -, rfl⟩ := Tree.setKind_eq_ok_iff.1 made
      refine Tree.tethered_of_parent_eq (fun other => ?_) (.inr rfl)
      exact Tree.field_update _ _ other Node.parent fun _ => rfl

/-- The parent of a node and what is above it are not in the surroundings of the node. -/
theorem Tree.WellFormed.not_around {tree : Tree} (wellFormed : tree.WellFormed) {id parent other : NodeId}
    (linked : tree.parent id = some parent) (above : tree.OnPath other parent) : ¬tree.Around id other := by
  rintro ⟨top, place, lower⟩
  have topped : tree.parent top = some parent := by
    rcases place with rfl | ⟨same, upper, sibling⟩
    · exact linked
    · rw [sibling, ← upper, linked]
  obtain ⟨depth, grounded⟩ := wellFormed.grounded top
  exact Tree.not_onPath_parent grounded topped (lower.trans above)

/-- A local change does no harm to what is above the node. -/
theorem Tree.Local.tethered {before after : Tree} {id : NodeId} {outcome : Outcome} (kept : before.Local id outcome after)
    (wellFormed : before.WellFormed) (reports : outcome ≠ .unchanged) : before.Tethered id outcome after := by
  have goes : ∀ next, outcome.next? id after = some next →
      after.parent next = before.parent id ∧ (next ≠ id → before.parent id ≠ none) := by
    intro next goes
    cases outcome with
    | unchanged => exact absurd rfl reports
    | changed =>
        obtain rfl := Option.some.inj goes
        exact ⟨kept.changed rfl, fun differs => absurd rfl differs⟩
    | replaced other =>
        unfold Outcome.next? at goes
        dsimp only at goes
        split at goes
        · next accepted =>
            obtain rfl := Option.some.inj goes
            have same := (kept.replaced other rfl).1
            refine ⟨same, fun differs => ?_⟩
            rw [← same]
            exact fun none => by simp [none, differs] at accepted
        · cases goes
    | removed => cases goes
  constructor
  · intro parent linked other upper
    refine kept.parent other ?_ (wellFormed.not_around linked upper)
    exact wellFormed.has_of_onPath upper (wellFormed.has_parent linked)
  · intro next there
    obtain ⟨same, attached⟩ := goes next there
    cases linked : before.parent id with
    | none =>
        by_cases differs : next = id
        · exact differs ▸ .self
        · exact absurd linked (attached differs)
    | some parent => exact ⟨next, same.trans linked, .self⟩
  · intro none next there
    obtain ⟨same, attached⟩ := goes next there
    by_cases differs : next = id
    · exact differs ▸ same.trans none
    · exact absurd none (attached differs)

/-- An honest transform whose changes are local is tethered. -/
theorem Transform.Honest.tethered {transform : Transform} (honest : transform.Honest) (kept : transform.Local) :
    transform.Tethered where
  edits := honest.edits
  tethered {id before after outcome} wellFormed present does := by
    by_cases unchanged : outcome = .unchanged
    · subst unchanged
      have same := honest.reports wellFormed present does
      exact Tree.tethered_of_parent_eq (fun _ => by rw [same]) (.inl rfl)
    · exact (kept wellFormed present does unchanged).tethered wellFormed unchanged

namespace Walk

/-- Raises an alarm about a node that is not below the root. -/
def guard (alarm : NodeId → Walk Unit) (root id : NodeId) : Walk Unit := do
  if id ∈ (← tree).preorder root then return () else alarm id

variable {registry : Registry} {alarm : NodeId → Walk Unit} {bound : Nat}
variable {root id : NodeId} {host : Option NodeId}
variable {state : Progress} {context : Context} {before middle after : Tree}

/-! ## What stays above -/

/-- What is below the node comes up in a walk: it is below the root, which has no parent. -/
structure Hosting (root id : NodeId) (tree : Tree) : Prop where
  wellFormed : tree.WellFormed
  top : tree.parent root = none
  onPath : tree.OnPath root id

/-- The walk has come to a node under the host. -/
structure Tied (root : NodeId) (host : Option NodeId) (id : NodeId) (tree : Tree) : Prop extends
    Hosting root id tree where
  under : Under root tree host id

/-- The host stays where it is. -/
structure Keeps (host : Option NodeId) (before after : Tree) : Prop where
  wellFormed : after.WellFormed
  path : ∀ parent, host = some parent → ∀ other, before.OnPath other parent → after.parent other = before.parent other

/-- A path whose nodes keep their parents is still a path. -/
theorem onPath_of_kept {top parent : NodeId} (onPath : before.OnPath top parent)
    (kept : ∀ other, before.OnPath other parent → after.parent other = before.parent other) :
    after.OnPath top parent := by
  induction onPath with
  | self => exact .self
  | @step id parent linked _ hypothesis =>
      refine .step ((kept id .self).trans linked) (hypothesis fun other upper => ?_)
      exact kept other (.step linked upper)

theorem Keeps.refl (wellFormed : before.WellFormed) : Keeps host before before :=
  ⟨wellFormed, fun _ _ _ _ => rfl⟩

theorem Keeps.trans (first : Keeps host before middle) (second : Keeps host middle after) : Keeps host before after where
  wellFormed := second.wellFormed
  path parent hosted other upper := by
    rw [second.path parent hosted other (onPath_of_kept upper (first.path parent hosted)), first.path parent hosted other upper]

theorem keeps_of_sameShape (wellFormed : before.WellFormed) (shape : before.SameShape after) : Keeps host before after :=
  ⟨shape.wellFormed wellFormed, fun _ _ other _ => shape.parent other⟩

theorem Keeps.of_sameShape (keeps : Keeps host before middle) (shape : middle.SameShape after) :
    Keeps host before after :=
  keeps.trans (keeps_of_sameShape keeps.wellFormed shape)

theorem Tied.of_sameShape (tied : Tied root host id before) (shape : before.SameShape after) :
    Tied root host id after where
  wellFormed := shape.wellFormed tied.wellFormed
  top := (shape.parent root).trans tied.top
  onPath := shape.onPath tied.onPath
  under := by
    cases host with
    | none => exact shape.onPath tied.under
    | some parent =>
        obtain ⟨child, linked, onPath⟩ := tied.under
        exact ⟨child, (shape.parent child).trans linked, shape.onPath onPath⟩

/-- The path to a node under a host goes through the host. -/
theorem Under.onPath_host {parent : NodeId} (under : Under root before (some parent) id) : before.OnPath parent id := by
  obtain ⟨child, linked, onPath⟩ := under
  exact (Tree.OnPath.step linked .self).trans onPath

theorem Hosting.child (hosting : Hosting root id before) {child : NodeId} (linked : before.parent child = some id) :
    Tied root (some id) child before where
  toHosting := ⟨hosting.wellFormed, hosting.top, .step linked hosting.onPath⟩
  under := ⟨child, linked, .self⟩

theorem Hosting.kept (hosting : Hosting root id before) (keeps : Keeps (some id) before after) :
    Hosting root id after where
  wellFormed := keeps.wellFormed
  top := (keeps.path id rfl root hosting.onPath).trans hosting.top
  onPath := onPath_of_kept hosting.onPath (keeps.path id rfl)

/-- A walk that leaves a node where it is leaves the host above it where it is. -/
theorem Tied.kept (tied : Tied root host id before) (keeps : Keeps (some id) before after) :
    Tied root host id after ∧ Keeps host before after := by
  have hosting := tied.toHosting.kept keeps
  cases host with
  | none => exact ⟨⟨hosting, hosting.onPath⟩, keeps.wellFormed, fun _ impossible => by cases impossible⟩
  | some parent =>
      have upper := tied.under.onPath_host
      obtain ⟨child, linked, onPath⟩ := tied.under
      refine ⟨⟨hosting, child, ?_, onPath_of_kept onPath (keeps.path id rfl)⟩, keeps.wellFormed, ?_⟩
      · exact (keeps.path id rfl child onPath).trans linked
      · intro other hosted top above
        obtain rfl := Option.some.inj hosted
        exact keeps.path id rfl top (above.trans upper)

/-- Where a walk goes on after a tethered change of a node with a parent. -/
theorem Tied.next {parent next : NodeId} (tied : Tied root host id before) (linked : before.parent id = some parent)
    (wellFormed : after.WellFormed) (above : ∀ other, before.OnPath other parent → after.parent other = before.parent other)
    (under : Under root after (some parent) next) : Tied root host next after := by
  have upper : before.OnPath root parent := by
    rcases Tree.onPath_iff.1 tied.onPath with rfl | ⟨other, same, upper⟩
    · cases tied.top.symm.trans linked
    · obtain rfl := Option.some.inj (linked.symm.trans same)
      exact upper
  have hosting : Hosting root next after :=
    ⟨wellFormed, (above root upper).trans tied.top, (onPath_of_kept upper above).trans under.onPath_host⟩
  cases host with
  | none => exact ⟨hosting, hosting.onPath⟩
  | some top =>
      obtain ⟨child, topped, onPath⟩ := tied.under
      rcases Tree.onPath_iff.1 onPath with rfl | ⟨other, same, lower⟩
      · obtain rfl := Option.some.inj (linked.symm.trans topped)
        exact ⟨hosting, under⟩
      · obtain rfl := Option.some.inj (linked.symm.trans same)
        refine ⟨hosting, child, (above child lower).trans topped, ?_⟩
        exact (onPath_of_kept lower above).trans under.onPath_host

/-- A tethered change leaves the host where it is, and the walk goes on under it. -/
theorem Tied.applied (tied : Tied root host id before) {outcome : Outcome} (wellFormed : after.WellFormed)
    (tethered : before.Tethered id outcome after) :
    Keeps host before after ∧ ∀ next, outcome.next? id after = some next → Tied root host next after := by
  cases linked : before.parent id with
  | none =>
      -- Only the root has no parent, and it is under no host.
      obtain rfl := Tree.onPath_of_root linked tied.onPath
      cases host with
      | none =>
          refine ⟨⟨wellFormed, fun _ impossible => by cases impossible⟩, fun next goes => ?_⟩
          have under := tethered.goesOn next goes
          rw [linked] at under
          exact ⟨⟨wellFormed, tethered.top linked next goes, under⟩, under⟩
      | some parent =>
          obtain ⟨child, upper, onPath⟩ := tied.under
          obtain rfl := Tree.onPath_of_root linked onPath
          cases linked.symm.trans upper
  | some parent =>
      have above := tethered.above parent linked
      refine ⟨⟨wellFormed, fun top hosted other upper => above other ?_⟩, fun next goes => ?_⟩
      · subst hosted
        obtain ⟨child, topped, onPath⟩ := tied.under
        rcases Tree.onPath_iff.1 onPath with rfl | ⟨between, same, lower⟩
        · obtain rfl := Option.some.inj (linked.symm.trans topped)
          exact upper
        · obtain rfl := Option.some.inj (linked.symm.trans same)
          exact (upper.trans (.step topped .self)).trans lower
      · have under := tethered.goesOn next goes
        rw [linked] at under
        exact tied.next linked wellFormed above under

/-! ## Asking about nodes that are below the root -/

theorem guard_eq (inside : context.tree.OnPath root id) (wellFormed : context.tree.WellFormed) :
    guard alarm root id state context = (pure () : Walk Unit) state context := by
  unfold guard
  rw [bind_apply]
  exact congrFun (congrFun (if_pos (wellFormed.mem_preorder inside)) state) context

/-- There is no alarm about a node that is below the root. -/
theorem Agree.guarded {α : Type} {first second : Walk α} {good : α → Progress → Context → Prop}
    (hosting : Hosting root id context.tree) (agree : Agree first second state context good) :
    Agree (guard alarm root id >>= fun _ => first) second state context good := by
  refine ⟨?_, agree.2⟩
  rw [bind_apply, guard_eq hosting.onPath hosting.wellFormed]
  exact agree.1

/-- There is no alarm about what came of something if it is below the root. -/
theorem Agree.guardedNext {first second : Walk Outcome} {good : Outcome → Progress → Context → Prop}
    (agree : Agree first second state context good)
    (hosting : ∀ next state context, good (.replaced next) state context → Hosting root next context.tree) :
    Agree (first >>= fun outcome => askNext (guard alarm root) outcome >>= fun _ => pure outcome) second state context
      good := by
  obtain ⟨same, holds⟩ := agree
  refine ⟨?_, holds⟩
  rw [bind_apply, same]
  unfold Holds at holds
  generalize second state context = result at holds ⊢
  rcases result with ⟨⟨halt | outcome, between⟩, middle⟩
  · rfl
  · cases outcome with
    | replaced next =>
        have inside := hosting next between middle holds
        change (guard alarm root next >>= fun _ => pure (Outcome.replaced next)) between middle = _
        rw [bind_apply, guard_eq inside.onPath inside.wellFormed]
        rfl
    | _ => rfl

/-! ## Rounds -/

/-- Where the walk is after a round of transforms. -/
structure Rounded (root : NodeId) (host : Option NodeId) (id : NodeId) (before : Tree) (outcome : Outcome) (after : Tree) :
    Prop where
  keeps : Keeps host before after
  stays : outcome = .unchanged ∨ outcome = .changed → Tied root host id after
  replaced : ∀ next, outcome = .replaced next → Tied root host next after

theorem Rounded.afterKept {outcome : Outcome} (keeps : Keeps host before middle)
    (rounded : Rounded root host id middle outcome after) : Rounded root host id before outcome after :=
  ⟨keeps.trans rounded.keeps, rounded.stays, rounded.replaced⟩

/-- What a walk makes of a report leaves it under the host. -/
theorem Rounded.of_confirmed {reported outcome : Outcome} (keeps : Keeps host before middle)
    (goes : ∀ next, reported.next? id middle = some next → Tied root host next middle)
    (confirmed : Confirmed id reported middle outcome after) : Rounded root host id before outcome after := by
  cases confirmed with
  | changed => exact ⟨keeps, fun _ => goes id rfl, fun _ impossible => by cases impossible⟩
  | itself => exact ⟨keeps, fun _ => goes id (if_pos (.inl rfl)), fun _ impossible => by cases impossible⟩
  | replaced different linked =>
      refine ⟨keeps, fun impossible => ?_, fun next same => ?_⟩
      · rcases impossible with impossible | impossible <;> cases impossible
      · obtain rfl := Outcome.replaced.inj same
        exact goes _ (if_pos (.inr (by rw [linked]; rfl)))
  | removed detached =>
      refine ⟨keeps.of_sameShape (middle.sameShape_setState id .settled), fun impossible => ?_, fun _ impossible => ?_⟩
      · rcases impossible with impossible | impossible <;> cases impossible
      · cases impossible

/-- The transforms that taglibs of the registry declare are tethered. -/
def AllTethered (registry : Registry) : Prop :=
  ∀ transform, registry.Declares transform → transform.Tethered

theorem applyFirst_agree {transforms : List Transform} (tethered : ∀ transform ∈ transforms, transform.Tethered)
    (present : transforms ≠ [] → context.tree.Has id) (tied : Tied root host id context.tree) :
    Agree (applyFirstAsking (guard alarm root) id transforms) (applyFirst id transforms) state context
      fun outcome _ final => Rounded root host id context.tree outcome final.tree := by
  induction transforms generalizing context with
  | nil =>
      refine (holds_pure ⟨.refl tied.wellFormed, fun _ => tied, fun _ impossible => ?_⟩).agree
      cases impossible
  | cons transform transforms hypothesis =>
      unfold applyFirstAsking applyFirst
      refine Agree.guarded tied.toHosting (holds_attempt.agree.bind ?_)
      rintro result state middle ⟨rfl, does⟩
      rcases result with fault | outcome
      · exact (holds_failNode ⟨_, rfl⟩).agree
      have fits := tethered transform List.mem_cons_self
      have there := present (List.cons_ne_nil _ _)
      have reaches := fits.edits tied.wellFormed there does
      have applied := tied.applied (reaches.wellFormed tied.wellFormed) (fits.tethered tied.wellFormed there does)
      have confirms (reports : outcome ≠ .unchanged) : Agree
          (modifyProgress (fun progress => { progress with applied := progress.applied + 1 }) >>= fun _ =>
            confirm transform id outcome >>= fun outcome =>
              askNext (guard alarm root) outcome >>= fun _ => pure outcome)
          (modifyProgress (fun progress => { progress with applied := progress.applied + 1 }) >>= fun _ =>
            confirm transform id outcome) state middle
          fun outcome _ final => Rounded root host id context.tree outcome final.tree := by
        refine holds_modifyProgress.agree.bind ?_
        rintro _ after left ⟨rfl, rfl⟩
        refine Agree.guardedNext ((holds_confirm transform reports).agree.weaken ?_) fun next _ _ rounded =>
          (rounded.replaced next rfl).toHosting
        rintro outcome _ final ⟨-, confirmed⟩
        exact .of_confirmed applied.1 applied.2 confirmed
      cases outcome with
      | unchanged =>
          refine (hypothesis (fun other member => tethered other (List.mem_cons_of_mem _ member))
            (fun _ => (reaches.grows tied.wellFormed).has there) (applied.2 id rfl)).weaken ?_
          exact fun outcome _ final rounded => rounded.afterKept applied.1
      | _ => exact confirms (by rintro ⟨⟩)

theorem AllTethered.transforms (tethered : AllTethered registry) {tree : Tree} {phase : Phase} {transform : Transform}
    (member : transform ∈ transformsFor registry tree id phase) : tree.Has id ∧ transform.Tethered := by
  obtain ⟨present, -, declared | ⟨renderer, rfl⟩⟩ := mem_transformsFor member
  · exact ⟨present, tethered transform declared⟩
  · exact ⟨present, Transform.tethered_bindRenderer renderer⟩

theorem AllTethered.runPhase_agree (tethered : AllTethered registry) (tied : Tied root host id context.tree) (phase : Phase) :
    Agree (runPhaseAsking (guard alarm root) registry id phase) (runPhase registry id phase) state context
      fun result _ final => Rounded root host id context.tree result.1 final.tree := by
  unfold runPhaseAsking runPhase
  refine holds_tree.agree.bind ?_
  rintro _ state context ⟨rfl, rfl, rfl⟩
  refine (applyFirst_agree (fun transform member => (tethered.transforms member).2) (fun some => ?_) tied).bind ?_
  · obtain ⟨transform, member⟩ := List.exists_mem_of_ne_nil _ some
    exact (tethered.transforms member).1
  · intro outcome _ final rounded
    exact (holds_pure rounded).agree

theorem AllTethered.enterOnce_agree (tethered : AllTethered registry) (tied : Tied root host id context.tree) :
    Agree (enterOnceAsking (guard alarm root) registry id) (enterOnce registry id) state context
      fun result _ final => Rounded root host id context.tree result.1 final.tree := by
  unfold enterOnceAsking enterOnce
  refine Agree.guarded tied.toHosting (holds_setState.agree.bind ?_)
  rintro _ state marked ⟨-, rfl⟩
  refine holds_checkTag.agree.bind ?_
  rintro _ after left checked
  have shape : context.tree.SameShape left.tree := (context.tree.sameShape_setState id .entering).trans checked.shape
  refine (tethered.runPhase_agree (tied.of_sameShape shape) .enter).weaken ?_
  exact fun result _ final rounded => rounded.afterKept (keeps_of_sameShape tied.wellFormed shape)

/-- Where the walk is after a node was entered. -/
def Reached (root : NodeId) (host : Option NodeId) (before : Tree) : Option (NodeId × Nat) → Tree → Prop
  | some (id, _), after => Tied root host id after ∧ Keeps host before after
  | none, after => Keeps host before after

theorem Reached.afterKept (keeps : Keeps host before middle) {result : Option (NodeId × Nat)}
    (reached : Reached root host middle result after) : Reached root host before result after := by
  rcases result with _ | ⟨id, left⟩
  · exact keeps.trans reached
  · exact ⟨reached.1, keeps.trans reached.2⟩

/-- A node that was replaced is set aside. -/
theorem Rounded.aside {next : NodeId} {final aside : Context} (rounded : Rounded root host id before (.replaced next) final.tree)
    (made : aside = { final with tree := final.tree.setState id .unvisited }) :
    Tied root host next aside.tree ∧ Keeps host before aside.tree := by
  subst made
  have shape := final.tree.sameShape_setState id .unvisited
  exact ⟨(rounded.replaced next rfl).of_sameShape shape, rounded.keeps.of_sameShape shape⟩

theorem AllTethered.enter_agree (tethered : AllTethered registry) (left : Nat) (tied : Tied root host id context.tree) :
    Agree (enterAsking (guard alarm root) registry bound left id) (enter registry bound left id) state context
      fun result _ final => Reached root host context.tree result final.tree := by
  induction left generalizing state context id with
  | zero =>
      unfold enterAsking enter
      refine (tethered.enterOnce_agree tied).bind ?_
      rintro ⟨outcome, size⟩ state final rounded
      cases outcome with
      | unchanged => exact (holds_pure ⟨rounded.stays (.inl rfl), rounded.keeps⟩).agree
      | removed => exact (holds_pure rounded.keeps).agree
      | changed => exact (holds_unsettled fun fault => ⟨fault, rfl⟩).agree
      | replaced next => exact (holds_unsettled fun fault => ⟨fault, rfl⟩).agree
  | succ left hypothesis =>
      unfold enterAsking enter
      refine (tethered.enterOnce_agree tied).bind ?_
      rintro ⟨outcome, size⟩ state final rounded
      cases outcome with
      | unchanged => exact (holds_pure ⟨rounded.stays (.inl rfl), rounded.keeps⟩).agree
      | removed => exact (holds_pure rounded.keeps).agree
      | changed =>
          refine (holds_handOn _ _).agree.bind ?_
          rintro _ _ final ⟨rfl, rfl⟩
          refine (hypothesis (rounded.stays (.inr rfl))).weaken ?_
          exact fun result _ last reached => Reached.afterKept rounded.keeps reached
      | replaced next =>
          refine (holds_handOn _ _).agree.bind ?_
          rintro _ _ final ⟨rfl, rfl⟩
          refine (holds_setAside _).agree.bind ?_
          rintro _ _ aside ⟨-, made⟩
          obtain ⟨tied, keeps⟩ := rounded.aside made
          refine (hypothesis tied).weaken ?_
          exact fun result _ last reached => Reached.afterKept keeps reached

/-! ## Visits -/

/-- With this fuel, a visit of a node under a host raises no alarm and leaves the host where it is. -/
def VisitsInside (registry : Registry) (alarm : NodeId → Walk Unit) (bound fuel : Nat) : Prop :=
  ∀ {root : NodeId} {host : Option NodeId} {id : NodeId} {passes : Nat} {state : Progress} {context : Context},
    Tied root host id context.tree →
    Agree (visitAsking (guard alarm root) registry bound fuel id passes) (visit registry bound fuel id passes) state
      context fun _ _ final => Keeps host context.tree final.tree

/-- The same for the children of a node. -/
def ChildrenInside (registry : Registry) (alarm : NodeId → Walk Unit) (bound fuel : Nat) : Prop :=
  ∀ {root id : NodeId} {index : Nat} {state : Progress} {context : Context}, Hosting root id context.tree →
    Agree (visitChildrenAsking (guard alarm root) registry bound fuel id index)
      (visitChildren registry bound fuel id index) state context fun _ _ final => Keeps (some id) context.tree final.tree

/-- The same for leaving a node. -/
def LeavesInside (registry : Registry) (alarm : NodeId → Walk Unit) (bound fuel : Nat) : Prop :=
  ∀ {root : NodeId} {host : Option NodeId} {id : NodeId} {left : Nat} {state : Progress} {context : Context},
    Tied root host id context.tree →
    Agree (leaveAsking (guard alarm root) registry bound fuel id left) (leave registry bound fuel id left) state context
      fun _ _ final => Keeps host context.tree final.tree

variable {fuel : Nat}

theorem AllTethered.visit_agree (tethered : AllTethered registry) (children : ChildrenInside registry alarm bound fuel)
    (leaves : LeavesInside registry alarm bound fuel) : VisitsInside registry alarm bound (fuel + 1) := by
  intro root host id passes state context tied
  simp only [visitAsking, visit]
  refine holds_progress.agree.bind ?_
  rintro _ state context ⟨rfl, rfl, rfl⟩
  refine holds_modifyProgress.agree.bind ?_
  rintro _ counted context ⟨-, rfl⟩
  refine (tethered.enter_agree _ tied).bind ?_
  rintro (_ | ⟨next, rest⟩) state entered reached
  · exact (holds_pure reached).agree
  obtain ⟨tied, keeps⟩ := reached
  refine holds_setState.agree.bind ?_
  rintro _ state marked ⟨-, made⟩
  have shape : entered.tree.SameShape marked.tree := made ▸ entered.tree.sameShape_setState next .entered
  refine (children (tied.of_sameShape shape).toHosting).bind ?_
  rintro _ state below kept
  obtain ⟨tied, stays⟩ := (tied.of_sameShape shape).kept kept
  refine holds_setState.agree.bind ?_
  rintro _ state exiting ⟨-, made⟩
  have again : below.tree.SameShape exiting.tree := made ▸ below.tree.sameShape_setState next .exiting
  refine (leaves (tied.of_sameShape again)).weaken ?_
  exact fun _ _ final left => (((keeps.of_sameShape shape).trans stays).of_sameShape again).trans left

theorem childrenInside (visits : VisitsInside registry alarm bound fuel) (children : ChildrenInside registry alarm bound fuel) :
    ChildrenInside registry alarm bound (fuel + 1) := by
  intro root id index state context hosting
  simp only [visitChildrenAsking, visitChildren]
  refine holds_tree.agree.bind ?_
  rintro _ state context ⟨rfl, rfl, rfl⟩
  cases found : (context.tree.children id)[index]? with
  | none => exact (holds_pure (.refl hosting.wellFormed)).agree
  | some child =>
      have linked := (hosting.wellFormed.linked id child).1 (List.mem_of_getElem? found)
      dsimp only
      split
      · refine (visits (hosting.child linked)).bind ?_
        rintro _ state middle keeps
        refine (children (hosting.kept keeps)).weaken ?_
        exact fun _ _ final stays => keeps.trans stays
      · exact children hosting

theorem AllTethered.leave_agree (tethered : AllTethered registry) (visits : VisitsInside registry alarm bound fuel)
    (children : ChildrenInside registry alarm bound fuel) (leaves : LeavesInside registry alarm bound fuel) :
    LeavesInside registry alarm bound (fuel + 1) := by
  intro root host id left state context tied
  simp only [leaveAsking, leave]
  refine Agree.guarded tied.toHosting ((tethered.runPhase_agree tied .leave).bind ?_)
  rintro ⟨outcome, size⟩ state final rounded
  cases outcome with
  | unchanged =>
      refine holds_setState.agree.weaken ?_
      rintro _ _ last ⟨-, made⟩
      rw [made]
      exact rounded.keeps.of_sameShape (final.tree.sameShape_setState id .settled)
  | removed => exact (holds_pure rounded.keeps).agree
  | changed =>
      cases left with
      | zero => exact (holds_unsettled fun fault => ⟨fault, rfl⟩).agree
      | succ left =>
          refine (holds_handOn _ _).agree.bind ?_
          rintro _ _ final ⟨rfl, rfl⟩
          have tied := rounded.stays (.inr rfl)
          refine (children tied.toHosting).bind ?_
          rintro _ _ below kept
          obtain ⟨tied, stays⟩ := tied.kept kept
          refine (leaves tied).weaken ?_
          exact fun _ _ last left => (rounded.keeps.trans stays).trans left
  | replaced next =>
      cases left with
      | zero => exact (holds_unsettled fun fault => ⟨fault, rfl⟩).agree
      | succ left =>
          refine (holds_handOn _ _).agree.bind ?_
          rintro _ _ final ⟨rfl, rfl⟩
          refine (holds_setAside _).agree.bind ?_
          rintro _ _ aside ⟨-, made⟩
          obtain ⟨tied, keeps⟩ := rounded.aside made
          refine (visits tied).weaken ?_
          exact fun _ _ last stays => keeps.trans stays

theorem AllTethered.inside (tethered : AllTethered registry) (fuel : Nat) :
    VisitsInside registry alarm bound fuel ∧ ChildrenInside registry alarm bound fuel ∧
      LeavesInside registry alarm bound fuel := by
  induction fuel with
  | zero =>
      refine ⟨fun _ => ?_, fun _ => ?_, fun _ => ?_⟩
      · exact ⟨rfl, trivial⟩
      · exact ⟨rfl, trivial⟩
      · exact ⟨rfl, trivial⟩
  | succ fuel hypothesis =>
      obtain ⟨visits, children, leaves⟩ := hypothesis
      exact ⟨tethered.visit_agree children leaves, childrenInside visits children,
        tethered.leave_agree visits children leaves⟩

theorem AllTethered.start_agree (tethered : AllTethered registry) (wellFormed : context.tree.WellFormed)
    (top : context.tree.parent root = none) (fuel : Nat) :
    Agree (startAsking (guard alarm root) registry fuel root) (start registry fuel root) state context
      fun _ _ final => final.tree.WellFormed := by
  unfold startAsking start
  refine holds_context.agree.bind ?_
  rintro _ state context ⟨rfl, rfl, rfl⟩
  refine (holds_markAll _).agree.bind ?_
  rintro _ after marked ⟨rfl, -, shape, -⟩
  have tied : Tied root none root marked.tree :=
    ⟨⟨shape.wellFormed wellFormed, (shape.parent root).trans top, .self⟩, .self⟩
  exact ((tethered.inside fuel).1 tied).weaken fun _ _ final keeps => keeps.wellFormed

end Walk

/-- If all transforms are tethered, a walk works only inside of the tree. It goes the same way whatever an alarm does
that is raised when the walk enters or leaves a node, applies a transform to a node, or accepts a node in the place of
another one while that node is not below the root: there is no such moment. -/
theorem Context.walk_staysInside (context : Context) (registry : Registry) (alarm : NodeId → Walk Unit) (fuel : Nat)
    (root : NodeId) (wellFormed : context.tree.WellFormed) (top : context.tree.parent root = none)
    (tethered : ∀ transform, registry.Declares transform → transform.Tethered) :
    context.walkAsking (Walk.guard alarm root) registry fuel root = context.walk registry fuel root := by
  obtain ⟨same, -⟩ : Walk.Agree (Walk.startAsking (Walk.guard alarm root) registry fuel root)
      (Walk.start registry fuel root) {} context _ := Walk.AllTethered.start_agree tethered wellFormed top fuel
  exact congrArg (fun ended => (ended.1.1.map fun _ => ended.1.2, ended.2)) same

/-- A transform that puts a fresh node before its own. -/
theorem Context.walk_staysInside_squeeze :
    let alarm : NodeId → Walk Unit := fun _ => throw .exhausted
    let tree : Tree := { file := "page", nodes := [
      { kind := .document, children := [⟨1⟩, ⟨2⟩] }, { kind := .conditional, parent := some ⟨0⟩ },
      { kind := .element "squeeze", parent := some ⟨0⟩ }] }
    let registry := Registry.ofTag "squeeze" [Transform.squeeze]
    let context := Context.start tree default registry
    context.walkAsking (Walk.guard alarm ⟨0⟩) registry 9 ⟨0⟩ = context.walk registry 9 ⟨0⟩ ∧
      (context.walk registry 9 ⟨0⟩).1.isOk = true := by
  intro alarm tree registry context
  have wellFormed : context.tree.WellFormed := Tree.Ordered.wellFormed (by decide)
  refine ⟨Context.walk_staysInside context registry alarm 9 ⟨0⟩ wellFormed rfl fun transform declared => ?_, ?_⟩
  · obtain rfl := List.mem_singleton.1 (Registry.declares_ofTag.1 declared)
    exact Transform.honest_squeeze.tethered Transform.local_squeeze
  · decide +kernel

/-- A transform that takes the parent of its node from the tree. -/
def Transform.cut : Transform :=
  { name := "cut"
    apply := fun id => do
      let tree ← Edit.tree
      match tree.parent id with
      | some parent =>
          if (tree.parent parent).isSome then do
            Edit.changeTree fun tree => tree.detach parent
            return .changed
          else return .unchanged
      | none => return .unchanged }

/-- A transform that gives its node up for another one, until that one has settled. -/
def Transform.yield (next : NodeId) : Transform :=
  { name := "yield"
    apply := fun _ => do
      if ((← Edit.tree).node next).state == .settled then return .unchanged else return .replaced next }

/-- A walk gets out of the tree. It goes on below a node that was taken from the tree, where transforms are applied
and siblings are visited, and it accepts any node in the place of another one that has a parent, wherever that is. -/
theorem Context.walk_strays :
    let alarm : NodeId → Walk Unit := fun _ => throw .exhausted
    let tree : Tree := { file := "page", nodes := [
      { kind := .document, children := [⟨1⟩] },
      { kind := .element "div", parent := some ⟨0⟩, children := [⟨2⟩, ⟨3⟩] },
      { kind := .element "cut", parent := some ⟨1⟩ }, { kind := .element "em", parent := some ⟨1⟩ }] }
    let cutting := Registry.ofTag "cut" [Transform.cut]
    let context := Context.start tree default cutting
    let forest : Tree := { file := "page", nodes := [
      { kind := .document, children := [⟨1⟩] }, { kind := .element "yield", parent := some ⟨0⟩ },
      { kind := .element "span", children := [⟨3⟩] }, { kind := .element "em", parent := some ⟨2⟩ }] }
    let yielding := Registry.ofTag "yield" [Transform.yield ⟨3⟩]
    let other := Context.start forest default yielding
    ((context.walk cutting 9 ⟨0⟩).1.isOk = true ∧
        ((context.walk cutting 9 ⟨0⟩).2.tree.node ⟨3⟩).state = .settled ∧
        (context.walk cutting 9 ⟨0⟩).2.tree.preorder ⟨0⟩ = [⟨0⟩] ∧
        (context.walkAsking (Walk.guard alarm ⟨0⟩) cutting 9 ⟨0⟩).1.isOk = false) ∧
      (other.walk yielding 9 ⟨0⟩).1.isOk = true ∧ ((other.walk yielding 9 ⟨0⟩).2.tree.node ⟨3⟩).state = .settled ∧
        (other.walk yielding 9 ⟨0⟩).2.tree.preorder ⟨0⟩ = [⟨0⟩, ⟨1⟩] ∧
        (other.walkAsking (Walk.guard alarm ⟨0⟩) yielding 9 ⟨0⟩).1.isOk = false := by
  decide +kernel

end HtmlTemplate
