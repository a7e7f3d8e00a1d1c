import HtmlTemplate.Proofs.Walk.Run

/-!
# Walks that keep a record

A walk applies transforms one after the other. To tell in which order it does so, it is made to keep a record of
them, each with the node it is applied to and the compilation it finds. Nothing reads the record, so the walk
without it is the walk as it is.
-/

namespace HtmlTemplate

/-- An application of a transform. -/
structure Application where
  transform : Transform
  id : NodeId
  /-- The compilation that the transform finds. -/
  before : Context

namespace Application

/-- What the transform comes to. -/
def result (application : Application) : Except Fault Outcome :=
  ((application.transform.apply application.id).run application.before).1

end Application

/-- A part of a walk, with the transforms that it applies in order. -/
def Recorded (α : Type) :=
  Progress → Context → ((Except Halt α × Progress) × Context) × List Application

namespace Recorded

variable {α β : Type}

/-- A part of a walk that applies no transform. -/
def quiet (work : Walk α) : Recorded α :=
  fun state context => (work state context, [])

/-- The part of the walk without its record. -/
def erase (work : Recorded α) : Walk α :=
  fun state context => (work state context).1

instance : Monad Recorded where
  pure value := quiet (pure value)
  bind first next := fun state context =>
    match first state context with
    | (((.ok value, state), context), front) =>
        let (result, back) := next value state context
        (result, front ++ back)
    | (((.error halt, state), context), front) => (((.error halt, state), context), front)

/-- Applies a transform to a node. -/
def apply (id : NodeId) (transform : Transform) : Recorded (Except Fault Outcome) :=
  fun state context => (Walk.attempt (transform.apply id) state context, [⟨transform, id, context⟩])

/-! ## Rounds -/

/-- Applies transforms to a node in order, up to the first one that changes it. -/
def applyFirst (id : NodeId) : List Transform → Recorded Outcome
  | [] => return .unchanged
  | transform :: transforms => do
      match ← apply id transform with
      | .error fault => quiet (Walk.failNode id fault)
      | .ok .unchanged => applyFirst id transforms
      | .ok outcome => do
          quiet (Walk.modifyProgress fun progress => { progress with applied := progress.applied + 1 })
          quiet (Walk.confirm transform id outcome)

/-- What the transforms of a node for a phase do, and how many nodes there were before. -/
def runPhase (registry : Registry) (id : NodeId) (phase : Phase) : Recorded (Outcome × Nat) := do
  let tree ← quiet Walk.tree
  let outcome ← applyFirst id (Walk.transformsFor registry tree id phase)
  return (outcome, tree.size)

/-- Checks a node and runs its transforms for entering once. -/
def enterOnce (registry : Registry) (id : NodeId) : Recorded (Outcome × Nat) := do
  quiet (Walk.setState id .entering)
  quiet (Walk.checkTag registry id)
  runPhase registry id .enter

/-- Enters a node. -/
def enter (registry : Registry) (bound : Nat) : Nat → NodeId → Recorded (Option (NodeId × Nat))
  | 0, id => do
      match (← enterOnce registry id).1 with
      | .unchanged => return some (id, 0)
      | .removed => return none
      | _ => quiet (Walk.unsettled bound id)
  | left + 1, id => do
      let (outcome, before) ← enterOnce registry id
      match outcome with
      | .unchanged => return some (id, left + 1)
      | .removed => return none
      | .changed => do
          quiet (Walk.handOn before (bound - left))
          enter registry bound left id
      | .replaced next => do
          quiet (Walk.handOn before (bound - left))
          quiet (Walk.setAside id (bound - left))
          enter registry bound left next

/-! ## Visits -/

mutual

/-- Visits a node that has changed some times already. -/
def visit (registry : Registry) (bound : Nat) : Nat → NodeId → Nat → Recorded Unit
  | 0, _, _ => quiet (throw .exhausted)
  | fuel + 1, id, passes => do
      let passes := max passes ((← quiet Walk.progress).startOf id)
      quiet (Walk.modifyProgress fun progress => { progress with visited := progress.visited + 1 })
      match ← enter registry bound (bound - passes) id with
      | none => return ()
      | some (id, left) => do
          quiet (Walk.setState id .entered)
          visitChildren registry bound fuel id 0
          quiet (Walk.setState id .exiting)
          leave registry bound fuel id left

/-- Visits the unvisited children of a node from a place on. -/
def visitChildren (registry : Registry) (bound : Nat) : Nat → NodeId → Nat → Recorded Unit
  | 0, _, _ => quiet (throw .exhausted)
  | fuel + 1, parent, index => do
      let tree ← quiet Walk.tree
      match (tree.children parent)[index]? with
      | none => return ()
      | some child =>
          if (tree.node child).state == .unvisited then do
            visit registry bound fuel child 0
            visitChildren registry bound fuel parent index
          else visitChildren registry bound fuel parent (index + 1)

/-- Leaves a node to which a number of changes is left. -/
def leave (registry : Registry) (bound : Nat) : Nat → NodeId → Nat → Recorded Unit
  | 0, _, _ => quiet (throw .exhausted)
  | fuel + 1, id, left => do
      let (outcome, before) ← runPhase registry id .leave
      match outcome, left with
      | .unchanged, _ => quiet (Walk.setState id .settled)
      | .removed, _ => return ()
      | _, 0 => quiet (Walk.unsettled bound id)
      | .changed, left + 1 => do
          quiet (Walk.handOn before (bound - left))
          visitChildren registry bound fuel id 0
          leave registry bound fuel id left
      | .replaced next, left + 1 => do
          quiet (Walk.handOn before (bound - left))
          quiet (Walk.setAside id (bound - left))
          visit registry bound fuel next (bound - left)

end

/-- Marks all that is below a node as unvisited. -/
def reset (root : NodeId) : Walk Context := do
  let context ← Walk.context
  for id in context.tree.preorder root do
    Walk.setState id .unvisited
  return context

/-- Walks over all that is below a node. -/
def start (registry : Registry) (fuel : Nat) (root : NodeId) : Recorded Unit := do
  let context ← quiet (reset root)
  visit registry context.options.maxTransformPasses fuel root 0

/-! ## Without the record -/

variable {registry : Registry} {bound : Nat} {id : NodeId}

@[simp]
theorem erase_quiet (work : Walk α) : (quiet work).erase = work :=
  rfl

@[simp]
theorem erase_pure (value : α) : (pure value : Recorded α).erase = pure value :=
  rfl

@[simp]
theorem erase_apply (transform : Transform) : (apply id transform).erase = Walk.attempt (transform.apply id) :=
  rfl

theorem bind_apply (first : Recorded α) (next : α → Recorded β) (state : Progress) (context : Context) :
    (first >>= next) state context =
      match first state context with
      | (((.ok value, state), context), front) =>
          ((next value state context).1, front ++ (next value state context).2)
      | (((.error halt, state), context), front) => (((.error halt, state), context), front) :=
  rfl

@[simp]
theorem erase_bind (first : Recorded α) (next : α → Recorded β) :
    (first >>= next).erase = first.erase >>= fun value => (next value).erase := by
  funext state context
  rw [Walk.bind_apply]
  simp only [erase, bind_apply]
  generalize first state context = run
  rcases run with ⟨⟨⟨_ | _, _⟩, _⟩, _⟩ <;> rfl

theorem erase_applyFirst (transforms : List Transform) :
    (applyFirst id transforms).erase = Walk.applyFirst id transforms := by
  induction transforms with
  | nil => rfl
  | cons transform transforms hypothesis =>
      unfold applyFirst Walk.applyFirst
      rw [erase_bind, erase_apply]
      refine bind_congr fun result => ?_
      rcases result with fault | outcome
      · rfl
      · cases outcome with
        | unchanged => exact hypothesis
        | _ => exact erase_bind _ _

theorem erase_runPhase (phase : Phase) : (runPhase registry id phase).erase = Walk.runPhase registry id phase := by
  unfold runPhase Walk.runPhase
  simp only [erase_bind, erase_quiet, erase_applyFirst, erase_pure]

theorem erase_enterOnce : (enterOnce registry id).erase = Walk.enterOnce registry id := by
  unfold enterOnce Walk.enterOnce
  simp only [erase_bind, erase_quiet, erase_runPhase]

theorem erase_enter (left : Nat) : (enter registry bound left id).erase = Walk.enter registry bound left id := by
  induction left generalizing id with
  | zero =>
      unfold enter Walk.enter
      rw [erase_bind, erase_enterOnce]
      refine bind_congr fun ended => ?_
      rcases ended with ⟨_ | _ | _ | _, _⟩ <;> rfl
  | succ left hypothesis =>
      unfold enter Walk.enter
      rw [erase_bind, erase_enterOnce]
      refine bind_congr fun ended => ?_
      rcases ended with ⟨_ | _ | _ | _, _⟩
      · rfl
      · simp only [erase_bind, erase_quiet, hypothesis]
      · simp only [erase_bind, erase_quiet, hypothesis]
      · rfl

theorem erase_visits (fuel : Nat) :
    (∀ id passes, (visit registry bound fuel id passes).erase = Walk.visit registry bound fuel id passes) ∧
      (∀ id index, (visitChildren registry bound fuel id index).erase = Walk.visitChildren registry bound fuel id index) ∧
      ∀ id left, (leave registry bound fuel id left).erase = Walk.leave registry bound fuel id left := by
  induction fuel with
  | zero =>
      refine ⟨fun _ _ => ?_, fun _ _ => ?_, fun _ _ => ?_⟩
      · unfold visit Walk.visit
        rfl
      · unfold visitChildren Walk.visitChildren
        rfl
      · unfold leave Walk.leave
        rfl
  | succ fuel hypothesis =>
      obtain ⟨visits, children, leaves⟩ := hypothesis
      refine ⟨fun id passes => ?_, fun id index => ?_, fun id left => ?_⟩
      · unfold visit Walk.visit
        simp only [erase_bind, erase_quiet, erase_enter]
        refine bind_congr fun _ => bind_congr fun _ => bind_congr fun entered => ?_
        rcases entered with _ | ⟨id, left⟩
        · rfl
        · simp only [erase_bind, erase_quiet, children, leaves]
      · unfold visitChildren Walk.visitChildren
        rw [erase_bind, erase_quiet]
        refine bind_congr fun tree => ?_
        cases (tree.children id)[index]? with
        | none => rfl
        | some child =>
            dsimp only
            split
            · rw [erase_bind, visits, children]
            · exact children id (index + 1)
      · unfold leave Walk.leave
        rw [erase_bind, erase_runPhase]
        refine bind_congr fun ended => ?_
        rcases ended with ⟨_ | _ | _ | _, _⟩ <;> cases left <;>
          simp only [erase_bind, erase_quiet, erase_pure, children, leaves, visits]

/-! ## What a part of a walk comes to -/

/-- What a part of a walk came to satisfies the condition for values, or the one for halts. Both are told the record. -/
def Meets (good : α → Progress → Context → List Application → Prop) (bad : Halt → Context → List Application → Prop) :
    ((Except Halt α × Progress) × Context) × List Application → Prop
  | (((.ok value, state), context), record) => good value state context record
  | (((.error halt, _), context), record) => bad halt context record

variable {good : α → Progress → Context → List Application → Prop} {bad : Halt → Context → List Application → Prop}
variable {state : Progress} {context : Context}

theorem Meets.weaken {other : α → Progress → Context → List Application → Prop}
    {worse : Halt → Context → List Application → Prop}
    {run : ((Except Halt α × Progress) × Context) × List Application} (meets : Meets good bad run)
    (ending : ∀ value state context record, good value state context record → other value state context record)
    (halting : ∀ halt context record, bad halt context record → worse halt context record) :
    Meets other worse run := by
  rcases run with ⟨⟨⟨halt | value, state⟩, context⟩, record⟩
  · exact halting halt context record meets
  · exact ending value state context record meets

/-- The parts of a record stand behind each other. -/
theorem meets_bind {first : Recorded α} {next : α → Recorded β}
    {after : β → Progress → Context → List Application → Prop}
    (begins : Meets good bad (first state context))
    (goesOn : ∀ value state context front, good value state context front →
      Meets (fun value state context back => after value state context (front ++ back))
        (fun halt context back => bad halt context (front ++ back)) (next value state context)) :
    Meets after bad ((first >>= next) state context) := by
  rw [bind_apply]
  generalize first state context = run at begins
  rcases run with ⟨⟨⟨halt | value, between⟩, middle⟩, front⟩
  · exact begins
  · have rest := goesOn value between middle front begins
    dsimp only
    generalize next value between middle = run at rest
    rcases run with ⟨⟨⟨halt | value, state⟩, context⟩, back⟩
    · exact rest
    · exact rest

/-- A part of a walk that applies no transform and comes to no halt adds nothing to the record. -/
theorem meets_quiet_bind {work : Walk α} {next : α → Recorded β} {middle : α → Progress → Context → Prop}
    {after : β → Progress → Context → List Application → Prop}
    (holds : Walk.Holds (fun _ => False) work state context middle)
    (goesOn : ∀ value state context, middle value state context → Meets after bad (next value state context)) :
    Meets after bad ((quiet work >>= next) state context) := by
  rw [bind_apply]
  unfold Walk.Holds at holds
  unfold quiet
  generalize work state context = result at holds
  rcases result with ⟨⟨halt | value, between⟩, middle⟩
  · exact holds.elim
  · exact goesOn value between middle holds

/-- A part of a walk that applies no transform and comes to no halt. -/
theorem meets_quiet {work : Walk α} {after : α → Progress → Context → Prop}
    (holds : Walk.Holds (fun _ => False) work state context after) :
    Meets (fun value state context record => record = [] ∧ after value state context) bad
      (quiet work state context) := by
  unfold Walk.Holds at holds
  unfold quiet
  generalize work state context = result at holds
  rcases result with ⟨⟨halt | value, between⟩, middle⟩
  · exact holds.elim
  · exact ⟨rfl, holds⟩

theorem quiet_bind (first : Walk α) (next : α → Walk β) :
    quiet (first >>= next) = quiet first >>= fun value => quiet (next value) := by
  funext state context
  change ((first >>= next) state context, []) = _
  rw [Walk.bind_apply, bind_apply]
  simp only [quiet]
  generalize first state context = run
  rcases run with ⟨⟨_ | _, _⟩, _⟩ <;> rfl

/-- With enough fuel, and then with any more, the part of the walk comes to one and the same thing. -/
def Settles (work : Nat → Recorded α) (state : Progress) (context : Context)
    (good : α → Progress → Context → List Application → Prop) (bad : Halt → Context → List Application → Prop) : Prop :=
  ∃ enough run, (∀ fuel, enough ≤ fuel → work fuel state context = run) ∧ Meets good bad run

theorem Meets.settles {work : Recorded α} (meets : Meets good bad (work state context)) :
    Settles (fun _ => work) state context good bad :=
  ⟨0, work state context, fun _ _ => rfl, meets⟩

theorem Settles.weaken {work : Nat → Recorded α} {other : α → Progress → Context → List Application → Prop}
    {worse : Halt → Context → List Application → Prop} (settles : Settles work state context good bad)
    (ending : ∀ value state context record, good value state context record → other value state context record)
    (halting : ∀ halt context record, bad halt context record → worse halt context record) :
    Settles work state context other worse := by
  obtain ⟨enough, run, same, meets⟩ := settles
  exact ⟨enough, run, same, meets.weaken ending halting⟩

theorem Settles.bind {first : Nat → Recorded α} {next : Nat → α → Recorded β}
    {after : β → Progress → Context → List Application → Prop} (begins : Settles first state context good bad)
    (goesOn : ∀ value state context front, good value state context front →
      Settles (fun fuel => next fuel value) state context
        (fun value state context back => after value state context (front ++ back))
        (fun halt context back => bad halt context (front ++ back))) :
    Settles (fun fuel => first fuel >>= next fuel) state context after bad := by
  obtain ⟨enough, ⟨⟨⟨halt | value, between⟩, middle⟩, front⟩, same, meets⟩ := begins
  · refine ⟨enough, (((.error halt, between), middle), front), fun fuel large => ?_, meets⟩
    change (first fuel >>= next fuel) state context = _
    rw [bind_apply, same fuel large]
  · obtain ⟨more, ⟨ended, back⟩, sameRest, meetsRest⟩ := goesOn value between middle front meets
    refine ⟨max enough more, (ended, front ++ back), fun fuel large => ?_, ?_⟩
    · have rest : next fuel value between middle = (ended, back) := sameRest fuel (by omega)
      change (first fuel >>= next fuel) state context = _
      rw [bind_apply, same fuel (by omega)]
      dsimp only
      rw [rest]
    · rcases ended with ⟨⟨_ | _, _⟩, _⟩
      · exact meetsRest
      · exact meetsRest

theorem settles_quiet_bind {work : Walk α} {next : Nat → α → Recorded β} {middle : α → Progress → Context → Prop}
    {after : β → Progress → Context → List Application → Prop}
    (holds : Walk.Holds (fun _ => False) work state context middle)
    (goesOn : ∀ value state context, middle value state context →
      Settles (fun fuel => next fuel value) state context after bad) :
    Settles (fun fuel => quiet work >>= next fuel) state context after bad := by
  unfold Walk.Holds at holds
  rcases ran : work state context with ⟨⟨halt | value, between⟩, middle⟩
  · rw [ran] at holds
    exact holds.elim
  · rw [ran] at holds
    obtain ⟨enough, run, same, meets⟩ := goesOn value between middle holds
    refine ⟨enough, run, fun fuel large => ?_, meets⟩
    rw [← same fuel large]
    change (quiet work >>= next fuel) state context = _
    rw [bind_apply]
    unfold quiet
    rw [ran]
    rfl

/-- One step of a recursion costs one unit of fuel. -/
theorem Settles.step {work : Nat → Recorded α} (settles : Settles (fun fuel => work (fuel + 1)) state context good bad) :
    Settles work state context good bad := by
  obtain ⟨enough, run, same, meets⟩ := settles
  refine ⟨enough + 1, run, fun fuel large => ?_, meets⟩
  obtain ⟨fuel, rfl⟩ := Nat.exists_eq_succ_of_ne_zero (Nat.ne_of_gt (Nat.zero_lt_of_lt large))
  exact same fuel (by omega)

end Recorded

/-- What a walk came to, and the transforms that it applied in order. -/
def Context.walkRecorded (context : Context) (registry : Registry) (fuel : Nat) (root : NodeId) :
    (Except Halt Progress × Context) × List Application :=
  let (((result, progress), context), record) := Recorded.start registry fuel root {} context
  ((result.map fun _ => progress, context), record)

/-- Keeping the record changes nothing. -/
theorem Context.walkRecorded_fst (context : Context) (registry : Registry) (fuel : Nat) (root : NodeId) :
    (context.walkRecorded registry fuel root).1 = context.walk registry fuel root := by
  have same : (Recorded.start registry fuel root).erase = Walk.start registry fuel root := by
    unfold Recorded.start Recorded.reset Walk.start
    simp only [Recorded.erase_bind, Recorded.erase_quiet, bind_assoc, pure_bind, (Recorded.erase_visits fuel).1]
  unfold Context.walkRecorded Context.walk
  rw [← same]
  rfl

end HtmlTemplate
