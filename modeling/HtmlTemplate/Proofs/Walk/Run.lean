import HtmlTemplate.Walk

/-!
# Running parts of a walk

What a part of a walk leaves behind is told by a condition on its value and on the state after it, and by
a condition on how it may halt. Both are closed under doing one part after the other.
-/

namespace HtmlTemplate

namespace Walk

variable {α β : Type} {state : Progress} {context : Context}

/-- What a part of a walk came to satisfies the conditions. -/
def Meets (halts : Halt → Prop) (good : α → Progress → Context → Prop) :
    (Except Halt α × Progress) × Context → Prop
  | ((.ok value, state), context) => good value state context
  | ((.error halt, _), _) => halts halt

/-- From the state and the compilation, the part of the walk comes to something that satisfies the conditions. -/
def Holds (halts : Halt → Prop) (work : Walk α) (state : Progress) (context : Context)
    (good : α → Progress → Context → Prop) : Prop :=
  Meets halts good (work state context)

/-- The walk halts for a fault and not for lack of fuel. -/
def IsFault (halt : Halt) : Prop :=
  ∃ fault, halt = .fault fault

/-- The fault that something has ended in, if it has. -/
def faultOf : Except Halt α → Option Fault
  | .error (.fault fault) => some fault
  | _ => none

theorem eq_fault_of_faultOf {result : Except Halt α} (fails : (faultOf result).isSome = true) :
    ∃ fault, result = .error (.fault fault) := by
  obtain ⟨fault, found⟩ := Option.isSome_iff_exists.1 fails
  rcases result with (other | _) | value
  · exact ⟨other, rfl⟩
  · cases found
  · cases found

variable {halts : Halt → Prop} {good : α → Progress → Context → Prop}

theorem bind_apply (first : Walk α) (next : α → Walk β) (state : Progress) (context : Context) :
    (first >>= next) state context =
      match first state context with
      | ((.ok value, state), context) => next value state context
      | ((.error halt, state), context) => ((.error halt, state), context) := by
  simp only [bind, ExceptT.bind, ExceptT.mk, StateT.bind]
  generalize first state context = result
  rcases result with ⟨⟨_ | _, _⟩, _⟩ <;> rfl

theorem Meets.weaken {weaker : Halt → Prop} {other : α → Progress → Context → Prop}
    {result : (Except Halt α × Progress) × Context} (meets : Meets halts good result)
    (halting : ∀ halt, halts halt → weaker halt)
    (ending : ∀ value state context, good value state context → other value state context) :
    Meets weaker other result := by
  rcases result with ⟨⟨halt | value, state⟩, context⟩
  · exact halting halt meets
  · exact ending value state context meets

theorem Holds.weaken {work : Walk α} {other : α → Progress → Context → Prop}
    (holds : Holds halts work state context good)
    (ending : ∀ value state context, good value state context → other value state context) :
    Holds halts work state context other :=
  Meets.weaken holds (fun _ halted => halted) ending

theorem Holds.halting {weaker : Halt → Prop} {work : Walk α} (holds : Holds halts work state context good)
    (halting : ∀ halt, halts halt → weaker halt) : Holds weaker work state context good :=
  Meets.weaken holds halting fun _ _ _ meets => meets

theorem holds_pure {value : α} (holds : good value state context) :
    Holds halts (pure value) state context good :=
  holds

theorem Holds.bind {first : Walk α} {next : α → Walk β} {after : β → Progress → Context → Prop}
    (begins : Holds halts first state context good)
    (goesOn : ∀ value state context, good value state context →
      Holds halts (next value) state context after) :
    Holds halts (first >>= next) state context after := by
  unfold Holds at begins ⊢
  rw [bind_apply]
  generalize first state context = result at begins ⊢
  rcases result with ⟨⟨halt | value, between⟩, middle⟩
  · exact begins
  · exact goesOn value between middle begins

/-! ## Parts of the state -/

theorem holds_context : Holds halts Walk.context state context fun value after left =>
    value = context ∧ after = state ∧ left = context :=
  ⟨rfl, rfl, rfl⟩

theorem holds_tree : Holds halts Walk.tree state context fun value after left =>
    value = context.tree ∧ after = state ∧ left = context :=
  ⟨rfl, rfl, rfl⟩

theorem holds_progress : Holds halts Walk.progress state context fun value after left =>
    value = state ∧ after = state ∧ left = context :=
  ⟨rfl, rfl, rfl⟩

theorem holds_modifyProgress {change : Progress → Progress} :
    Holds halts (modifyProgress change) state context fun _ after left =>
      after = change state ∧ left = context :=
  ⟨rfl, rfl⟩

theorem holds_setState {id : NodeId} {mark : WalkState} :
    Holds halts (setState id mark) state context fun _ after left =>
      after = state ∧ left = { context with tree := context.tree.setState id mark } :=
  ⟨rfl, rfl⟩

theorem holds_attempt {work : Edit α} : Holds halts (attempt work) state context fun value after left =>
    after = state ∧ work.run context = (value, left) :=
  ⟨rfl, rfl⟩

theorem holds_failNode {id : NodeId} {fault : Fault} (halted : halts (.fault fault)) :
    Holds halts (failNode id fault) state context good :=
  halted

theorem holds_unsettled {bound : Nat} {id : NodeId} (halted : ∀ fault, halts (.fault fault)) :
    Holds halts (unsettled bound id) state context good :=
  halted _

/-! ## Rules for the parts of a visit -/

section Rules

variable {registry : Registry} {id : NodeId} {transform : Transform} {transforms : List Transform} {bound fuel : Nat}

theorem holds_applyFirst_fault {final : Context} {fault : Fault} {good : Outcome → Progress → Context → Prop}
    (ran : (transform.apply id).run context = (.error fault, final)) (halted : halts (.fault fault)) :
    Holds halts (applyFirst id (transform :: transforms)) state context good := by
  refine holds_attempt.bind ?_
  rintro result state final' ⟨rfl, same⟩
  obtain ⟨rfl, rfl⟩ := Prod.mk.inj (same.symm.trans ran)
  exact holds_failNode halted

/-- A transform that reports no change leaves the node to the next ones. -/
theorem holds_applyFirst_idle {final : Context} {good : Outcome → Progress → Context → Prop}
    (ran : (transform.apply id).run context = (.ok .unchanged, final))
    (goesOn : Holds halts (applyFirst id transforms) state final good) :
    Holds halts (applyFirst id (transform :: transforms)) state context good := by
  refine holds_attempt.bind ?_
  rintro result state final' ⟨rfl, same⟩
  obtain ⟨rfl, rfl⟩ := Prod.mk.inj (same.symm.trans ran)
  exact goesOn

/-- A transform that reports anything else is counted, and its report is confirmed. -/
theorem holds_applyFirst_acts {outcome : Outcome} {final : Context} {good : Outcome → Progress → Context → Prop}
    (ran : (transform.apply id).run context = (.ok outcome, final)) (reports : outcome ≠ .unchanged)
    (confirms : Holds halts (confirm transform id outcome) { state with applied := state.applied + 1 } final good) :
    Holds halts (applyFirst id (transform :: transforms)) state context good := by
  refine holds_attempt.bind ?_
  rintro result state final' ⟨rfl, same⟩
  obtain ⟨rfl, rfl⟩ := Prod.mk.inj (same.symm.trans ran)
  cases outcome with
  | unchanged => exact absurd rfl reports
  | _ => exact confirms

theorem Holds.applyFirst {good : Outcome → Progress → Context → Prop}
    (fails : ∀ fault final, (transform.apply id).run context = (.error fault, final) → halts (.fault fault))
    (rests : ∀ final, (transform.apply id).run context = (.ok .unchanged, final) →
      Holds halts (Walk.applyFirst id transforms) state final good)
    (acts : ∀ outcome final, (transform.apply id).run context = (.ok outcome, final) → outcome ≠ .unchanged →
      Holds halts (confirm transform id outcome) { state with applied := state.applied + 1 } final good) :
    Holds halts (Walk.applyFirst id (transform :: transforms)) state context good := by
  rcases ran : (transform.apply id).run context with ⟨fault | outcome, final⟩
  · exact holds_applyFirst_fault ran (fails fault final ran)
  · by_cases quiet : outcome = .unchanged
    · subst quiet
      exact holds_applyFirst_idle ran (rests final ran)
    · exact holds_applyFirst_acts ran quiet (acts outcome final ran quiet)

/-- A node that is in the tree may take the place of another one. -/
theorem holds_confirm_replaced {next : NodeId} {good : Outcome → Progress → Context → Prop} (different : next ≠ id)
    (attached : context.tree.parent next ≠ none) (holds : good (.replaced next) state context) :
    Holds halts (confirm transform id (.replaced next)) state context good := by
  refine holds_tree.bind ?_
  rintro _ state context ⟨rfl, rfl, rfl⟩
  rw [if_neg (by simpa using different), if_neg (by simpa using attached)]
  exact holds

theorem Holds.runPhase {phase : Phase} {good : Outcome × Nat → Progress → Context → Prop}
    (applied : Holds halts (Walk.applyFirst id (transformsFor registry context.tree id phase)) state context
      fun outcome => good (outcome, context.tree.size)) :
    Holds halts (Walk.runPhase registry id phase) state context good := by
  refine holds_tree.bind ?_
  rintro _ state context ⟨rfl, rfl, rfl⟩
  exact applied.bind fun _ _ _ ended => holds_pure ended

/-- A node is marked and checked, and then its transforms run. -/
theorem Holds.enterOnce {between : Progress → Context → Prop} {good : Outcome × Nat → Progress → Context → Prop}
    (checked : Holds halts (checkTag registry id) state { context with tree := context.tree.setState id .entering }
      fun _ => between)
    (applied : ∀ after entered, between after entered →
      Holds halts (Walk.runPhase registry id .enter) after entered good) :
    Holds halts (Walk.enterOnce registry id) state context good := by
  refine holds_setState.bind ?_
  rintro _ state _ ⟨rfl, rfl⟩
  exact checked.bind fun _ => applied

/-- With no change left, a round is the last one: the walk stops if it changes the node. -/
theorem Holds.enter_zero {good : Option (NodeId × Nat) → Progress → Context → Prop}
    (once : Holds halts (Walk.enterOnce registry id) state context fun result after final =>
      match result.1 with
      | .unchanged => good (some (id, 0)) after final
      | .removed => good none after final
      | _ => halts (.fault (final.tree.faultAt id (.unsettled (final.tree.node id).describe bound)))) :
    Holds halts (Walk.enter registry bound 0 id) state context good := by
  refine once.bind ?_
  rintro ⟨outcome, size⟩ after final ended
  cases outcome with
  | unchanged => exact holds_pure ended
  | removed => exact holds_pure ended
  | _ => exact holds_failNode ended

/-- A change uses up one of those that are left. Its count goes to the nodes that were made meanwhile, and to the node
itself if another one has taken its place. -/
theorem Holds.enter_succ {left : Nat} {good : Option (NodeId × Nat) → Progress → Context → Prop}
    (once : Holds halts (Walk.enterOnce registry id) state context fun result after final =>
      match result.1 with
      | .unchanged => good (some (id, left + 1)) after final
      | .removed => good none after final
      | .changed => Holds halts (Walk.enter registry bound left id)
          (after.inherit result.2 final.tree.size (bound - left)) final good
      | .replaced next => Holds halts (Walk.enter registry bound left next)
          ((after.inherit result.2 final.tree.size (bound - left)).carry id (bound - left))
          { final with tree := final.tree.setState id .unvisited } good) :
    Holds halts (Walk.enter registry bound (left + 1) id) state context good := by
  refine once.bind ?_
  rintro ⟨outcome, size⟩ after final ended
  cases outcome with
  | unchanged => exact holds_pure ended
  | removed => exact holds_pure ended
  | changed => exact ended
  | replaced next => exact ended

/-- If a round changes nothing, then the node has been entered. -/
theorem Holds.enter_unchanged {left : Nat} {good : Option (NodeId × Nat) → Progress → Context → Prop}
    (once : Holds halts (Walk.enterOnce registry id) state context fun result after final =>
      result.1 = .unchanged ∧ good (some (id, left)) after final) :
    Holds halts (Walk.enter registry bound left id) state context good := by
  cases left with
  | zero =>
      refine .enter_zero (once.weaken ?_)
      rintro ⟨_, size⟩ after final ⟨rfl, ended⟩
      exact ended
  | succ left =>
      refine .enter_succ (once.weaken ?_)
      rintro ⟨_, size⟩ after final ⟨rfl, ended⟩
      exact ended

/-- A visit is counted, the node is entered, and then the one that is in its place is gone through. -/
theorem Holds.visit {passes : Nat} {entered : Option (NodeId × Nat) → Progress → Context → Prop}
    {good : Unit → Progress → Context → Prop}
    (enters : Holds halts (Walk.enter registry bound (bound - max passes (state.startOf id)) id)
      { state with visited := state.visited + 1 } context entered)
    (removed : ∀ after final, entered none after final → good () after final)
    (stands : ∀ next left after final, entered (some (next, left)) after final →
      Holds halts (do
        setState next .entered
        Walk.visitChildren registry bound fuel next 0
        setState next .exiting
        leave registry bound fuel next left) after final good) :
    Holds halts (Walk.visit registry bound (fuel + 1) id passes) state context good := by
  unfold Walk.visit
  refine holds_progress.bind ?_
  rintro _ state context ⟨rfl, rfl, rfl⟩
  refine holds_modifyProgress.bind ?_
  rintro _ _ context ⟨rfl, rfl⟩
  refine enters.bind ?_
  rintro (_ | ⟨next, left⟩) after final ended
  · exact removed after final ended
  · exact stands next left after final ended

/-- There are no more children, or the next one is visited, or it is passed over since it has been visited. -/
theorem Holds.visitChildren {parent : NodeId} {index : Nat} {good : Unit → Progress → Context → Prop}
    (ended : (context.tree.children parent)[index]? = none → good () state context)
    (visits : ∀ child, (context.tree.children parent)[index]? = some child →
      (context.tree.node child).state = .unvisited → Holds halts (do
        Walk.visit registry bound fuel child 0
        Walk.visitChildren registry bound fuel parent index) state context good)
    (passes : ∀ child, (context.tree.children parent)[index]? = some child →
      (context.tree.node child).state ≠ .unvisited →
        Holds halts (Walk.visitChildren registry bound fuel parent (index + 1)) state context good) :
    Holds halts (Walk.visitChildren registry bound (fuel + 1) parent index) state context good := by
  unfold Walk.visitChildren
  refine holds_tree.bind ?_
  rintro _ state context ⟨rfl, rfl, rfl⟩
  split
  · next found => exact ended found
  · next child found =>
      split
      · next unvisited => exact visits child found (by simpa using unvisited)
      · next visited => exact passes child found (by simpa using visited)

end Rules

/-! ## Fuel -/

/-- With enough fuel, and then with any more, the part of the walk comes to one and the same thing. -/
def Settles (halts : Halt → Prop) (work : Nat → Walk α) (state : Progress) (context : Context)
    (good : α → Progress → Context → Prop) : Prop :=
  ∃ enough result, (∀ fuel, enough ≤ fuel → work fuel state context = result) ∧ Meets halts good result

theorem Holds.settles {work : Walk α} (holds : Holds halts work state context good) :
    Settles halts (fun _ => work) state context good :=
  ⟨0, work state context, fun _ _ => rfl, holds⟩

theorem Settles.weaken {work : Nat → Walk α} {other : α → Progress → Context → Prop}
    (settles : Settles halts work state context good)
    (ending : ∀ value state context, good value state context → other value state context) :
    Settles halts work state context other := by
  obtain ⟨enough, result, same, meets⟩ := settles
  exact ⟨enough, result, same, meets.weaken (fun _ halted => halted) ending⟩

theorem Settles.bind {first : Nat → Walk α} {next : Nat → α → Walk β}
    {after : β → Progress → Context → Prop} (begins : Settles halts first state context good)
    (goesOn : ∀ value state context, good value state context →
      Settles halts (fun fuel => next fuel value) state context after) :
    Settles halts (fun fuel => first fuel >>= next fuel) state context after := by
  obtain ⟨enough, ⟨⟨halt | value, between⟩, middle⟩, same, meets⟩ := begins
  · refine ⟨enough, ((.error halt, between), middle), fun fuel large => ?_, meets⟩
    change (first fuel >>= next fuel) state context = _
    rw [bind_apply, same fuel large]
  · obtain ⟨more, result, sameRest, meetsRest⟩ := goesOn value between middle meets
    refine ⟨max enough more, result, fun fuel large => ?_, meetsRest⟩
    change (first fuel >>= next fuel) state context = _
    rw [bind_apply, same fuel (by omega)]
    exact sameRest fuel (by omega)

/-- One step of a recursion costs one unit of fuel. -/
theorem Settles.step {work : Nat → Walk α} (settles : Settles halts (fun fuel => work (fuel + 1)) state context good) :
    Settles halts work state context good := by
  obtain ⟨enough, result, same, meets⟩ := settles
  refine ⟨enough + 1, result, fun fuel large => ?_, meets⟩
  obtain ⟨fuel, rfl⟩ := Nat.exists_eq_succ_of_ne_zero (Nat.ne_of_gt (Nat.zero_lt_of_lt large))
  exact same fuel (by omega)

/-! ## Two walks -/

/-- Two parts of walks come to one and the same thing, which satisfies the condition if it is a value. -/
def Agree (first second : Walk α) (state : Progress) (context : Context)
    (good : α → Progress → Context → Prop) : Prop :=
  first state context = second state context ∧ Holds (fun _ => True) second state context good

theorem Agree.of_eq {first second : Walk α} (same : first state context = second state context)
    (holds : Holds IsFault second state context good) : Agree first second state context good :=
  ⟨same, holds.halting fun _ _ => trivial⟩

theorem Holds.agree {work : Walk α} (holds : Holds IsFault work state context good) :
    Agree work work state context good :=
  .of_eq rfl holds

theorem Agree.weaken {first second : Walk α} {other : α → Progress → Context → Prop}
    (agree : Agree first second state context good)
    (ending : ∀ value state context, good value state context → other value state context) :
    Agree first second state context other :=
  ⟨agree.1, agree.2.weaken ending⟩

theorem Agree.bind {first second : Walk α} {next rest : α → Walk β}
    {after : β → Progress → Context → Prop} (begins : Agree first second state context good)
    (goesOn : ∀ value state context, good value state context →
      Agree (next value) (rest value) state context after) :
    Agree (first >>= next) (second >>= rest) state context after := by
  obtain ⟨same, holds⟩ := begins
  refine ⟨?_, holds.bind fun value state context meets => (goesOn value state context meets).2⟩
  rw [bind_apply, bind_apply, same]
  unfold Holds at holds
  generalize second state context = result at holds ⊢
  rcases result with ⟨⟨halt | value, between⟩, middle⟩
  · rfl
  · exact (goesOn value between middle holds).1

end Walk

/-!
## Walks that ask

To tell which nodes a walk comes to, it is made to ask about them: about each node that it enters or leaves, about the
node of each transform right before the transform is applied, and about each node that is accepted in the place of
another one. What asking does is left open. If it does nothing, the walk is the walk as it is.
-/

namespace Walk

variable (ask : NodeId → Walk Unit)

/-- Asks about the node that was accepted in the place of another one, if one was. -/
def askNext : Outcome → Walk Unit
  | .replaced next => ask next
  | _ => return ()

/-- Applies transforms to a node in order, up to the first one that changes it. -/
def applyFirstAsking (id : NodeId) : List Transform → Walk Outcome
  | [] => return .unchanged
  | transform :: transforms => do
      ask id
      match ← attempt (transform.apply id) with
      | .error fault => failNode id fault
      | .ok .unchanged => applyFirstAsking id transforms
      | .ok outcome => do
          modifyProgress fun progress => { progress with applied := progress.applied + 1 }
          let outcome ← confirm transform id outcome
          askNext ask outcome
          return outcome

/-- What the transforms of a node for a phase do, and how many nodes there were before. -/
def runPhaseAsking (registry : Registry) (id : NodeId) (phase : Phase) : Walk (Outcome × Nat) := do
  let tree ← tree
  let outcome ← applyFirstAsking ask id (transformsFor registry tree id phase)
  return (outcome, tree.size)

/-- Checks a node and runs its transforms for entering once. -/
def enterOnceAsking (registry : Registry) (id : NodeId) : Walk (Outcome × Nat) := do
  ask id
  setState id .entering
  checkTag registry id
  runPhaseAsking ask registry id .enter

/-- Enters a node. -/
def enterAsking (registry : Registry) (bound : Nat) : Nat → NodeId → Walk (Option (NodeId × Nat))
  | 0, id => do
      match (← enterOnceAsking ask registry id).1 with
      | .unchanged => return some (id, 0)
      | .removed => return none
      | _ => unsettled bound id
  | left + 1, id => do
      let (outcome, before) ← enterOnceAsking ask registry id
      match outcome with
      | .unchanged => return some (id, left + 1)
      | .removed => return none
      | .changed => do
          handOn before (bound - left)
          enterAsking registry bound left id
      | .replaced next => do
          handOn before (bound - left)
          setAside id (bound - left)
          enterAsking registry bound left next

mutual

/-- Visits a node that has changed some times already. -/
def visitAsking (registry : Registry) (bound : Nat) : Nat → NodeId → Nat → Walk Unit
  | 0, _, _ => throw .exhausted
  | fuel + 1, id, passes => do
      let passes := max passes ((← progress).startOf id)
      modifyProgress fun progress => { progress with visited := progress.visited + 1 }
      match ← enterAsking ask registry bound (bound - passes) id with
      | none => return ()
      | some (id, left) => do
          setState id .entered
          visitChildrenAsking registry bound fuel id 0
          setState id .exiting
          leaveAsking registry bound fuel id left

/-- Visits the unvisited children of a node from a place on. -/
def visitChildrenAsking (registry : Registry) (bound : Nat) : Nat → NodeId → Nat → Walk Unit
  | 0, _, _ => throw .exhausted
  | fuel + 1, parent, index => do
      let tree ← tree
      match (tree.children parent)[index]? with
      | none => return ()
      | some child =>
          if (tree.node child).state == .unvisited then do
            visitAsking registry bound fuel child 0
            visitChildrenAsking registry bound fuel parent index
          else visitChildrenAsking registry bound fuel parent (index + 1)

/-- Leaves a node to which a number of changes is left. -/
def leaveAsking (registry : Registry) (bound : Nat) : Nat → NodeId → Nat → Walk Unit
  | 0, _, _ => throw .exhausted
  | fuel + 1, id, left => do
      ask id
      let (outcome, before) ← runPhaseAsking ask registry id .leave
      match outcome, left with
      | .unchanged, _ => setState id .settled
      | .removed, _ => return ()
      | _, 0 => unsettled bound id
      | .changed, left + 1 => do
          handOn before (bound - left)
          visitChildrenAsking registry bound fuel id 0
          leaveAsking registry bound fuel id left
      | .replaced next, left + 1 => do
          handOn before (bound - left)
          setAside id (bound - left)
          visitAsking registry bound fuel next (bound - left)

end

/-- Walks over all that is below a node. -/
def startAsking (registry : Registry) (fuel : Nat) (root : NodeId) : Walk Unit := do
  let context ← context
  for id in context.tree.preorder root do
    setState id .unvisited
  visitAsking ask registry context.options.maxTransformPasses fuel root 0

/-! ### Asking nothing -/

variable {registry : Registry} {bound : Nat} {id : NodeId}

/-- Asks nothing. -/
def nothing (_ : NodeId) : Walk Unit :=
  return ()

theorem askNext_nothing (outcome : Outcome) : askNext nothing outcome = pure () := by
  cases outcome <;> rfl

theorem applyFirstAsking_nothing (transforms : List Transform) :
    applyFirstAsking nothing id transforms = applyFirst id transforms := by
  induction transforms with
  | nil => rfl
  | cons transform transforms hypothesis =>
      unfold applyFirstAsking applyFirst
      refine (pure_bind () _).trans (bind_congr fun result => ?_)
      rcases result with fault | outcome
      · rfl
      · cases outcome with
        | unchanged => exact hypothesis
        | _ => simp only [askNext_nothing, pure_bind, bind_pure]

theorem runPhaseAsking_nothing (phase : Phase) :
    runPhaseAsking nothing registry id phase = runPhase registry id phase := by
  unfold runPhaseAsking runPhase
  simp only [applyFirstAsking_nothing]

theorem enterOnceAsking_nothing : enterOnceAsking nothing registry id = enterOnce registry id := by
  unfold enterOnceAsking enterOnce
  rw [runPhaseAsking_nothing]
  exact pure_bind () _

theorem enterAsking_nothing (left : Nat) : enterAsking nothing registry bound left id = enter registry bound left id := by
  induction left generalizing id with
  | zero =>
      unfold enterAsking enter
      exact congrArg (· >>= _) enterOnceAsking_nothing
  | succ left hypothesis =>
      unfold enterAsking enter
      simp only [hypothesis]
      exact congrArg (· >>= _) enterOnceAsking_nothing

theorem visitAsking_nothing (fuel : Nat) :
    (∀ id passes, visitAsking nothing registry bound fuel id passes = visit registry bound fuel id passes) ∧
      (∀ id index, visitChildrenAsking nothing registry bound fuel id index = visitChildren registry bound fuel id index) ∧
      ∀ id left, leaveAsking nothing registry bound fuel id left = leave registry bound fuel id left := by
  induction fuel with
  | zero =>
      refine ⟨fun _ _ => ?_, fun _ _ => ?_, fun _ _ => ?_⟩
      · unfold visitAsking visit
        rfl
      · unfold visitChildrenAsking visitChildren
        rfl
      · unfold leaveAsking leave
        rfl
  | succ fuel hypothesis =>
      obtain ⟨visits, children, leaves⟩ := hypothesis
      refine ⟨fun id passes => ?_, fun id index => ?_, fun id left => ?_⟩
      · unfold visitAsking visit
        simp only [children, leaves]
        exact bind_congr fun _ => bind_congr fun _ => congrArg (· >>= _) (enterAsking_nothing _)
      · unfold visitChildrenAsking visitChildren
        refine bind_congr fun tree => ?_
        cases (tree.children id)[index]? with
        | none => rfl
        | some child =>
            dsimp only
            rw [visits, children, children]
      · unfold leaveAsking leave
        simp only [visits, children, leaves]
        exact (pure_bind () _).trans (congrArg (· >>= _) (runPhaseAsking_nothing .leave))

end Walk

/-- What a walk that asks came to. -/
def Context.walkAsking (context : Context) (ask : NodeId → Walk Unit) (registry : Registry) (fuel : Nat) (root : NodeId) :
    Except Halt Progress × Context :=
  let ((result, progress), context) := Walk.startAsking ask registry fuel root {} context
  (result.map fun _ => progress, context)

/-- A walk that asks nothing is a walk. -/
theorem Context.walkAsking_nothing (context : Context) (registry : Registry) (fuel : Nat) (root : NodeId) :
    context.walkAsking Walk.nothing registry fuel root = context.walk registry fuel root := by
  have same : Walk.startAsking Walk.nothing registry fuel root = Walk.start registry fuel root := by
    unfold Walk.startAsking Walk.start
    simp only [(Walk.visitAsking_nothing fuel).1]
  exact congrArg (fun start : Walk Unit => ((start {} context).1.1.map fun _ => (start {} context).1.2, (start {} context).2)) same

end HtmlTemplate
