import HtmlTemplate.Proofs.Walk.Phase
import HtmlTemplate.Proofs.Walk.Recorded

/-!
# Walks that fail

A node is marked as failed where a walk fails, and nowhere else. The walk ends there: nothing resets the mark, marks
another node, or applies one more transform.
-/

namespace HtmlTemplate

/-- Whatever the transform comes to, it changes trees by edits only. -/
def Transform.OnlyEdits (transform : Transform) : Prop :=
  ∀ {id : NodeId} {before after : Context} {result : Except Fault Outcome}, before.tree.WellFormed →
    before.tree.Has id → (transform.apply id).run before = (result, after) → before.tree.Reaches after.tree

theorem Transform.onlyEdits_bindRenderer (renderer : String) : (Transform.bindRenderer renderer).OnlyEdits := by
  intro id before after result _ _ applied
  rcases result with fault | outcome
  · -- A kind that is refused leaves the tree alone.
    unfold Transform.bindRenderer at applied
    dsimp only at applied
    rw [Edit.run_bind, Edit.run_tree] at applied
    dsimp only at applied
    split at applied
    · rw [Edit.run_bind, Edit.run_changeTree] at applied
      split at applied
      · next made =>
          split at made
          · cases made
            cases applied
          · cases made
      · next made =>
          split at made
          · cases made
          · cases made
            cases applied
            exact .refl
    · cases applied
  · rcases Transform.bindRenderer_does applied with ⟨-, rfl⟩ | ⟨-, tag, tree, -, made, rfl⟩
    · exact .refl
    · exact .single (.setKind made)

namespace Tree

/-- The tree is well formed, and none of its nodes is marked as failed. -/
structure Clean (tree : Tree) : Prop where
  wellFormed : tree.WellFormed
  unfailed : ∀ id, (tree.node id).state ≠ .failed

theorem unfailed_of_forall_mem {tree : Tree} (unfailed : ∀ node ∈ tree.nodes, node.state ≠ .failed) (id : NodeId) :
    (tree.node id).state ≠ .failed := by
  by_cases present : tree.Has id
  · rw [node, List.getD_eq_getElem _ _ present]
    exact unfailed _ (List.getElem_mem present)
  · rw [state_of_not_has present]
    decide

namespace Clean

variable {tree after : Tree} {id : NodeId}

theorem setState (clean : tree.Clean) (id : NodeId) {mark : WalkState} (good : mark ≠ .failed) :
    (tree.setState id mark).Clean where
  wellFormed := (tree.sameShape_setState id mark).wellFormed clean.wellFormed
  unfailed other := by
    by_cases same : other = id
    · subst same
      by_cases present : tree.Has other
      · rwa [state_setState_self present]
      · rw [state_of_not_has (by rwa [(tree.sameShape_setState other mark).has_iff])]
        decide
    · rw [state_setState_of_ne same]
      exact clean.unfailed other

theorem setPreserve (clean : tree.Clean) (id : NodeId) (preserve : Bool) : (tree.setPreserve id preserve).Clean where
  wellFormed := (tree.sameShape_setPreserve id preserve).wellFormed clean.wellFormed
  unfailed other := by
    rw [state_setPreserve]
    exact clean.unfailed other

/-- Where no node was marked as failed, the mark of one node is the only one. -/
theorem fails (clean : tree.Clean) (present : tree.Has id) :
    ∃! failed, ((tree.setState id .failed).node failed).state = .failed := by
  refine ⟨id, state_setState_self present, fun other (marked : (Tree.node _ other).state = _) => ?_⟩
  by_contra apart
  rw [state_setState_of_ne apart] at marked
  exact clean.unfailed other marked

theorem reaches (clean : tree.Clean) (reaches : tree.Reaches after) : after.Clean where
  wellFormed := reaches.wellFormed clean.wellFormed
  unfailed other := by
    have grows := reaches.grows clean.wellFormed
    by_cases present : tree.Has other
    · rw [grows.state_of_has other present]
      exact clean.unfailed other
    · rw [grows.unvisited other present]
      decide

end Clean
end Tree

namespace Recorded

variable {α β : Type} {registry : Registry} {bound : Nat} {state : Progress} {context : Context} {id : NodeId}

/-! ## Parts of a walk that fail at one node -/

/-- The trees before and after a part of a walk that did not fail. -/
structure Goes (before after : Tree) : Prop where
  clean : after.Clean
  size_le : before.size ≤ after.size

theorem Goes.refl {tree : Tree} (clean : tree.Clean) : Goes tree tree :=
  ⟨clean, Nat.le_refl _⟩

theorem Goes.trans {before middle after : Tree} (first : Goes before middle) (second : Goes middle after) :
    Goes before after :=
  ⟨second.clean, Nat.le_trans first.size_le second.size_le⟩

theorem Goes.has {before after : Tree} (goes : Goes before after) (present : before.Has id) : after.Has id :=
  Nat.lt_of_lt_of_le present goes.size_le

/-- Transforms were applied while no node was marked as failed. -/
def Timely (record : List Application) : Prop :=
  ∀ application ∈ record, application.before.tree.Clean

theorem Timely.append {front back : List Application} (first : Timely front) (second : Timely back) :
    Timely (front ++ back) := by
  intro application member
  rcases List.mem_append.1 member with earlier | later
  · exact first application earlier
  · exact second application later

/--
If the part of the walk begins where no node is marked as failed, it marks one if it fails, and none otherwise.
No transform is applied where a node is marked.
-/
def Fails (work : Recorded α) (state : Progress) (context : Context) (good : α → Tree → Prop) : Prop :=
  Meets (fun value _ left record => Timely record ∧ Goes context.tree left.tree ∧ good value left.tree)
    (fun halt left record => Timely record ∧
      ∀ fault, halt = .fault fault → ∃! failed, (left.tree.node failed).state = .failed)
    (work state context)

variable {good : α → Tree → Prop}

theorem Fails.bind {first : Recorded α} {next : α → Recorded β} {after : β → Tree → Prop}
    (begins : Fails first state context good)
    (goesOn : ∀ value state middle, Goes context.tree middle.tree → good value middle.tree →
      Fails (next value) state middle after) :
    Fails (first >>= next) state context after := by
  refine meets_bind begins fun value state middle front ⟨timely, goes, holds⟩ => ?_
  refine Meets.weaken (goesOn value state middle goes holds) ?_ ?_
  · exact fun _ _ _ _ ⟨later, further, ends⟩ => ⟨timely.append later, goes.trans further, ends⟩
  · exact fun _ _ _ ⟨later, failed⟩ => ⟨timely.append later, failed⟩

variable (clean : context.tree.Clean)

include clean

theorem fails_pure {value : α} (holds : good value context.tree) : Fails (pure value) state context good :=
  ⟨fun _ none => absurd none List.not_mem_nil, .refl clean, holds⟩

theorem fails_tree : Fails (quiet Walk.tree) state context fun value tree => value = tree :=
  ⟨fun _ none => absurd none List.not_mem_nil, .refl clean, rfl⟩

theorem fails_context : Fails (quiet Walk.context) state context fun value tree => value.tree = tree :=
  ⟨fun _ none => absurd none List.not_mem_nil, .refl clean, rfl⟩

theorem fails_progress : Fails (quiet Walk.progress) state context fun _ _ => True :=
  ⟨fun _ none => absurd none List.not_mem_nil, .refl clean, trivial⟩

theorem fails_modifyProgress (change : Progress → Progress) :
    Fails (quiet (Walk.modifyProgress change)) state context fun _ _ => True :=
  ⟨fun _ none => absurd none List.not_mem_nil, .refl clean, trivial⟩

theorem fails_record (diagnostic : Diagnostic) : Fails (quiet (Walk.record diagnostic)) state context fun _ _ => True :=
  ⟨fun _ none => absurd none List.not_mem_nil, .refl clean, trivial⟩

theorem fails_setState {mark : WalkState} (good : mark ≠ .failed) :
    Fails (quiet (Walk.setState id mark)) state context fun _ _ => True :=
  ⟨fun _ none => absurd none List.not_mem_nil,
    ⟨clean.setState id good, Nat.le_of_eq (context.tree.sameShape_setState id mark).size.symm⟩, trivial⟩

theorem fails_failNode (present : context.tree.Has id) (fault : Fault) :
    Fails (quiet (Walk.failNode id fault)) state context good :=
  ⟨fun _ none => absurd none List.not_mem_nil, fun _ _ => clean.fails present⟩

omit clean in
theorem fails_exhausted : Fails (quiet (throw .exhausted)) state context good :=
  ⟨fun _ none => absurd none List.not_mem_nil, fun _ wrong => by cases wrong⟩

/-! ## Checks -/

theorem fails_warnOnce (diagnostic : Diagnostic) :
    Fails (quiet (Walk.warnOnce id diagnostic)) state context fun _ _ => True := by
  unfold Walk.warnOnce
  rw [quiet_bind]
  refine (fails_progress clean).bind fun progress state middle goes _ => ?_
  split
  · exact fails_pure goes.clean trivial
  · rw [quiet_bind]
    refine (fails_modifyProgress goes.clean _).bind fun _ state last goes _ => ?_
    exact fails_record goes.clean diagnostic

theorem fails_checkKnown (present : context.tree.Has id) (tag : String) :
    Fails (quiet (Walk.checkKnown registry id tag)) state context fun _ _ => True := by
  unfold Walk.checkKnown
  rw [quiet_bind]
  refine (fails_context clean).bind fun seen state middle goes _ => ?_
  split
  · next entry found =>
      have preserved : ∀ state (last : Context), last.tree.Clean →
          Fails (quiet (if entry.rules.preserve then
            Walk.modifyContext fun context => { context with tree := context.tree.setPreserve id true }
            else pure ())) state last fun _ _ => True := by
        intro state last clean
        split
        · exact ⟨fun _ none => absurd none List.not_mem_nil,
            ⟨clean.setPreserve id true, Nat.le_of_eq (last.tree.sameShape_setPreserve id true).size.symm⟩, trivial⟩
        · exact fails_pure clean trivial
      cases entry.rules.deprecated with
      | none => exact preserved state middle goes.clean
      | some reason =>
          dsimp only
          rw [quiet_bind]
          refine (fails_warnOnce goes.clean _).bind fun _ state last goes _ => ?_
          exact preserved state last goes.clean
  · split
    · split
      · exact fails_warnOnce goes.clean _
      · exact fails_failNode goes.clean (goes.has present) _
    · exact fails_pure goes.clean trivial

theorem fails_checkNesting (present : context.tree.Has id) (tag : String) :
    Fails (quiet (Walk.checkNesting registry id tag)) state context fun _ _ => True := by
  unfold Walk.checkNesting
  rw [quiet_bind]
  refine (fails_tree clean).bind fun tree state middle goes _ => ?_
  dsimp only
  split
  · exact fails_pure goes.clean trivial
  · split
    · exact fails_pure goes.clean trivial
    · split
      · exact fails_pure goes.clean trivial
      · exact fails_failNode goes.clean (goes.has present) _

theorem fails_checkTag (present : context.tree.Has id) :
    Fails (quiet (Walk.checkTag registry id)) state context fun _ _ => True := by
  unfold Walk.checkTag
  rw [quiet_bind]
  refine (fails_tree clean).bind fun tree state middle goes _ => ?_
  split
  · exact fails_pure goes.clean trivial
  · next tag _ =>
      rw [quiet_bind]
      refine (fails_checkKnown goes.clean (goes.has present) tag).bind
        fun _ state last further _ => ?_
      exact fails_checkNesting further.clean (further.has (goes.has present)) tag

/-! ## Transforms -/

theorem fails_apply {transform : Transform} (edits : transform.OnlyEdits) (present : context.tree.Has id) :
    Fails (apply id transform) state context fun _ _ => True := by
  refine ⟨fun application member => ?_, ?_, trivial⟩
  · obtain rfl := List.mem_singleton.1 member
    exact clean
  · have reaches := edits clean.wellFormed present rfl
    exact ⟨clean.reaches reaches, (reaches.grows clean.wellFormed).size_le⟩

/-- The node that takes the place of another one is in the tree. -/
def Placed (outcome : Outcome) (tree : Tree) : Prop :=
  ∀ next, outcome = .replaced next → tree.Has next

theorem fails_confirm (present : context.tree.Has id) (transform : Transform) (outcome : Outcome) :
    Fails (quiet (Walk.confirm transform id outcome)) state context Placed := by
  cases outcome with
  | unchanged => exact fails_pure clean fun _ wrong => by cases wrong
  | changed => exact fails_pure clean fun _ wrong => by cases wrong
  | replaced next =>
      unfold Walk.confirm
      rw [quiet_bind]
      refine (fails_tree clean).bind fun tree state middle goes same => ?_
      split
      · exact fails_pure goes.clean fun _ wrong => by cases wrong
      · split
        · exact fails_failNode goes.clean (goes.has present) _
        · next attached =>
            refine fails_pure goes.clean fun other equal => ?_
            obtain rfl := Outcome.replaced.inj equal
            cases linked : tree.parent next with
            | none => exact absurd (by rw [linked]; rfl) attached
            | some parent => exact Tree.has_of_parent (same ▸ linked)
  | removed =>
      unfold Walk.confirm
      rw [quiet_bind]
      refine (fails_tree clean).bind fun tree state middle goes _ => ?_
      split
      · exact fails_failNode goes.clean (goes.has present) _
      · rw [quiet_bind]
        refine (fails_setState goes.clean (by decide)).bind fun _ state last further _ => ?_
        exact fails_pure further.clean fun _ wrong => by cases wrong

theorem fails_applyFirst {transforms : List Transform} (edits : ∀ transform ∈ transforms, transform.OnlyEdits)
    (present : context.tree.Has id) : Fails (applyFirst id transforms) state context Placed := by
  induction transforms generalizing state context with
  | nil => exact fails_pure clean fun _ wrong => by cases wrong
  | cons transform transforms hypothesis =>
      unfold applyFirst
      refine (fails_apply clean (edits transform List.mem_cons_self) present).bind
        fun result state middle goes _ => ?_
      have confirmed : ∀ outcome, Fails (do
          quiet (Walk.modifyProgress fun progress => { progress with applied := progress.applied + 1 })
          quiet (Walk.confirm transform id outcome)) state middle Placed := by
        intro outcome
        refine (fails_modifyProgress goes.clean _).bind fun _ state last further _ => ?_
        exact fails_confirm further.clean (further.has (goes.has present)) transform outcome
      rcases result with fault | outcome
      · exact fails_failNode goes.clean (goes.has present) fault
      · cases outcome with
        | unchanged =>
            exact hypothesis goes.clean
              (fun other member => edits other (List.mem_cons_of_mem _ member)) (goes.has present)
        | _ => exact confirmed _

variable (edits : ∀ transform, registry.Declares transform → transform.OnlyEdits)

include edits

theorem fails_runPhase (present : context.tree.Has id) (phase : Phase) :
    Fails (runPhase registry id phase) state context fun ended tree => Placed ended.1 tree := by
  unfold runPhase
  refine (fails_tree clean).bind fun tree state middle goes _ => ?_
  have each : ∀ transform ∈ Walk.transformsFor registry tree id phase, transform.OnlyEdits := by
    intro transform member
    obtain ⟨-, -, declared | ⟨renderer, rfl⟩⟩ := Walk.mem_transformsFor member
    · exact edits transform declared
    · exact Transform.onlyEdits_bindRenderer renderer
  refine (fails_applyFirst goes.clean each (goes.has present)).bind
    fun outcome state last further placed => ?_
  exact fails_pure further.clean placed

theorem fails_enterOnce (present : context.tree.Has id) :
    Fails (enterOnce registry id) state context fun ended tree => Placed ended.1 tree := by
  unfold enterOnce
  refine (fails_setState clean (by decide)).bind fun _ state middle goes _ => ?_
  refine (fails_checkTag goes.clean (goes.has present)).bind fun _ state last further _ => ?_
  exact fails_runPhase further.clean edits (further.has (goes.has present)) .enter

omit edits in
theorem fails_unsettled (present : context.tree.Has id) :
    Fails (quiet (Walk.unsettled bound id)) state context good := by
  unfold Walk.unsettled
  rw [quiet_bind]
  refine (fails_tree clean).bind fun tree state middle goes _ => ?_
  exact fails_failNode goes.clean (goes.has present) _

omit edits in
theorem fails_handOn (before passes : Nat) : Fails (quiet (Walk.handOn before passes)) state context fun _ _ => True := by
  unfold Walk.handOn
  rw [quiet_bind]
  refine (fails_tree clean).bind fun tree state middle goes _ => ?_
  exact fails_modifyProgress goes.clean _

omit edits in
theorem fails_setAside (passes : Nat) : Fails (quiet (Walk.setAside id passes)) state context fun _ _ => True := by
  unfold Walk.setAside
  rw [quiet_bind]
  refine (fails_setState clean (by decide)).bind fun _ state middle goes _ => ?_
  exact fails_modifyProgress goes.clean _

theorem fails_enter (present : context.tree.Has id) (left : Nat) :
    Fails (enter registry bound left id) state context fun entered tree => ∀ node ∈ entered, tree.Has node.1 := by
  have same : ∀ {last : Context}, last.tree.Has id → ∀ left : Nat, ∀ node ∈ some (id, left), last.tree.Has node.1 := by
    rintro last there left node member
    obtain rfl := Option.some.inj member
    exact there
  induction left generalizing id state context with
  | zero =>
      unfold enter
      refine (fails_enterOnce clean edits present).bind fun ended state middle goes placed => ?_
      rcases ended with ⟨_ | _ | _ | _, _⟩
      · exact fails_pure goes.clean (same (goes.has present) 0)
      · exact fails_unsettled goes.clean (goes.has present)
      · exact fails_unsettled goes.clean (goes.has present)
      · exact fails_pure goes.clean fun _ wrong => by cases wrong
  | succ left hypothesis =>
      unfold enter
      refine (fails_enterOnce clean edits present).bind fun ended state middle goes placed => ?_
      rcases ended with ⟨_ | _ | next | _, before⟩
      · exact fails_pure goes.clean (same (goes.has present) (left + 1))
      · refine (fails_handOn goes.clean _ _).bind fun _ state last further _ => ?_
        have there := further.has (goes.has present)
        exact hypothesis further.clean there fun there => same there
      · refine (fails_handOn goes.clean _ _).bind fun _ state last further _ => ?_
        refine (fails_setAside further.clean _).bind fun _ state final beyond _ => ?_
        have there := beyond.has (further.has (placed next rfl))
        refine hypothesis beyond.clean there ?_
        rintro last there left node member
        obtain rfl := Option.some.inj member
        exact there
      · exact fails_pure goes.clean fun _ wrong => by cases wrong

/-! ## Visits -/

omit clean in
theorem fails_visits (fuel : Nat) :
    (∀ {state context id} passes, context.tree.Clean → context.tree.Has id →
      Fails (visit registry bound fuel id passes) state context fun _ _ => True) ∧
    (∀ {state context} id index, context.tree.Clean →
      Fails (visitChildren registry bound fuel id index) state context fun _ _ => True) ∧
    ∀ {state context id} left, context.tree.Clean → context.tree.Has id →
      Fails (leave registry bound fuel id left) state context fun _ _ => True := by
  induction fuel with
  | zero =>
      refine ⟨fun passes _ _ => ?_, fun id index _ => ?_, fun left _ _ => ?_⟩
      · unfold visit
        exact fails_exhausted
      · unfold visitChildren
        exact fails_exhausted
      · unfold leave
        exact fails_exhausted
  | succ fuel hypothesis =>
      obtain ⟨visits, children, leaves⟩ := hypothesis
      refine ⟨fun passes clean present => ?_, fun id index clean => ?_, fun left clean present => ?_⟩
      · unfold visit
        refine (fails_progress clean).bind fun _ _ _ goes _ => ?_
        refine (fails_modifyProgress goes.clean _).bind fun _ _ _ further _ => ?_
        refine (fails_enter further.clean edits (further.has (goes.has present)) _).bind fun entered _ _ goes there => ?_
        rcases entered with _ | ⟨id, left⟩
        · exact fails_pure goes.clean trivial
        · have there := there _ rfl
          refine (fails_setState goes.clean (by decide)).bind fun _ _ _ further _ => ?_
          refine (children id 0 further.clean).bind fun _ _ _ below _ => ?_
          refine (fails_setState below.clean (by decide)).bind fun _ _ _ beyond _ => ?_
          exact leaves left beyond.clean (beyond.has (below.has (further.has there)))
      · unfold visitChildren
        refine (fails_tree clean).bind fun tree _ _ goes same => ?_
        subst same
        split
        · exact fails_pure goes.clean trivial
        · next child found =>
            have there := goes.clean.wellFormed.has_child (List.mem_of_getElem? found)
            split
            · refine (visits 0 goes.clean there).bind fun _ _ _ further _ => ?_
              exact children id index further.clean
            · exact children id (index + 1) goes.clean
      · unfold leave
        refine (fails_runPhase clean edits present .leave).bind fun ended _ _ goes placed => ?_
        have there := goes.has present
        rcases ended with ⟨_ | _ | next | _, before⟩
        · exact fails_setState goes.clean (by decide)
        · cases left with
          | zero => exact fails_unsettled goes.clean there
          | succ left =>
              refine (fails_handOn goes.clean _ _).bind fun _ _ _ further _ => ?_
              refine (children _ 0 further.clean).bind fun _ _ _ below _ => ?_
              exact leaves left below.clean (below.has (further.has there))
        · cases left with
          | zero => exact fails_unsettled goes.clean there
          | succ left =>
              refine (fails_handOn goes.clean _ _).bind fun _ _ _ further _ => ?_
              refine (fails_setAside further.clean _).bind fun _ _ _ beyond _ => ?_
              exact visits _ beyond.clean (beyond.has (further.has (placed next rfl)))
        · exact fails_pure goes.clean trivial

omit edits in
theorem fails_marks (ids : List NodeId) :
    Fails (quiet (forIn ids PUnit.unit fun id _ => do
      Walk.setState id .unvisited
      pure (ForInStep.yield PUnit.unit))) state context fun _ _ => True := by
  induction ids generalizing state context with
  | nil => exact fails_pure clean trivial
  | cons id ids hypothesis =>
      have marked : Fails (quiet (Walk.setState id .unvisited) >>= fun _ => quiet (pure (ForInStep.yield PUnit.unit)))
          state context fun step _ => step = ForInStep.yield PUnit.unit :=
        (fails_setState clean (by decide)).bind fun _ _ _ goes _ => fails_pure goes.clean rfl
      rw [List.forIn_cons, quiet_bind, quiet_bind]
      refine marked.bind ?_
      rintro _ _ _ goes rfl
      exact hypothesis goes.clean

theorem fails_start (present : context.tree.Has id) (fuel : Nat) :
    Fails (start registry fuel id) state context fun _ _ => True := by
  have marked : Fails (quiet (reset id)) state context fun _ _ => True := by
    unfold reset
    rw [quiet_bind]
    refine (fails_context clean).bind fun seen _ _ goes _ => ?_
    rw [quiet_bind]
    refine (fails_marks goes.clean _).bind fun _ _ _ further _ => ?_
    exact fails_pure further.clean trivial
  unfold start
  exact marked.bind fun seen _ _ goes _ => (fails_visits edits fuel).1 0 goes.clean (goes.has present)

end Recorded

/--
A walk over a tree in which no node is marked as failed leaves no such node behind if it comes to its end. If it ends in
a fault, exactly one node is marked: the one that the walk failed at. Every transform that it applied found no node
marked, so none was applied after that.
-/
theorem Context.walk_marks_failure {registry : Registry} {context : Context} {root : NodeId}
    (edits : ∀ transform, registry.Declares transform → transform.OnlyEdits)
    (wellFormed : context.tree.WellFormed) (present : context.tree.Has root)
    (unfailed : ∀ id, (context.tree.node id).state ≠ .failed) (fuel : Nat) :
    let run := context.walkRecorded registry fuel root
    run.1 = context.walk registry fuel root ∧
      (∀ progress, run.1.1 = .ok progress → ∀ id, (run.1.2.tree.node id).state ≠ .failed) ∧
      (∀ fault, run.1.1 = .error (.fault fault) → ∃! id, (run.1.2.tree.node id).state = .failed) ∧
      ∀ application ∈ run.2, ∀ id, (application.before.tree.node id).state ≠ .failed := by
  have same := context.walkRecorded_fst registry fuel root
  have fails : Recorded.Fails (Recorded.start registry fuel root) {} context fun _ _ => True :=
    Recorded.fails_start ⟨wellFormed, unfailed⟩ edits present fuel
  unfold Recorded.Fails at fails
  unfold walkRecorded at same ⊢
  generalize Recorded.start registry fuel root {} context = run at fails same
  rcases run with ⟨⟨⟨halt | _, state⟩, after⟩, record⟩
  · obtain ⟨timely, marked⟩ := fails
    exact ⟨same, fun _ wrong => (by cases wrong), fun fault failed => marked fault (Except.error.inj failed),
      fun application member => (timely application member).unfailed⟩
  · obtain ⟨timely, goes, -⟩ := fails
    exact ⟨same, fun _ _ => goes.clean.unfailed, fun _ wrong => (by cases wrong),
      fun application member => (timely application member).unfailed⟩

/-- A transform that takes the children from its node, and fails then. -/
def Transform.spoil : Transform :=
  { name := "spoil"
    apply := fun id => do
      let _ ← Edit.takeTree fun tree => tree.takeChildren id
      Edit.failAt id (.childless "spoil") }

theorem Transform.onlyEdits_spoil : Transform.spoil.OnlyEdits := by
  intro id before after result _ _ applied
  have spoiled : after.tree = (before.tree.takeChildren id).2 := by
    unfold Transform.spoil at applied
    dsimp only at applied
    rw [Edit.run_bind, Edit.takeTree, Edit.run_makeTree] at applied
    exact congrArg (fun ended => ended.2.tree) applied.symm
  rw [spoiled]
  exact .single (.takeChildren id)

/-- What a transform did before it failed stays done, and its node is the only one that is marked. -/
theorem Context.walk_marks_failure_spoil :
    let tree : Tree := { file := "page", nodes := [
      { kind := .document, children := [⟨1⟩, ⟨3⟩] },
      { kind := .element "spoil", parent := some ⟨0⟩, children := [⟨2⟩] },
      { kind := .element "em", parent := some ⟨1⟩ }, { kind := .element "spoil", parent := some ⟨0⟩ }] }
    let registry := Registry.ofTag "spoil" [Transform.spoil]
    let context := Context.start tree default registry
    ∃ run, context.walkRecorded registry 9 ⟨0⟩ = run ∧ (Walk.faultOf run.1.1).isSome = true ∧
      run.2.map Application.id = [⟨1⟩] ∧ ∃! id, (run.1.2.tree.node id).state = .failed := by
  intro tree registry context
  have wellFormed : context.tree.WellFormed := Tree.Ordered.wellFormed (by decide)
  have unfailed : ∀ id, (context.tree.node id).state ≠ .failed := Tree.unfailed_of_forall_mem (by decide)
  have edits : ∀ transform, registry.Declares transform → transform.OnlyEdits := by
    intro transform declared
    obtain rfl := List.mem_singleton.1 (Registry.declares_ofTag.1 declared)
    exact Transform.onlyEdits_spoil
  have present : context.tree.Has ⟨0⟩ := by decide
  have fails : (Walk.faultOf (context.walkRecorded registry 9 ⟨0⟩).1.1).isSome = true := by decide +kernel
  have applied : (context.walkRecorded registry 9 ⟨0⟩).2.map Application.id = [⟨1⟩] := by decide +kernel
  have marked := (Context.walk_marks_failure edits wellFormed present unfailed 9).2.2.1
  generalize context.walkRecorded registry 9 ⟨0⟩ = run at fails applied marked
  obtain ⟨fault, failed⟩ := Walk.eq_fault_of_faultOf fails
  exact ⟨run, rfl, fails, applied, marked fault failed⟩

end HtmlTemplate
