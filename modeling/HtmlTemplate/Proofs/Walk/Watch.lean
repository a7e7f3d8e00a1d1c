import HtmlTemplate.Proofs.Walk.Phase

/-!
# Watched walks

A watched transform looks at the children of its node first. If one of them has not settled when the
transform should run after them, it raises an alarm instead, which may do anything. A walk is sure to meet
settled children only if no alarm can be told from the walk that is not watched.
-/

namespace HtmlTemplate

/-! ## Other transforms for the same tags -/

/-- The map with its values changed. -/
def SortedMap.map {α β : Type} (change : α → β) (map : SortedMap α) : SortedMap β where
  entries := map.entries.map fun entry => (entry.1, change entry.2)
  sorted := List.pairwise_map.2 map.sorted

theorem SortedMap.find?_map {α β : Type} (change : α → β) (map : SortedMap α) (key : String) :
    (map.map change).find? key = (map.find? key).map change := by
  unfold SortedMap.find? SortedMap.map
  dsimp only
  induction map.entries with
  | nil => rfl
  | cons entry entries hypothesis =>
      rw [List.map_cons, List.lookup_cons, List.lookup_cons, hypothesis]
      cases key == entry.1 <;> rfl

/-- The entry with other transforms. -/
def TagEntry.mapTransforms (change : Transform → Transform) (entry : TagEntry) : TagEntry :=
  { entry with declared := entry.declared.map change }

/-- The taglib with other transforms. -/
def Registration.mapTransforms (change : Transform → Transform) (registration : Registration) : Registration :=
  { registration with taglib :=
    { registration.taglib with
      entries := registration.taglib.entries.map (TagEntry.mapTransforms change)
      globals := registration.taglib.globals.map change } }

namespace Registry

/-- The registry with other transforms for the same tags. -/
def mapTransforms (change : Transform → Transform) (registry : Registry) : Registry :=
  { registrations := registry.registrations.map (Registration.mapTransforms change) }

variable {registry : Registry} {change : Transform → Transform}

theorem applicable_mapTransforms (file : String) :
    (registry.mapTransforms change).applicable file =
      (registry.applicable file).map (Registration.mapTransforms change) := by
  unfold applicable mapTransforms
  rw [List.map_mergeSort (f := Registration.mapTransforms change)
    (r := fun left right : Registration => decide (right.depth ≤ left.depth))
    (s := fun left right : Registration => decide (right.depth ≤ left.depth)) fun _ _ _ _ => rfl,
    List.map_reverse, List.filter_map]
  rfl

theorem lookup?_mapTransforms (tag file : String) :
    (registry.mapTransforms change).lookup? tag file =
      (registry.lookup? tag file).map (TagEntry.mapTransforms change) := by
  unfold lookup?
  rw [applicable_mapTransforms]
  induction registry.applicable file with
  | nil => rfl
  | cons registration registrations hypothesis =>
      rw [List.map_cons, List.findSome?_cons, List.findSome?_cons, hypothesis]
      have found : (registration.mapTransforms change).taglib.entries.find? tag =
          (registration.taglib.entries.find? tag).map (TagEntry.mapTransforms change) :=
        SortedMap.find?_map _ _ _
      rw [found]
      cases registration.taglib.entries.find? tag <;> rfl

theorem globals_mapTransforms (file : String) :
    (registry.mapTransforms change).globals file = (registry.globals file).map change := by
  unfold globals
  rw [applicable_mapTransforms, ← List.map_reverse, List.flatMap_map, List.map_flatMap]
  rfl

end Registry

/-! ## Watched transforms -/

/-- Have all children of the node settled? -/
def Tree.childrenSettled (tree : Tree) (id : NodeId) : Bool :=
  (tree.children id).all fun child => (tree.node child).state == .settled

theorem Tree.childrenSettled_eq_true_iff {tree : Tree} {id : NodeId} :
    tree.childrenSettled id = true ↔ ∀ child ∈ tree.children id, (tree.node child).state = .settled := by
  simp [childrenSettled]

/-- The transform, with an alarm if it should run after the children of its node and not all have settled. -/
def Transform.watch (alarm : NodeId → Edit Outcome) (transform : Transform) : Transform :=
  match transform.phase with
  | .enter => transform
  | .leave => { transform with
      apply := fun id => do
        if (← Edit.tree).childrenSettled id then transform.apply id else alarm id }

/-- The registry with all its transforms watched. -/
def Registry.watch (alarm : NodeId → Edit Outcome) (registry : Registry) : Registry :=
  registry.mapTransforms (Transform.watch alarm)

namespace Walk

variable {registry : Registry} {alarm : NodeId → Edit Outcome} {id : NodeId}

theorem watch_phase (transform : Transform) : (transform.watch alarm).phase = transform.phase := by
  unfold Transform.watch
  cases phase : transform.phase with
  | enter => exact phase
  | leave => rfl

theorem confirm_watch (transform : Transform) (outcome : Outcome) :
    confirm (transform.watch alarm) id outcome = confirm transform id outcome := by
  have name : (transform.watch alarm).name = transform.name := by
    unfold Transform.watch
    cases transform.phase <;> rfl
  cases outcome with
  | unchanged => rfl
  | changed => rfl
  | replaced next => simp only [confirm, name]
  | removed => simp only [confirm, name]

theorem watch_of_enter {transform : Transform} (enters : transform.phase = .enter) :
    transform.watch alarm = transform := by
  unfold Transform.watch
  rw [enters]

/-- A watched transform does what it does without the watch when all children have settled. -/
theorem watch_apply_of_settled {transform : Transform} {context : Context}
    (settled : context.tree.childrenSettled id = true) :
    ((transform.watch alarm).apply id).run context = (transform.apply id).run context := by
  unfold Transform.watch
  cases transform.phase with
  | enter => rfl
  | leave =>
      dsimp only
      rw [Edit.run_bind, Edit.run_tree]
      dsimp only
      rw [if_pos settled]

theorem transformsFor_watch (tree : Tree) (phase : Phase) :
    transformsFor (registry.watch alarm) tree id phase =
      (transformsFor registry tree id phase).map (Transform.watch alarm) := by
  have phases : (fun transform : Transform => transform.phase == phase) ∘ Transform.watch alarm =
      fun transform => transform.phase == phase := by
    funext transform
    rw [Function.comp_apply, watch_phase]
  have entries : ∀ entry : TagEntry, (entry.mapTransforms (Transform.watch alarm)).transforms =
      entry.transforms.map (Transform.watch alarm) := by
    intro entry
    rw [TagEntry.transforms, TagEntry.transforms, List.map_append]
    congr 1
    change (entry.rules.renderer.map Transform.bindRenderer).toList = _
    cases entry.rules.renderer with
    | none => rfl
    | some renderer => rfl
  unfold transformsFor
  cases (tree.node id).tag? with
  | none => rfl
  | some tag =>
      dsimp only
      unfold Registry.watch
      rw [Registry.lookup?_mapTransforms, Registry.globals_mapTransforms, ← phases, ← List.filter_map,
        List.map_append, phases]
      cases registry.lookup? tag tree.file with
      | none => rfl
      | some entry =>
          simp only [Option.map_some, Option.getD_some]
          rw [entries]

theorem transformsFor_watch_enter (tree : Tree) :
    transformsFor (registry.watch alarm) tree id .enter = transformsFor registry tree id .enter := by
  rw [transformsFor_watch]
  refine (List.map_congr_left fun transform member => ?_).trans (List.map_id _)
  exact watch_of_enter (mem_transformsFor member).2.1

/-! ## Watched parts of a walk -/

theorem checkTag_watch : checkTag (registry.watch alarm) id = checkTag registry id := by
  have known : ∀ tag, checkKnown (registry.watch alarm) id tag = checkKnown registry id tag := by
    intro tag
    unfold checkKnown
    congr 1
    funext context
    rw [Registry.watch, Registry.lookup?_mapTransforms]
    cases registry.lookup? tag context.tree.file <;> rfl
  have nesting : ∀ tag, checkNesting (registry.watch alarm) id tag = checkNesting registry id tag := by
    intro tag
    unfold checkNesting
    congr 1
    funext tree
    dsimp only
    cases (tree.parent id).bind fun parent => (tree.node parent).tag? with
    | none => rfl
    | some parentTag =>
        dsimp only
        rw [Registry.watch, Registry.lookup?_mapTransforms]
        cases registry.lookup? parentTag tree.file <;> rfl
  unfold checkTag
  simp only [known, nesting]

/-- Entering a node is the same under a watch, since only transforms that run later are watched. -/
theorem enter_watch (bound left : Nat) :
    enter (registry.watch alarm) bound left id = enter registry bound left id := by
  have once : ∀ id, enterOnce (registry.watch alarm) id = enterOnce registry id := by
    intro id
    unfold enterOnce runPhase
    simp only [checkTag_watch, transformsFor_watch_enter]
  induction left generalizing id with
  | zero =>
      unfold enter
      rw [once]
  | succ left hypothesis =>
      unfold enter
      simp only [once, hypothesis]

/-- Leaving transforms are the same under a watch when all children have settled. -/
theorem applyFirst_watch {transforms : List Transform} {state : Progress} {context : Context}
    (settled : context.tree.childrenSettled id = true) (quiet : Quiet transforms id context.tree) :
    applyFirst id (transforms.map (Transform.watch alarm)) state context =
      applyFirst id transforms state context := by
  induction transforms generalizing context with
  | nil => rfl
  | cons transform transforms hypothesis =>
      have attempted : attempt ((transform.watch alarm).apply id) state context =
          attempt (transform.apply id) state context := by
        unfold attempt
        rw [watch_apply_of_settled settled]
      rw [List.map_cons, applyFirst, applyFirst, bind_apply, bind_apply, attempted]
      simp only [confirm_watch]
      unfold attempt
      cases ran : (transform.apply id).run context with
      | mk result middle =>
          rcases result with fault | outcome
          · rfl
          · cases outcome with
            | unchanged =>
                have same : middle.tree = context.tree :=
                  quiet transform List.mem_cons_self context middle rfl ran
                refine hypothesis (same ▸ settled) ?_
                rw [same]
                exact fun other member => quiet other (List.mem_cons_of_mem _ member)
            | _ => rfl

theorem runPhase_watch {state : Progress} {context : Context}
    (settled : context.tree.childrenSettled id = true)
    (quiet : Quiet (transformsFor registry context.tree id .leave) id context.tree) :
    runPhase (registry.watch alarm) id .leave state context = runPhase registry id .leave state context := by
  unfold runPhase
  rw [bind_apply, bind_apply]
  change ((applyFirst id (transformsFor (registry.watch alarm) context.tree id .leave) >>= fun outcome =>
      pure (outcome, context.tree.size) : Walk (Outcome × Nat)) state context) =
    ((applyFirst id (transformsFor registry context.tree id .leave) >>= fun outcome =>
      pure (outcome, context.tree.size) : Walk (Outcome × Nat)) state context)
  rw [bind_apply, bind_apply, transformsFor_watch, applyFirst_watch settled quiet]

end Walk

end HtmlTemplate
