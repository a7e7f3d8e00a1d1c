import HtmlTemplate.Proofs.EditScript
import HtmlTemplate.Proofs.Tree.Effect

/-!
# Refused steps

A step looks up the nodes that it means and has its edit checked before it changes anything. So a step that is
refused leaves the workbench as it was: no node is made, no link is set, and no name is stored. The one step that is
made of several edits, which moves children one by one, may end in between.
-/

namespace HtmlTemplate
namespace Work

variable {α β : Type}

/-! ## Work that is done as a whole or not at all -/

/-- The work leaves the workbench as it is, refused or not. -/
def Reads (work : Work α) : Prop :=
  ∀ bench, (work.run.run bench).2 = bench

/-- The work is never refused. -/
def Succeeds (work : Work α) : Prop :=
  ∀ bench, ∃ value, (work.run.run bench).1 = .ok value

/-- If the work is refused, then the workbench is as it was before. -/
def Atomic (work : Work α) : Prop :=
  ∀ bench refusal, (work.run.run bench).1 = .error refusal → (work.run.run bench).2 = bench

/-- What is done first, and then, if it was not refused, what comes next. -/
theorem run_bind (first : Work α) (next : α → Work β) (bench : Workbench) :
    (first >>= next).run.run bench =
      match first.run.run bench with
      | (.ok value, after) => (next value).run.run after
      | (.error refusal, after) => (.error refusal, after) := by
  rw [ExceptT.run_bind, StateT.run_bind]
  generalize first.run.run bench = result
  rcases result with ⟨_ | _, _⟩ <;> rfl

theorem Reads.atomic {work : Work α} (reads : Reads work) : Atomic work :=
  fun bench _ _ => reads bench

theorem Succeeds.atomic {work : Work α} (succeeds : Succeeds work) : Atomic work := by
  intro bench refusal refused
  obtain ⟨value, done⟩ := succeeds bench
  cases done.symm.trans refused

theorem Reads.bind {first : Work α} {next : α → Work β} (reads : Reads first) (rest : ∀ value, Reads (next value)) :
    Reads (first >>= next) := by
  intro bench
  have same := reads bench
  rw [run_bind]
  split
  · next value after done =>
      rw [done] at same
      exact same ▸ rest value after
  · next refusal after refused =>
      rw [refused] at same
      exact same

theorem Reads.bind_atomic {first : Work α} {next : α → Work β} (reads : Reads first)
    (rest : ∀ value, Atomic (next value)) : Atomic (first >>= next) := by
  intro bench refusal
  have same := reads bench
  rw [run_bind]
  split
  · next value after done =>
      rw [done] at same
      exact same ▸ rest value after refusal
  · next other after refused =>
      rw [refused] at same
      exact fun _ => same

theorem Atomic.bind_succeeds {first : Work α} {next : α → Work β} (atomic : Atomic first)
    (rest : ∀ value, Succeeds (next value)) : Atomic (first >>= next) := by
  intro bench refusal
  have same := atomic bench
  rw [run_bind]
  split
  · next value after done =>
      intro refused
      obtain ⟨given, ends⟩ := rest value after
      cases ends.symm.trans refused
  · next other after refused =>
      rw [refused] at same
      exact fun _ => same other rfl

theorem Succeeds.bind {first : Work α} {next : α → Work β} (succeeds : Succeeds first)
    (rest : ∀ value, Succeeds (next value)) : Succeeds (first >>= next) := by
  intro bench
  obtain ⟨value, done⟩ := succeeds bench
  rw [run_bind]
  split
  · next given after _ => exact rest given after
  · next refusal after refused =>
      rw [refused] at done
      cases done

/-! ## Pieces of work -/

theorem reads_pure (value : α) : Reads (pure value : Work α) :=
  fun _ => rfl

theorem succeeds_pure (value : α) : Succeeds (pure value : Work α) :=
  fun _ => ⟨value, rfl⟩

theorem reads_throw (refusal : Refusal) : Reads (throw refusal : Work α) :=
  fun _ => rfl

theorem reads_tree : Reads tree :=
  fun _ => rfl

theorem succeeds_setTree (tree : Tree) : Succeeds (setTree tree) :=
  fun _ => ⟨(), rfl⟩

theorem reads_accept (result : Except Fault α) : Reads (accept result) := by
  cases result with
  | error fault => exact reads_throw _
  | ok value => exact reads_pure value

theorem reads_readKind (kind : Option Kind) : Reads (readKind kind) := by
  cases kind with
  | none => exact reads_throw _
  | some kind => exact reads_pure kind

theorem reads_resolve (reference : Reference) : Reads (resolve reference) := by
  unfold resolve
  refine Reads.bind (fun _ => rfl) fun bench => ?_
  dsimp only
  split
  · exact reads_pure _
  · exact reads_throw _

theorem reads_mapM_resolve (references : List Reference) : Reads (references.mapM resolve) := by
  induction references with
  | nil => exact reads_pure []
  | cons reference references hypothesis =>
      rw [List.mapM_cons]
      exact (reads_resolve reference).bind fun id => hypothesis.bind fun ids => reads_pure (id :: ids)

theorem succeeds_giveNode (store : Option String) (id : Option NodeId) : Succeeds (giveNode store id) := by
  refine Succeeds.bind ?_ fun _ => succeeds_pure _
  cases store with
  | none => exact succeeds_pure ()
  | some name => exact fun _ => ⟨(), rfl⟩

/-- An edit is checked before the tree is changed. -/
theorem atomic_edit (change : Tree → Except Fault Tree) : Atomic (edit change) := by
  refine reads_tree.bind_atomic fun tree => (reads_accept (change tree)).bind_atomic fun after => ?_
  exact ((succeeds_setTree after).bind fun _ => succeeds_pure _).atomic

end Work

/-- A step that is refused changes nothing, unless it moves children. -/
theorem Step.atomic_run (step : Step) (single : ∀ source target, step ≠ .moveChildren source target) :
    Work.Atomic step.run := by
  have giving : ∀ store id, Work.Atomic (Work.giveNode store id) := fun store id =>
    (Work.succeeds_giveNode store id).atomic
  cases step with
  | create kind children attributes position store =>
      refine (Work.reads_readKind kind).bind_atomic fun kind => ?_
      refine (Work.reads_mapM_resolve children).bind_atomic fun ids => ?_
      refine Work.reads_tree.bind_atomic fun tree => ?_
      refine (Work.reads_accept _).bind_atomic fun made => ?_
      exact ((Work.succeeds_setTree made.2).bind fun _ => Work.succeeds_giveNode store _).atomic
  | clone node deep store =>
      refine (Work.reads_resolve node).bind_atomic fun id => ?_
      refine Work.reads_tree.bind_atomic fun tree => ?_
      exact ((Work.succeeds_setTree _).bind fun _ => Work.succeeds_giveNode store _).atomic
  | append parent child =>
      refine (Work.reads_resolve parent).bind_atomic fun parent => ?_
      exact (Work.reads_resolve child).bind_atomic fun child => Work.atomic_edit _
  | insertBefore parent child next =>
      refine (Work.reads_resolve parent).bind_atomic fun parent => ?_
      refine (Work.reads_resolve child).bind_atomic fun child => ?_
      exact (Work.reads_resolve next).bind_atomic fun next => Work.atomic_edit _
  | remove parent child =>
      refine (Work.reads_resolve parent).bind_atomic fun parent => ?_
      exact (Work.reads_resolve child).bind_atomic fun child => Work.atomic_edit _
  | replace parent old new =>
      refine (Work.reads_resolve parent).bind_atomic fun parent => ?_
      refine (Work.reads_resolve old).bind_atomic fun old => ?_
      exact (Work.reads_resolve new).bind_atomic fun new => Work.atomic_edit _
  | detach node => exact (Work.reads_resolve node).bind_atomic fun id => Work.atomic_edit _
  | takeChildren node =>
      refine (Work.reads_resolve node).bind_atomic fun id => ?_
      refine Work.reads_tree.bind_atomic fun tree => ?_
      exact ((Work.succeeds_setTree _).bind fun _ => Work.succeeds_pure _).atomic
  | moveChildren source target => exact absurd rfl (single source target)
  | setKind node kind =>
      refine (Work.reads_resolve node).bind_atomic fun id => ?_
      exact (Work.reads_readKind kind).bind_atomic fun kind => Work.atomic_edit _
  | setAttribute node name value => exact (Work.reads_resolve node).bind_atomic fun id => Work.atomic_edit _
  | removeAttribute node name =>
      refine (Work.reads_resolve node).bind_atomic fun id => ?_
      refine Work.reads_tree.bind_atomic fun tree => ?_
      exact ((Work.succeeds_setTree _).bind fun _ => Work.succeeds_pure _).atomic
  | setPosition node position => exact (Work.reads_resolve node).bind_atomic fun id => Work.atomic_edit _
  | setPreserve node preserve => exact (Work.reads_resolve node).bind_atomic fun id => Work.atomic_edit _
  | countSettled node name =>
      refine (Work.reads_resolve node).bind_atomic fun id => Work.reads_tree.bind_atomic fun tree => ?_
      exact (Work.atomic_edit _).bind_succeeds fun _ => Work.succeeds_pure _
  | readAttribute node name =>
      exact (Work.reads_resolve node).bind_atomic fun id =>
        (Work.reads_tree.bind fun tree => Work.reads_pure _).atomic
  | inspect node =>
      exact (Work.reads_resolve node).bind_atomic fun id =>
        (Work.reads_tree.bind fun tree => Work.reads_pure _).atomic
  | indexOf parent child =>
      refine (Work.reads_resolve parent).bind_atomic fun parent => ?_
      refine (Work.reads_resolve child).bind_atomic fun child => (Work.reads_tree.bind fun tree => ?_).atomic
      split
      · exact Work.reads_pure _
      · exact Work.reads_pure _
  | follow relation node store =>
      refine (Work.reads_resolve node).bind_atomic fun id => ?_
      exact Work.reads_tree.bind_atomic fun tree => giving store _
  | measure => exact (Work.reads_tree.bind fun tree => Work.reads_pure _).atomic
  | verify node =>
      refine (Work.reads_resolve node).bind_atomic fun id => ?_
      exact (Work.reads_tree.bind fun tree => (Work.reads_accept _).bind fun _ => Work.reads_pure _).atomic

/-- In a tree made by any script every edit is refused unless it is allowed, and changes nothing but what it is about:
the links that it names, the kind or an attribute of one node, or a node more. What is refused changes nothing. -/
theorem Workbench.edits_exact (file : String) (steps : List Step) :
    let bench := (Workbench.runSteps { tree := { file } } steps).2
    let tree := bench.tree
    (∀ parent child, tree.Has parent → tree.Has child →
      IsExact (tree.append parent child)
        ((tree.kind parent).isContainer = true ∧ tree.parent child = none ∧ ¬tree.OnPath child parent)
        (tree.WithLinks (Function.update tree.parent child (some parent))
          (Function.update tree.children parent (tree.children parent ++ [child])))) ∧
    (∀ parent child reference, tree.Has child →
      IsExact (tree.insertBefore parent child reference)
        (reference ∈ tree.children parent ∧ tree.parent child = none ∧ ¬tree.OnPath child parent) fun after =>
          ∃ front rest, tree.children parent = front ++ reference :: rest ∧
            tree.WithLinks (Function.update tree.parent child (some parent))
              (Function.update tree.children parent (front ++ child :: reference :: rest)) after) ∧
    (∀ parent old new, tree.Has new →
      IsExact (tree.replace parent old new)
        (old ∈ tree.children parent ∧ tree.parent new = none ∧ ¬tree.OnPath new parent) fun after =>
          ∃ front rest, tree.children parent = front ++ old :: rest ∧
            tree.WithLinks (Function.update (Function.update tree.parent old none) new (some parent))
              (Function.update tree.children parent (front ++ new :: rest)) after) ∧
    (∀ parent child,
      IsExact (tree.remove parent child) (child ∈ tree.children parent) fun after =>
        ∃ front rest, tree.children parent = front ++ child :: rest ∧
          tree.WithLinks (Function.update tree.parent child none)
            (Function.update tree.children parent (front ++ rest)) after) ∧
    (∀ position kind attributes children, (∀ child ∈ children, tree.Has child) →
      IsExact (tree.create position kind attributes children)
        (kind.check = .ok () ∧
          (∀ given ∈ attributes, isAttributeName given.1 = true ∧ ∃ value, Value.parse given.2 = .ok value) ∧
          (children ≠ [] → kind.isContainer = true) ∧ children.Nodup ∧
          ∀ child ∈ children, tree.parent child = none) fun made =>
        made.1 = ⟨tree.size⟩ ∧ ∃ read, List.Forall₂ (Attribute.IsRead position) attributes read ∧
          tree.WithParent { kind, attributes := read, children, position } children made.2) ∧
    (∀ id kind, tree.Has id →
      IsExact (tree.setKind id kind)
        (kind.check = .ok () ∧ (tree.children id ≠ [] → kind.isContainer = true))
        (tree.WithNode id { tree.node id with kind })) ∧
    (∀ id name raw, tree.Has id →
      IsExact (tree.setAttribute id name raw)
        (isAttributeName name = true ∧ ∃ value, Value.parse raw = .ok value) fun after =>
          ∃ read, Attribute.IsRead (tree.node id).position (name, raw) read ∧
            tree.WithNode id
              { tree.node id with attributes := Tree.putAttribute read (tree.node id).attributes } after) ∧
    ∀ (step : Step) (refusal : Refusal), (∀ source target, step ≠ .moveChildren source target) →
      (step.run.run bench).1 = .error refusal → (step.run.run bench).2 = bench := by
  intro bench tree
  have wellFormed : tree.WellFormed := ((Workbench.sound_empty file).runSteps steps).wellFormed
  refine ⟨fun parent child hasParent hasChild => wellFormed.isExact_append hasParent hasChild,
    fun parent child reference hasChild => wellFormed.isExact_insertBefore hasChild reference,
    fun parent old new hasNew => wellFormed.isExact_replace parent old hasNew,
    fun parent child => wellFormed.isExact_remove parent child,
    fun position kind attributes children present => Tree.isExact_create position kind attributes present,
    fun id kind present => Tree.isExact_setKind present kind,
    fun id name raw present => Tree.isExact_setAttribute present name raw,
    fun step refusal single refused => step.atomic_run single bench refusal refused⟩

end HtmlTemplate
