import HtmlTemplate.Compiler
import HtmlTemplate.Proofs.Options
import HtmlTemplate.Proofs.Placement.Tameness

/-!
# Options that do not matter to a compilation

A compilation reads the options that its fingerprint covers and no others. Two compilations whose options differ in
storage only go the same way step by step: what holds of reading the tree holds of checks, of transforms that cannot
tell the two apart, of visits and of the whole walk. The transforms of the core taglib read no options at all.
-/

namespace HtmlTemplate

/-- The compilations differ in nothing but options that generated code does not depend on. -/
structure Context.Alike (first second : Context) : Prop where
  tree : first.tree = second.tree
  options : first.options.SameOutput second.options
  rules : first.rules = second.rules
  diagnostics : first.diagnostics = second.diagnostics
  notes : first.notes = second.notes

theorem Context.alike_iff {first second : Context} :
    first.Alike second ↔ ∃ options, first.options.SameOutput options ∧ second = { first with options } := by
  constructor
  · rintro ⟨tree, same, rules, diagnostics, notes⟩
    refine ⟨second.options, same, ?_⟩
    cases second
    cases tree
    cases rules
    cases diagnostics
    cases notes
    rfl
  · rintro ⟨options, same, rfl⟩
    exact ⟨rfl, same, rfl, rfl, rfl⟩

/-- The transform cannot tell compilations apart that differ in options about storage only: it does the same in them
and leaves them with no other difference. Whatever reads no options is such a transform. -/
def Transform.Indifferent (transform : Transform) : Prop :=
  ∀ id {first second : Context}, first.Alike second →
    ((transform.apply id).run first).1 = ((transform.apply id).run second).1 ∧
      ((transform.apply id).run first).2.Alike ((transform.apply id).run second).2

/-! ## Edits that read no options -/

namespace Edit

variable {α β : Type}

/-- The edit does the same whatever the options are, and leaves them as they are. -/
def IgnoresOptions (work : Edit α) : Prop :=
  ∀ context options, work.run { context with options } = ((work.run context).1, { (work.run context).2 with options })

namespace IgnoresOptions

theorem pure (value : α) : IgnoresOptions (Pure.pure value : Edit α) := by
  intro context options
  rfl

theorem bind {first : Edit α} {next : α → Edit β} (begins : IgnoresOptions first)
    (goesOn : ∀ value, IgnoresOptions (next value)) : IgnoresOptions (first >>= next) := by
  intro context options
  rw [run_bind, run_bind, begins context options]
  obtain ⟨fault | value, between⟩ := first.run context
  · rfl
  · exact goesOn value between options

/-- What looks at the compilation may look at all of it but the options. -/
theorem ofContext {next : Context → Edit α} (same : ∀ context options, next { context with options } = next context)
    (goesOn : ∀ context, IgnoresOptions (next context)) : IgnoresOptions (get >>= next) := by
  intro context options
  change (next { context with options }).run { context with options } =
    (((next context).run context).1, { ((next context).run context).2 with options })
  rw [same]
  exact goesOn context context options

theorem tree : IgnoresOptions Edit.tree := by
  intro context options
  rfl

theorem modifyTree (change : Tree → Tree) : IgnoresOptions (Edit.modifyTree change) := by
  intro context options
  rfl

theorem changeTree (change : Tree → Except Fault Tree) : IgnoresOptions (Edit.changeTree change) := by
  intro context options
  rw [run_changeTree, run_changeTree]
  dsimp only
  cases change context.tree <;> rfl

theorem makeTree (change : Tree → Except Fault (α × Tree)) : IgnoresOptions (Edit.makeTree change) := by
  intro context options
  rw [run_makeTree, run_makeTree]
  dsimp only
  cases change context.tree <;> rfl

theorem takeTree (change : Tree → α × Tree) : IgnoresOptions (Edit.takeTree change) :=
  makeTree _

theorem failAt (id : NodeId) (cause : Cause) : IgnoresOptions (Edit.failAt id cause : Edit α) := by
  intro context options
  rfl

theorem warn (id : NodeId) (code message : String) : IgnoresOptions (Edit.warn id code message) := by
  intro context options
  rfl

end IgnoresOptions
end Edit

/-- A transform that reads no options cannot tell compilations apart by them. -/
theorem Transform.indifferent_of_ignoresOptions {transform : Transform}
    (ignores : ∀ id, (transform.apply id).IgnoresOptions) : transform.Indifferent := by
  intro id first second alike
  obtain ⟨options, same, rfl⟩ := Context.alike_iff.1 alike
  -- The options of the first compilation are as they were, too.
  have kept := ignores id first first.options
  have others := ignores id first options
  change (transform.apply id).run first = _ at kept
  rw [others]
  refine ⟨rfl, rfl, ?_, rfl, rfl, rfl⟩
  rw [kept]
  exact same

/-! ## The core taglib -/

open Edit (IgnoresOptions)

theorem Transform.indifferent_bindRenderer (renderer : String) : (Transform.bindRenderer renderer).Indifferent := by
  refine Transform.indifferent_of_ignoresOptions fun id => IgnoresOptions.tree.bind fun tree => ?_
  split
  · exact (IgnoresOptions.changeTree _).bind fun _ => .pure _
  · exact .pure _

namespace Construct

theorem ignores_requireOnly (id : NodeId) (allowed : List String) : IgnoresOptions (requireOnly id allowed) := by
  refine IgnoresOptions.tree.bind fun tree => ?_
  dsimp only
  split
  · exact .failAt id _
  · exact .pure _

theorem ignores_requireCode (id : NodeId) (name : String) : IgnoresOptions (requireCode id name) := by
  refine IgnoresOptions.tree.bind fun tree => ?_
  dsimp only
  split
  · exact .failAt id _
  · exact .pure _

theorem ignores_conditional (place : NodeId) (test : String) : IgnoresOptions (conditional place test) :=
  (IgnoresOptions.makeTree _).bind fun _ => (IgnoresOptions.makeTree _).bind fun _ => .pure _

theorem ignores_iteration (place : NodeId) (header : String) : IgnoresOptions (iteration place header) := by
  unfold iteration
  split
  · exact .makeTree _
  · exact .failAt place _

theorem ignores_appendAll (parent : NodeId) (children : List NodeId) : IgnoresOptions (appendAll parent children) := by
  unfold appendAll
  induction children with
  | nil => exact .pure _
  | cons child children hypothesis => exact (IgnoresOptions.changeTree _).bind fun _ => hypothesis

theorem ignores_moveChildren (source target : NodeId) : IgnoresOptions (moveChildren source target) :=
  (IgnoresOptions.takeTree _).bind fun children => ignores_appendAll target children

theorem ignores_replace (id replacement : NodeId) : IgnoresOptions (replace id replacement) := by
  refine IgnoresOptions.tree.bind fun tree => ?_
  split
  · exact .failAt id _
  · exact (IgnoresOptions.changeTree _).bind fun _ => .pure _

theorem ignores_wrap (id construct : NodeId) : IgnoresOptions (wrap id construct) :=
  (ignores_replace id construct).bind fun _ => IgnoresOptions.tree.bind fun _ =>
    (IgnoresOptions.changeTree _).bind fun _ => .pure _

theorem ignores_lowerFor (id : NodeId) : IgnoresOptions (Iteration.lower id) := by
  refine IgnoresOptions.tree.bind fun tree => ?_
  split
  · exact .pure _
  · refine (ignores_requireOnly id _).bind fun _ => (ignores_requireCode id _).bind fun header => ?_
    refine (ignores_iteration id header).bind fun loop => IgnoresOptions.tree.bind fun tree => ?_
    split
    · refine (ignores_requireCode id _).bind fun test => (ignores_conditional id test).bind fun made => ?_
      exact (ignores_moveChildren id made.2).bind fun _ => (IgnoresOptions.changeTree _).bind fun _ =>
        ignores_replace id loop
    · exact (ignores_moveChildren id loop).bind fun _ => ignores_replace id loop

theorem ignores_textOf (ids : List NodeId) : IgnoresOptions (Comment.textOf ids) := by
  induction ids with
  | nil => exact .pure _
  | cons id rest hypothesis =>
      refine IgnoresOptions.tree.bind fun tree => ?_
      split
      · exact hypothesis.bind fun _ => .pure _
      · exact .failAt id _

theorem ignores_lowerComment (id : NodeId) : IgnoresOptions (Comment.lower id) := by
  refine IgnoresOptions.tree.bind fun tree => ?_
  split
  · exact .pure _
  · exact (ignores_requireOnly id _).bind fun _ => (ignores_textOf _).bind fun _ =>
      (IgnoresOptions.makeTree _).bind fun comment => ignores_replace id comment

theorem ignores_takeFollowing (nesting : Nesting) (siblings : List NodeId) :
    IgnoresOptions (Conditional.takeFollowing nesting siblings) := by
  induction siblings with
  | nil => exact .pure _
  | cons sibling rest hypothesis =>
      refine IgnoresOptions.tree.bind fun tree => ?_
      split
      · split
        · exact (IgnoresOptions.changeTree _).bind fun _ => hypothesis
        · exact .pure _
      · split
        · exact (IgnoresOptions.changeTree _).bind fun _ => hypothesis.bind fun _ => .pure _
        · exact .pure _

theorem ignores_warnDeprecated (id : NodeId) (tag : String) : IgnoresOptions (Conditional.warnDeprecated id tag) := by
  refine IgnoresOptions.ofContext (fun _ _ => rfl) fun context => ?_
  split
  · exact .warn id _ _
  · exact .pure _

theorem ignores_readTest (id : NodeId) (tag : String) : IgnoresOptions (Conditional.readTest id tag) := by
  unfold Conditional.readTest
  split
  · exact (ignores_requireOnly id _).bind fun _ => (ignores_requireCode id _).bind fun _ => .pure _
  · exact (ignores_requireOnly id _).bind fun _ => .pure _

theorem ignores_addBranches (conditional : NodeId) (closed : Bool) (ids : List NodeId) :
    IgnoresOptions (Conditional.addBranches conditional closed ids) := by
  induction ids generalizing closed with
  | nil => exact .pure _
  | cons id rest hypothesis =>
      refine IgnoresOptions.tree.bind fun tree => ?_
      dsimp only
      split
      · exact .failAt id _
      · refine (ignores_warnDeprecated id _).bind fun _ => (ignores_readTest id _).bind fun test => ?_
        refine (IgnoresOptions.makeTree _).bind fun branch => (ignores_moveChildren id branch).bind fun _ => ?_
        exact (IgnoresOptions.changeTree _).bind fun _ => hypothesis test.isNone

theorem ignores_lowerIf (id : NodeId) : IgnoresOptions (Conditional.lower id) := by
  refine IgnoresOptions.tree.bind fun tree => ?_
  split
  · exact .pure _
  · refine (ignores_requireOnly id _).bind fun _ => (ignores_requireCode id _).bind fun test => ?_
    refine IgnoresOptions.ofContext (fun _ _ => rfl) fun context => (ignores_conditional id test).bind fun made => ?_
    refine (IgnoresOptions.takeTree _).bind fun children => IgnoresOptions.tree.bind fun parted => ?_
    refine (ignores_appendAll made.2 _).bind fun _ => IgnoresOptions.tree.bind fun filled => ?_
    refine (ignores_takeFollowing _ _).bind fun following => (ignores_addBranches made.1 false _).bind fun _ => ?_
    refine IgnoresOptions.tree.bind fun joined => ?_
    split
    · exact ignores_replace id _
    · refine (ignores_iteration id _).bind fun loop => (ignores_replace id loop).bind fun _ => ?_
      exact (IgnoresOptions.changeTree _).bind fun _ => .pure _

theorem ignores_lowerDirective (id : NodeId) : IgnoresOptions (Directive.lower id) := by
  refine IgnoresOptions.tree.bind fun tree => ?_
  split
  · exact .pure _
  · split
    · next header _ =>
        exact (IgnoresOptions.modifyTree _).bind fun _ => (ignores_iteration id header).bind fun loop => ignores_wrap id loop
    · split
      · exact .pure _
      · dsimp only
        split
        · exact .failAt id _
        · exact (IgnoresOptions.modifyTree _).bind fun _ => (ignores_conditional id _).bind fun made =>
            ignores_wrap id made.1

end Construct

/-- The transforms of the core taglib read no options. -/
theorem Control.indifferent_of_declares {transform : Transform} (declared : Registry.core.Declares transform) :
    transform.Indifferent := by
  refine Control.forall_declares ?_ ?_ ?_ ?_ ?_ ?_ declared
  · exact Transform.indifferent_of_ignoresOptions Construct.ignores_lowerDirective
  · exact Transform.indifferent_of_ignoresOptions Construct.ignores_lowerIf
  · exact Transform.indifferent_of_ignoresOptions Construct.ignores_lowerFor
  · exact Transform.indifferent_of_ignoresOptions Construct.ignores_lowerComment
  · intro tag transform member
    rw [List.mem_singleton.1 member]
    exact Transform.indifferent_of_ignoresOptions fun id => IgnoresOptions.tree.bind fun _ => .failAt id _
  · intro old new transform member
    rw [List.mem_singleton.1 member]
    exact Transform.indifferent_of_ignoresOptions fun _ => (IgnoresOptions.changeTree _).bind fun _ => .pure _

/-! ## Walks -/

namespace Walk

variable {α β : Type} {registry : Registry} {id : NodeId} {bound : Nat}

/-- The part of the walk comes to the same in compilations that are alike, and leaves them alike. -/
def Indifferent (work : Walk α) : Prop :=
  ∀ state {first second : Context}, first.Alike second →
    (work state first).1 = (work state second).1 ∧ (work state first).2.Alike (work state second).2

namespace Indifferent

theorem pure (value : α) : Indifferent (Pure.pure value : Walk α) := by
  intro state first second alike
  exact ⟨rfl, alike⟩

theorem throw (halt : Halt) : Indifferent (MonadExcept.throw halt : Walk α) := by
  intro state first second alike
  exact ⟨rfl, alike⟩

theorem bind {first : Walk α} {next : α → Walk β} (begins : Indifferent first)
    (goesOn : ∀ value, Indifferent (next value)) : Indifferent (first >>= next) := by
  intro state context other alike
  obtain ⟨same, after⟩ := begins state alike
  rw [bind_apply, bind_apply]
  generalize first state context = result at same after ⊢
  generalize first state other = answer at same after ⊢
  obtain ⟨outcome, middle⟩ := result
  obtain ⟨_, between⟩ := answer
  cases same
  obtain ⟨halt | value, progress⟩ := outcome
  · exact ⟨rfl, after⟩
  · exact goesOn value progress after

/-- What looks at the compilation may look at all that compilations have in common that are alike. -/
theorem ofContext {next : Context → Walk α} (same : ∀ {first second : Context}, first.Alike second → next first = next second)
    (goesOn : ∀ context, Indifferent (next context)) : Indifferent (context >>= next) := by
  intro state first second alike
  change (next first state first).1 = (next second state second).1 ∧
    (next first state first).2.Alike (next second state second).2
  rw [same alike]
  exact goesOn second state alike

theorem tree : Indifferent Walk.tree := by
  intro state first second alike
  exact ⟨congrArg (fun tree => (Except.ok tree, state)) alike.tree, alike⟩

theorem progress : Indifferent Walk.progress := by
  intro state first second alike
  exact ⟨rfl, alike⟩

theorem modifyProgress (change : Progress → Progress) : Indifferent (Walk.modifyProgress change) := by
  intro state first second alike
  exact ⟨rfl, alike⟩

theorem modifyTree (change : Tree → Tree) :
    Indifferent (modifyContext fun context => { context with tree := change context.tree }) := by
  intro state first second alike
  exact ⟨rfl, congrArg change alike.tree, alike.options, alike.rules, alike.diagnostics, alike.notes⟩

theorem setState (id : NodeId) (mark : WalkState) : Indifferent (Walk.setState id mark) :=
  modifyTree fun tree => tree.setState id mark

theorem record (diagnostic : Diagnostic) : Indifferent (Walk.record diagnostic) := by
  intro state first second alike
  exact ⟨rfl, alike.tree, alike.options, alike.rules, congrArg (· ++ [diagnostic]) alike.diagnostics, alike.notes⟩

theorem failNode (id : NodeId) (fault : Fault) : Indifferent (Walk.failNode id fault : Walk α) :=
  (setState id .failed).bind fun _ => throw _

theorem unsettled (bound : Nat) (id : NodeId) : Indifferent (Walk.unsettled bound id : Walk α) :=
  tree.bind fun _ => failNode id _

theorem handOn (before passes : Nat) : Indifferent (Walk.handOn before passes) :=
  tree.bind fun _ => modifyProgress _

theorem setAside (id : NodeId) (passes : Nat) : Indifferent (Walk.setAside id passes) :=
  (setState id .unvisited).bind fun _ => modifyProgress _

theorem warnOnce (id : NodeId) (diagnostic : Diagnostic) : Indifferent (Walk.warnOnce id diagnostic) := by
  refine progress.bind fun state => ?_
  split
  · exact pure ()
  · exact (modifyProgress _).bind fun _ => record diagnostic

/-! ### Checks -/

/-- Whether tags may be unknown is the one option that a check reads. -/
theorem checkKnown (registry : Registry) (id : NodeId) (tag : String) : Indifferent (Walk.checkKnown registry id tag) := by
  refine ofContext (fun alike => ?_) fun context => ?_
  · simp only [alike.tree, alike.options.allowUnknownTags]
  · have preserves : ∀ entry : TagEntry, Indifferent (if entry.rules.preserve = true then
        modifyContext fun context => { context with tree := context.tree.setPreserve id true } else Pure.pure ()) := by
      intro entry
      split
      · exact modifyTree fun tree => tree.setPreserve id true
      · exact pure ()
    split
    · next entry _ =>
        dsimp only
        split
        · exact (warnOnce id _).bind fun _ => preserves entry
        · exact preserves entry
    · split
      · split
        · exact warnOnce id _
        · exact failNode id _
      · exact pure ()

theorem checkNesting (registry : Registry) (id : NodeId) (tag : String) :
    Indifferent (Walk.checkNesting registry id tag) := by
  refine tree.bind fun tree => ?_
  dsimp only
  split
  · exact pure ()
  · split
    · exact pure ()
    · split
      · exact pure ()
      · exact failNode id _

theorem checkTag (registry : Registry) (id : NodeId) : Indifferent (Walk.checkTag registry id) := by
  refine tree.bind fun tree => ?_
  split
  · exact pure ()
  · next tag _ => exact (checkKnown registry id tag).bind fun _ => checkNesting registry id tag

/-! ### Transforms -/

theorem attempt {transform : Transform} (indifferent : transform.Indifferent) (id : NodeId) :
    Indifferent (Walk.attempt (transform.apply id)) := by
  intro state first second alike
  obtain ⟨same, after⟩ := indifferent id alike
  exact ⟨congrArg (fun result => (Except.ok result, state)) same, after⟩

theorem confirm (transform : Transform) (id : NodeId) (outcome : Outcome) :
    Indifferent (Walk.confirm transform id outcome) := by
  cases outcome with
  | unchanged => exact pure _
  | changed => exact pure _
  | replaced next =>
      refine tree.bind fun tree => ?_
      split
      · exact pure _
      · split
        · exact failNode id _
        · exact pure _
  | removed =>
      refine tree.bind fun tree => ?_
      split
      · exact failNode id _
      · exact (setState id .settled).bind fun _ => pure _

theorem applyFirst {transforms : List Transform} (indifferent : ∀ transform ∈ transforms, transform.Indifferent)
    (id : NodeId) : Indifferent (Walk.applyFirst id transforms) := by
  induction transforms with
  | nil => exact pure _
  | cons transform transforms hypothesis =>
      obtain ⟨own, others⟩ := List.forall_mem_cons.1 indifferent
      refine (attempt own id).bind fun result => ?_
      split
      · exact failNode id _
      · exact hypothesis others
      · exact (modifyProgress _).bind fun _ => confirm transform id _

end Indifferent

/-! ### Visits -/

section Visiting

variable (indifferent : ∀ transform, registry.Declares transform → transform.Indifferent)
include indifferent

theorem indifferent_runPhase (id : NodeId) (phase : Phase) : Indifferent (runPhase registry id phase) := by
  refine Indifferent.tree.bind fun tree => Indifferent.bind ?_ fun _ => .pure _
  refine Indifferent.applyFirst (fun transform member => ?_) id
  obtain ⟨-, -, declared | ⟨renderer, rfl⟩⟩ := mem_transformsFor member
  · exact indifferent transform declared
  · exact Transform.indifferent_bindRenderer renderer

theorem indifferent_enterOnce (id : NodeId) : Indifferent (enterOnce registry id) :=
  (Indifferent.setState id .entering).bind fun _ => (Indifferent.checkTag registry id).bind fun _ =>
    indifferent_runPhase indifferent id .enter

/-- The induction is on the number of changes that are left. -/
theorem indifferent_enter (bound left : Nat) (id : NodeId) : Indifferent (enter registry bound left id) := by
  induction left generalizing id with
  | zero =>
      refine (indifferent_enterOnce indifferent id).bind fun result => ?_
      split
      · exact .pure _
      · exact .pure _
      · exact .unsettled bound id
  | succ left hypothesis =>
      refine (indifferent_enterOnce indifferent id).bind fun result => ?_
      dsimp only
      split
      · exact .pure _
      · exact .pure _
      · exact (Indifferent.handOn _ _).bind fun _ => hypothesis id
      · next next _ =>
          exact (Indifferent.handOn _ _).bind fun _ => (Indifferent.setAside id _).bind fun _ => hypothesis next

/-- Visits, visits to children and leaving go the same way. The induction is on the fuel of all three. -/
theorem indifferent_visits (bound fuel : Nat) :
    (∀ id passes, Indifferent (visit registry bound fuel id passes)) ∧
      (∀ parent index, Indifferent (visitChildren registry bound fuel parent index)) ∧
      ∀ id left, Indifferent (leave registry bound fuel id left) := by
  induction fuel with
  | zero =>
      refine ⟨fun _ _ => ?_, fun _ _ => ?_, fun _ _ => ?_⟩
      · unfold visit
        exact .throw _
      · unfold visitChildren
        exact .throw _
      · unfold leave
        exact .throw _
  | succ fuel hypothesis =>
      obtain ⟨visits, children, leaves⟩ := hypothesis
      refine ⟨fun id passes => ?_, fun parent index => ?_, fun id left => ?_⟩
      · unfold visit
        refine Indifferent.progress.bind fun state => (Indifferent.modifyProgress _).bind fun _ => ?_
        refine (indifferent_enter indifferent bound _ id).bind fun entered => ?_
        split
        · exact .pure _
        · next last left =>
            exact (Indifferent.setState last .entered).bind fun _ => (children last 0).bind fun _ =>
              (Indifferent.setState last .exiting).bind fun _ => leaves last left
      · unfold visitChildren
        refine Indifferent.tree.bind fun tree => ?_
        split
        · exact .pure _
        · next child _ =>
            split
            · exact (visits child 0).bind fun _ => children parent index
            · exact children parent (index + 1)
      · unfold leave
        refine (indifferent_runPhase indifferent id .leave).bind fun result => ?_
        dsimp only
        split
        · exact .setState id .settled
        · exact .pure _
        · exact .unsettled bound id
        · exact (Indifferent.handOn _ _).bind fun _ => (children id 0).bind fun _ => leaves id _
        · next next _ _ =>
            exact (Indifferent.handOn _ _).bind fun _ => (Indifferent.setAside id _).bind fun _ => visits next _

/-- How often transforms may change a node is the one option that a walk reads when it starts. -/
theorem indifferent_start (fuel : Nat) (root : NodeId) : Indifferent (start registry fuel root) := by
  have marks : ∀ ids : List NodeId, Indifferent (forIn ids PUnit.unit fun id _ => do
      setState id .unvisited
      pure (ForInStep.yield PUnit.unit)) := by
    intro ids
    induction ids with
    | nil => exact .pure _
    | cons id ids hypothesis =>
        rw [List.forIn_cons]
        refine ((Indifferent.setState id .unvisited).bind fun _ => .pure (ForInStep.yield PUnit.unit)).bind fun step => ?_
        cases step with
        | done value => exact .pure value
        | yield value => exact hypothesis
  refine Indifferent.ofContext (fun alike => ?_) fun context => ?_
  · simp only [alike.tree, alike.options.maxTransformPasses]
  · exact (marks _).bind fun _ => (indifferent_visits indifferent _ fuel).1 root 0

end Visiting

end Walk

/-! ## Compilations -/

/-- A walk comes to the same in compilations that are alike, and leaves them alike. -/
theorem Context.walk_alike {registry : Registry} {first second : Context}
    (indifferent : ∀ transform, registry.Declares transform → transform.Indifferent) (alike : first.Alike second)
    (fuel : Nat) (root : NodeId) : (first.walk registry fuel root).1 = (second.walk registry fuel root).1 ∧
      (first.walk registry fuel root).2.Alike (second.walk registry fuel root).2 := by
  obtain ⟨same, after⟩ := Walk.indifferent_start indifferent fuel root {} alike
  exact ⟨congrArg (fun ended => ended.1.map fun _ => ended.2) same, after⟩

/-- No stage of a compilation reads an option that its fingerprint does not cover. -/
theorem Compilation.run_congr {registry : Registry} {first second : Options}
    (indifferent : ∀ transform, registry.Declares transform → transform.Indifferent) (same : first.SameOutput second)
    (fuel : Nat) (file source : String) : run registry first fuel file source = run registry second fuel file source := by
  unfold run
  split
  · rfl
  · next root tree _ =>
      have alike : (Context.start tree first registry).Alike (Context.start tree second registry) :=
        ⟨rfl, same, rfl, rfl, rfl⟩
      obtain ⟨walked, after⟩ := Context.walk_alike indifferent alike fuel root
      unfold ofTree
      generalize (Context.start tree first registry).walk registry fuel root = result at walked after ⊢
      generalize (Context.start tree second registry).walk registry fuel root = answer at walked after ⊢
      obtain ⟨ended, final⟩ := result
      obtain ⟨_, last⟩ := answer
      cases walked
      obtain ⟨options, -, rfl⟩ := Context.alike_iff.1 after
      rw [same.preserveWhitespace]
      rfl

/-- The fingerprint of options is exact. Options have one fingerprint if, and only if, they agree on where whitespace is
kept, on unknown tags and on the bound for transforms. And compilers with one registry whose options have one
fingerprint compile every source alike, whatever their options say about storage, if no transform of the registry tells
such options apart. -/
theorem Options.fingerprint_exact (options others : Options) :
    (options.fingerprint = others.fingerprint ↔
      options.preserveWhitespace = others.preserveWhitespace ∧ options.allowUnknownTags = others.allowUnknownTags ∧
        options.maxTransformPasses = others.maxTransformPasses) ∧
    (options.fingerprint = others.fingerprint → ∀ compiler : Compiler,
      (∀ transform, compiler.registry.Declares transform → transform.Indifferent) → ∀ file source : String,
        { compiler with options }.compile file source = { compiler with options := others }.compile file source) := by
  constructor
  · constructor
    · intro equal
      obtain ⟨whitespace, unknown, passes⟩ := fingerprint_eq_iff.1 equal
      exact ⟨whitespace, unknown, passes⟩
    · rintro ⟨whitespace, unknown, passes⟩
      exact fingerprint_eq_iff.2 ⟨whitespace, unknown, passes⟩
  · intro equal compiler indifferent file source
    exact Compilation.run_congr indifferent (fingerprint_eq_iff.1 equal) compiler.fuel file source

/-- A loop over an unknown tag and an older name, with output stored elsewhere or not at all. -/
theorem Options.fingerprint_exact_core :
    let source := "<c-for each=\"a in b\"><x-card if=\"a\"> c </x-card></c-for>"
    let compiler : Compiler := { registry := Registry.core, options := {}, fuel := 40 }
    let stored : Options := { allowUnknownTags := true, compiledSuffix := ".mjs" }
    let inMemory : Options := { Options.inMemory with allowUnknownTags := true }
    stored.fingerprint = inMemory.fingerprint ∧ stored ≠ inMemory ∧
      (∀ transform, compiler.registry.Declares transform → transform.Indifferent) ∧
      ({ compiler with options := stored }.compile "page.html" source).result.isOk = true ∧
      { compiler with options := stored }.compile "page.html" source =
        { compiler with options := inMemory }.compile "page.html" source := by
  intro source compiler stored inMemory
  have same : stored.fingerprint = inMemory.fingerprint := (fingerprint_exact stored inMemory).1.2 ⟨rfl, rfl, rfl⟩
  have core : ∀ transform, compiler.registry.Declares transform → transform.Indifferent :=
    fun _ declared => Control.indifferent_of_declares declared
  have letters : source.toList = _ := String.toList_ofList
  have compiles : ({ compiler with options := stored }.compile "page.html" source).result.isOk = true := by
    change (Compilation.run Registry.core { allowUnknownTags := true, compiledSuffix := ".mjs" } 40 "page.html"
      source).result.isOk = true
    rw [Compilation.run, Template.read, letters]
    decide +kernel
  exact ⟨same, by decide, core, compiles, (fingerprint_exact stored inMemory).2 same compiler core _ _⟩

end HtmlTemplate
