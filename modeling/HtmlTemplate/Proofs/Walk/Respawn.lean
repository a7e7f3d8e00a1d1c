import HtmlTemplate.Proofs.Tree.Rewiring
import HtmlTemplate.Proofs.Walk.Calm
import HtmlTemplate.Proofs.Walk.Termination

/-!
# A tag that makes itself anew

Counts are not handed on when a transform reports that it removed its node. So a transform that makes a
fresh node of its tag, puts it beside its own node and takes that one away is applied without end, however
small the bound on changes is.
-/

namespace HtmlTemplate

/-- A transform that puts a fresh node of a tag beside its node, and takes that one away. -/
def Transform.respawn : Transform :=
  { name := "respawn"
    apply := fun id => do
      match (← Edit.tree).parent id with
      | none => return .unchanged
      | some parent => do
          let copy ← Edit.makeTree fun tree => tree.create {} (.element "again") [] []
          Edit.changeTree fun tree => tree.append parent copy
          Edit.changeTree fun tree => tree.remove parent id
          return .removed }

theorem Transform.respawn_honest : Transform.respawn.Honest := by
  have edits : ∀ {id : NodeId} {before after : Context} {outcome : Outcome}, before.tree.WellFormed →
      Transform.respawn.Does id before outcome after →
        outcome = .unchanged ∧ after = before ∨
          outcome = .removed ∧ before.tree.Reaches after.tree := by
    intro id before after outcome wellFormed does
    unfold Transform.Does Transform.respawn at does
    dsimp only at does
    rw [Edit.run_bind, Edit.run_tree] at does
    dsimp only at does
    cases linked : before.tree.parent id with
    | none =>
        rw [linked] at does
        obtain ⟨rfl, rfl⟩ := Edit.run_pure_eq_ok_iff.1 does
        exact .inl ⟨rfl, rfl⟩
    | some parent =>
        rw [linked] at does
        obtain ⟨copy, _, made, does⟩ := Edit.run_bind_eq_ok_iff.1 does
        obtain ⟨grown, created, rfl⟩ := Edit.run_makeTree_eq_ok_iff.1 made
        obtain ⟨⟨⟩, _, appends, does⟩ := Edit.run_bind_eq_ok_iff.1 does
        obtain ⟨longer, appended, rfl⟩ := Edit.run_changeTree_eq_ok_iff.1 appends
        obtain ⟨⟨⟩, _, removes, does⟩ := Edit.run_bind_eq_ok_iff.1 does
        obtain ⟨shorter, removed, rfl⟩ := Edit.run_changeTree_eq_ok_iff.1 removes
        obtain ⟨rfl, rfl⟩ := Edit.run_pure_eq_ok_iff.1 does
        have grows : before.tree.Edited grown := .create (by simp) created
        have hasParent := (grows.grows wellFormed).has (wellFormed.has_parent linked)
        refine .inr ⟨rfl, .tail (.tail (.single grows) ?_) (.remove removed)⟩
        exact .append hasParent (Tree.has_of_create created) appended
  constructor
  · intro id before after outcome wellFormed _ does
    rcases edits wellFormed does with ⟨-, rfl⟩ | ⟨-, reaches⟩
    · exact .refl
    · exact reaches
  · intro id before after wellFormed _ does
    rcases edits wellFormed does with ⟨-, rfl⟩ | ⟨reported, -⟩
    · rfl
    · cases reported

namespace Walk

variable {state : Progress} {context : Context} {root child : NodeId}

/-- The root is a document with one child, an element of the tag that makes itself anew. -/
structure Respawned (tree : Tree) (root child : NodeId) : Prop where
  wellFormed : tree.WellFormed
  top : tree.parent root = none
  only : tree.children root = [child]
  document : tree.kind root = .document
  element : tree.kind child = .element "again"

theorem Respawned.congr {tree after : Tree} (respawned : Respawned tree root child)
    (shape : tree.SameShape after) : Respawned after root child where
  wellFormed := shape.wellFormed respawned.wellFormed
  top := (shape.parent root).trans respawned.top
  only := (shape.children root).trans respawned.only
  document := (shape.kind root).trans respawned.document
  element := (shape.kind child).trans respawned.element

/-- An application gives a tree of the same form, with another child, which has not been visited. -/
theorem Respawned.apply (respawned : Respawned context.tree root child) :
    ∃ after, Transform.respawn.Does child context .removed { context with tree := after } ∧
      Respawned after root ⟨context.tree.size⟩ ∧ after.parent child = none ∧ child ≠ ⟨context.tree.size⟩ ∧
        (after.node ⟨context.tree.size⟩).state = .unvisited := by
  obtain ⟨wellFormed, top, only, document, element⟩ := respawned
  have member : child ∈ context.tree.children root := by
    rw [only]
    exact List.mem_singleton_self child
  have linked := (wellFormed.linked root child).1 member
  have hasRoot := Tree.has_of_mem_children member
  have hasChild := wellFormed.has_child member
  have rootApart : root ≠ child := by
    rintro rfl
    rw [document] at element
    cases element
  have valid : (Kind.element "again").check = .ok () := by decide
  -- The fresh node hangs loose, then stands behind the old one, and then alone.
  obtain ⟨grown, created, making, extension, construct⟩ := Tree.exists_create context.tree {} valid
  have same := extension.node_of_has root hasRoot
  have document_grown : grown.kind root = .document := (congrArg Node.kind same).trans document
  have top_grown : grown.parent root = none := (congrArg Node.parent same).trans top
  have only_grown : grown.children root = [child] := (congrArg Node.children same).trans only
  have sound := making.wellFormed wellFormed
  obtain ⟨longer, appended, appending, joined, both⟩ := Tree.exists_append sound (extension.has hasRoot) construct.present
    (by rw [document_grown]; rfl) construct.parent fun onPath =>
      Tree.ne_size_of_has hasRoot (Tree.onPath_of_root top_grown onPath).symm
  rw [only_grown] at both
  obtain ⟨shorter, removed, -, taken, alone, detached⟩ :=
    @Tree.exists_remove _ _ _ (appending.wellFormed sound) [] _ both
  have does : Transform.respawn.Does child context .removed { context with tree := shorter } := by
    unfold Transform.Does Transform.respawn
    dsimp only
    rw [Edit.run_bind, Edit.run_tree]
    dsimp only
    rw [linked]
    refine Edit.run_bind_eq_ok_iff.2 ⟨_, _, Edit.run_makeTree_eq_ok_iff.2 ⟨grown, created, rfl⟩, ?_⟩
    refine Edit.run_bind_eq_ok_iff.2 ⟨(), _, Edit.run_changeTree_eq_ok_iff.2 ⟨longer, appended, rfl⟩, ?_⟩
    exact Edit.run_bind_eq_ok_iff.2 ⟨(), _, Edit.run_changeTree_eq_ok_iff.2 ⟨shorter, removed, rfl⟩, rfl⟩
  have reaches := Transform.respawn_honest.edits wellFormed hasChild does
  refine ⟨shorter, does, ⟨reaches.wellFormed wellFormed, ?_, alone, ?_, ?_⟩, detached, Tree.ne_size_of_has hasChild,
    (reaches.grows wellFormed).unvisited _ Tree.not_has_size⟩
  · have apart : root ∉ [⟨context.tree.size⟩] := by simpa using Tree.ne_size_of_has hasRoot
    rw [taken.parent_eq (by simpa using rootApart), joined.parent_eq apart, top_grown]
  · rw [taken.kind, joined.kind, document_grown]
  · rw [taken.kind, joined.kind, construct.kind]

/-- The registry of the one tag that makes itself anew. -/
abbrev respawning : Registry :=
  Registry.ofTag "again" [Transform.respawn]

/-- The walk never halts here. -/
def Never (_ : Halt) : Prop :=
  False

theorem Respawned.holds_checkTag (respawned : Respawned context.tree root child) :
    Holds Never (checkTag respawning child) state context fun _ after left =>
      after = state ∧ left = context := by
  have tagged : (context.tree.kind child).tag? = some "again" := congrArg Kind.tag? respawned.element
  have untagged : (context.tree.kind root).tag? = none := congrArg Kind.tag? respawned.document
  refine Meets.weaken holds_checkTag_inspected (fun halt rejected => ?_) fun _ after left inspected => ?_
  · cases rejected with
    | unrecognized same unknown =>
        obtain rfl := Option.some.inj (tagged.symm.trans same)
        cases (Registry.lookup?_ofTag _).symm.trans unknown.missing
    | disallowed _ disallowed _ =>
        obtain ⟨parent, linked, above⟩ := disallowed.inside
        have hosted : context.tree.parent child = some root := by
          rw [← respawned.wellFormed.linked, respawned.only]
          exact List.mem_singleton_self child
        obtain rfl := Option.some.inj (hosted.symm.trans linked)
        cases untagged.symm.trans above
  · cases inspected with
    | untagged none => cases none.symm.trans tagged
    | @tagged tag _ _ same _ _ warned =>
        obtain rfl := Option.some.inj (tagged.symm.trans same)
        -- The entry of the tag neither has a reason for a warning nor keeps text as it is.
        rw [notice?, Registry.lookup?_ofTag] at warned
        rw [preserving, Registry.lookup?_ofTag]
        cases warned
        exact ⟨rfl, rfl⟩

/-- Entering the child takes it away, and leaves a fresh one that has not been visited. -/
theorem Respawned.holds_enterOnce (respawned : Respawned context.tree root child) :
    Holds Never (enterOnce respawning child) state context fun result _ left =>
      result.1 = .removed ∧ ∃ next, Respawned left.tree root next ∧
        (left.tree.node next).state = .unvisited := by
  have respawned : Respawned ({ context with tree := context.tree.setState child .entering } : Context).tree root child :=
    respawned.congr (context.tree.sameShape_setState child .entering)
  refine .enterOnce (Respawned.holds_checkTag respawned) ?_
  rintro _ _ ⟨rfl, rfl⟩
  generalize ({ context with tree := context.tree.setState child .entering } : Context) = context at respawned ⊢
  refine .runPhase ?_
  obtain ⟨after, does, next, detached, different, unvisited⟩ := respawned.apply
  have tagged : (context.tree.node child).tag? = some "again" := congrArg Kind.tag? respawned.element
  have transforms : transformsFor respawning context.tree child .enter = [Transform.respawn] := by
    simp only [transformsFor, tagged, Registry.lookup?_ofTag, Registry.globals_ofTag]
    rfl
  rw [transforms]
  refine holds_applyFirst_acts does (fun impossible => by cases impossible) ?_
  refine holds_tree.bind ?_
  rintro _ _ left ⟨rfl, rfl, rfl⟩
  simp only [detached, Option.isSome_none, Bool.false_eq_true, if_false]
  refine ⟨rfl, ⟨context.tree.size⟩, next.congr (Tree.sameShape_setState _ _ _), ?_⟩
  exact (Tree.state_setState_of_ne different.symm).trans unvisited

theorem Respawned.holds_enter (respawned : Respawned context.tree root child) (bound left : Nat) :
    Holds Never (enter respawning bound left child) state context fun result _ left =>
      result = none ∧ ∃ next, Respawned left.tree root next ∧ (left.tree.node next).state = .unvisited := by
  cases left with
  | zero =>
      refine .enter_zero (respawned.holds_enterOnce.weaken ?_)
      rintro ⟨_, size⟩ after left ⟨rfl, next⟩
      exact ⟨rfl, next⟩
  | succ left =>
      refine .enter_succ (respawned.holds_enterOnce.weaken ?_)
      rintro ⟨_, size⟩ after left ⟨rfl, next⟩
      exact ⟨rfl, next⟩

theorem Holds.never {α : Type} {halts : Halt → Prop} {work : Walk α}
    {good : α → Progress → Context → Prop} (holds : Holds Never work state context good) :
    Holds halts work state context good :=
  holds.halting fun _ impossible => absurd impossible id

/-- No fuel is enough to visit the children of the root. -/
theorem Respawned.holds_visitChildren (respawned : Respawned context.tree root child)
    (unvisited : (context.tree.node child).state = .unvisited) (bound fuel : Nat) :
    Holds (· = .exhausted) (visitChildren respawning bound fuel root 0) state context fun _ _ _ => False := by
  induction fuel generalizing state context child with
  | zero => exact Eq.refl Halt.exhausted
  | succ fuel hypothesis =>
      have first : (context.tree.children root)[0]? = some child := by rw [respawned.only, List.getElem?_cons_zero]
      refine .visitChildren (fun ended => ?_) (fun next found _ => ?_) fun next found visited => ?_
      · cases first.symm.trans ended
      · obtain rfl := Option.some.inj (first.symm.trans found)
        have visits : Holds (· = .exhausted) (visit respawning bound fuel child 0) state context
            fun _ _ left => ∃ next, Respawned left.tree root next ∧
              (left.tree.node next).state = .unvisited := by
          cases fuel with
          | zero => exact Eq.refl Halt.exhausted
          | succ fuel =>
              exact .visit (respawned.holds_enter bound _).never (fun after left next => next.2)
                fun _ _ _ _ ⟨impossible, _⟩ => by cases impossible
        refine visits.bind ?_
        rintro _ after left ⟨next, respawned, unvisited⟩
        exact hypothesis respawned unvisited
      · obtain rfl := Option.some.inj (first.symm.trans found)
        exact absurd unvisited visited

/-- No fuel is enough to visit the root. -/
theorem Respawned.holds_visit (respawned : Respawned context.tree root child)
    (unvisited : (context.tree.node child).state = .unvisited) (bound fuel : Nat) :
    Holds (· = .exhausted) (visit respawning bound fuel root 0) state context fun _ _ _ => False := by
  cases fuel with
  | zero => exact Eq.refl Halt.exhausted
  | succ fuel =>
      have apart : child ≠ root := by
        rintro rfl
        have document := respawned.document
        rw [respawned.element] at document
        cases document
      have untagged : (context.tree.kind root).tag? = none := congrArg Kind.tag? respawned.document
      refine .visit (holds_enter_untagged untagged) (fun _ _ impossible => by cases impossible.1) ?_
      rintro next left after entered ⟨stays, rfl, rfl⟩
      obtain ⟨rfl, rfl⟩ := Prod.mk.inj (Option.some.inj stays.symm)
      refine holds_setState.bind ?_
      rintro _ after marked ⟨rfl, made⟩
      have shape : context.tree.SameShape marked.tree := by
        rw [made]
        exact (context.tree.sameShape_setState root .entering).trans (Tree.sameShape_setState _ root .entered)
      have waits : (marked.tree.node child).state = .unvisited := by
        rw [made, Tree.state_setState_of_ne apart, Tree.state_setState_of_ne apart, unvisited]
      refine ((respawned.congr shape).holds_visitChildren waits bound fuel).bind ?_
      exact fun _ _ _ impossible => impossible.elim

theorem Respawned.walk (respawned : Respawned context.tree root child)
    (unvisited : (context.tree.node child).state = .unvisited) (fuel : Nat) :
    (context.walk respawning fuel root).1 = .error .exhausted := by
  have started : Holds (· = .exhausted) (start respawning fuel root) {} context fun _ _ _ => False := by
    unfold start
    refine holds_context.bind ?_
    rintro _ state context ⟨rfl, rfl, rfl⟩
    refine (holds_markAll _).bind ?_
    rintro _ after marked ⟨rfl, -, shape, states⟩
    refine (respawned.congr shape).holds_visit ?_ _ fuel
    rw [states, unvisited, ite_self]
  unfold Holds at started
  unfold Context.walk
  generalize start respawning fuel root {} context = result at started ⊢
  rcases result with ⟨⟨halt | value, after⟩, final⟩
  · obtain rfl := started
    rfl
  · exact started.elim

end Walk

/-- The transform is honest, and still no fuel is enough for a walk over a document with one node of the
tag, whatever the options are. -/
theorem Context.walk_respawn :
    let tree : Tree := { file := "page", nodes := [
      { kind := .document, children := [⟨1⟩] }, { kind := .element "again", parent := some ⟨0⟩ }] }
    tree.WellFormed ∧ (∀ transform, Walk.respawning.Declares transform → transform.Honest) ∧
      ∀ options fuel, ((Context.start tree options Walk.respawning).walk Walk.respawning fuel ⟨0⟩).1 =
        .error .exhausted := by
  intro tree
  have wellFormed : tree.WellFormed := by
    let bare : Tree := { file := "page", nodes := [{ kind := .document }, { kind := .element "again" }] }
    have unlinked : bare.WellFormed := Tree.wellFormed_of_unlinked (by simp [bare])
    have appended : bare.append ⟨0⟩ ⟨1⟩ = .ok tree := rfl
    exact Tree.Edited.wellFormed (.append (by decide) (by decide) appended) unlinked
  refine ⟨wellFormed, fun transform declared => ?_, fun options fuel => ?_⟩
  · obtain rfl := List.mem_singleton.1 (Registry.declares_ofTag.1 declared)
    exact Transform.respawn_honest
  · have respawned : Walk.Respawned tree ⟨0⟩ ⟨1⟩ := ⟨wellFormed, rfl, rfl, rfl, rfl⟩
    exact respawned.walk rfl fuel

end HtmlTemplate
