import HtmlTemplate.Proofs.Desugaring.Loose
import HtmlTemplate.Proofs.Desugaring.Roots
import HtmlTemplate.Proofs.Tree.Ancestry

/-!
# Walking again

A walk with the core taglib that succeeds leaves nothing that another one would change. It never succeeds from a
control tag without a parent.
-/

namespace HtmlTemplate
namespace Walk

open Construct Control HtmlTemplate.Tree

variable {id root : NodeId} {state : Progress} {context : Context} {laws : Laws} {left limit bound : Nat}
variable {before tree after : Tree} {form : Form}

/-! ## Control tags without parents -/

/-- A control tag without a parent. -/
structure Stranded (tree : Tree) (id : NodeId) : Prop extends tree.Loose id where
  tagged : (tree.kind id).tag?.isSome = true
  control : (tree.kind id).isCommon = false

theorem Stranded.sameShape (stranded : Stranded before id) (shape : before.SameShape after) : Stranded after id where
  present := shape.has_iff.2 stranded.present
  detached := (shape.parent id).trans stranded.detached
  unlisted other := by
    rw [shape.children]
    exact stranded.unlisted other
  tagged := by
    rw [shape.kind]
    exact stranded.tagged
  control := by
    rw [shape.kind]
    exact stranded.control

theorem stranded_of_wellFormed (wellFormed : tree.WellFormed) (top : tree.parent id = none)
    (tagged : (tree.kind id).tag?.isSome = true) (control : (tree.kind id).isCommon = false) : Stranded tree id where
  present := by
    obtain ⟨tag, tagged⟩ := Option.isSome_iff_exists.1 tagged
    exact has_of_tag? tagged
  detached := top
  unlisted other member := by
    rw [wellFormed.linked, top] at member
    cases member
  tagged := tagged
  control := control

/-- The tag has got its modern name. -/
theorem Stranded.renamed {old : String} (stranded : Stranded before id) (older : Form.modernTag old ≠ old)
    (made : before.setKind id (.element (Form.modernTag old)) = .ok after) : Stranded after id := by
  obtain ⟨-, -, rfl⟩ := setKind_eq_ok_iff.1 made
  have kind : (before.update id fun node => { node with kind := .element (Form.modernTag old) }).kind id =
      .element (Form.modernTag old) := by
    rw [Tree.kind, node_update_self stranded.present]
  have parent : (before.update id fun node => { node with kind := .element (Form.modernTag old) }).parent id =
      before.parent id := field_update before id id Node.parent fun _ => rfl
  have children : ∀ other, (before.update id fun node => { node with kind := .element (Form.modernTag old) }).children other =
      before.children other := fun other => field_update before id other Node.children fun _ => rfl
  refine ⟨⟨(has_update _ _ _ _).2 stranded.present, parent.trans stranded.detached, fun other => ?_⟩, by rw [kind]; rfl, ?_⟩
  · rw [children]
    exact stranded.unlisted other
  · rw [kind, Kind.isCommon, Option.isNone_eq_false_iff, (Form.modernTag_modernTag older).1]

/-- All that may happen to such a tag without a fault is that it gets its modern name. -/
theorem Stranded.holds_applyFirst (stranded : Stranded context.tree id) :
    Holds (fun _ => True) (applyFirst id (transformsFor Registry.core context.tree id .enter)) state context
      fun outcome _ final => outcome = .changed ∧ Stranded final.tree id := by
  have stray : ∀ outcome after, (Conditional.refuseStray id).run context ≠ (.ok outcome, after) := by
    intro outcome after ran
    cases ran
  obtain ⟨tag, tagged⟩ := Option.isSome_iff_exists.1 stranded.tagged
  have older : ∀ {old new : String} {transforms : List Transform}, tag = old → Form.modernTag old = new → new ≠ old →
      Holds (fun _ => True) (applyFirst id ((olderName old new).declared ++ transforms)) state context
        fun outcome _ final => outcome = .changed ∧ Stranded final.tree id := by
    rintro old _ transforms rfl rfl different
    refine .applyFirst (fun _ _ _ => trivial) (fun middle ran => ?_) fun outcome middle ran _ => ?_
    all_goals
      obtain ⟨_, between, made, done⟩ := Edit.run_bind_eq_ok_iff.1 ran
      obtain ⟨tree, renamed, rfl⟩ := Edit.run_changeTree_eq_ok_iff.1 made
      obtain ⟨same, rfl⟩ := Edit.run_pure_eq_ok_iff.1 done
    · cases same
    · subst same
      exact ⟨rfl, stranded.renamed different renamed⟩
  cases found : entryOf tag with
  | none =>
      have common := Kind.isCommon_of_unknown tagged found
      rw [stranded.control] at common
      cases common
  | some entry =>
      rw [transformsFor_enter tagged found]
      obtain ⟨known, name⟩ := mem_entries_of_entryOf found
      simp only [entries, List.mem_cons, List.not_mem_nil, or_false] at known
      have refuses : ∀ outcome after, tag = "if" ∨ tag = "for" ∨ tag = "html-comment" →
          (Conditional.lower id).run context ≠ (.ok outcome, after) ∧
            (Iteration.lower id).run context ≠ (.ok outcome, after) ∧
              (Comment.lower id).run context ≠ (.ok outcome, after) := by
        intro outcome after named
        refine refuses_lower stranded.toLoose ?_
        rcases Kind.eq_of_tag? tagged with same | ⟨renderer, same⟩
        · rw [elementTag?, same]
          rfl
        · have control := stranded.control
          rw [same] at control
          rcases named with rfl | rfl | rfl <;> cases control
      rcases known with rfl | rfl | rfl | rfl | rfl | rfl | rfl | rfl | rfl
      · exact holds_applyFirst_refused fun outcome after => (refuses outcome after (.inl name.symm)).1
      · exact holds_applyFirst_refused stray
      · exact holds_applyFirst_refused stray
      · exact holds_applyFirst_refused fun outcome after => (refuses outcome after (.inr (.inl name.symm))).2.1
      · exact holds_applyFirst_refused fun outcome after => (refuses outcome after (.inr (.inr name.symm))).2.2
      · exact older name.symm rfl (by decide)
      · exact older name.symm rfl (by decide)
      · exact older name.symm rfl (by decide)
      · exact older name.symm rfl (by decide)

theorem Stranded.holds_enterOnce (stranded : Stranded context.tree id) :
    Holds (fun _ => True) (enterOnce Registry.core id) state context fun result _ final =>
      result.1 = .changed ∧ Stranded final.tree id := by
  have entering := sameShape_setState context.tree id .entering
  refine .enterOnce (holds_checkTag.halting fun _ _ => trivial) fun after middle checked => .runPhase ?_
  exact ((stranded.sameShape entering).sameShape checked.shape).holds_applyFirst

/-- The walk never gets past a control tag without a parent. -/
theorem Stranded.holds_enter (stranded : Stranded context.tree id) :
    Holds (fun _ => True) (enter Registry.core bound left id) state context fun _ _ _ => False := by
  induction left generalizing state context with
  | zero =>
      refine .enter_zero (stranded.holds_enterOnce.weaken ?_)
      rintro ⟨_, size⟩ after final ⟨rfl, -⟩
      exact trivial
  | succ left hypothesis =>
      refine .enter_succ (stranded.holds_enterOnce.weaken ?_)
      rintro ⟨_, size⟩ after final ⟨rfl, stranded⟩
      exact hypothesis stranded

theorem Stranded.holds_start (stranded : Stranded context.tree root) (wellFormed : context.tree.WellFormed) (fuel : Nat) :
    Holds (fun _ => True) (start Registry.core fuel root) {} context fun _ _ _ => False := by
  refine @holds_start_begun root context { bound := context.options.maxTransformPasses, allows := context.options.allowUnknownTags }
    _ _ (fun _ _ _ => False) wellFormed rfl trivial (fun state marked begun => ?_) (fun _ _ _ _ _ never => never.elim) fuel
  exact (stranded.sameShape begun.shape).holds_enter.weaken fun _ _ _ never => never.elim

/-! ## Trees in which nothing is to be changed -/

/-- All that is below the node stays as it is, and may be passed. -/
def Still (laws : Laws) (tree : Tree) (root : NodeId) : Prop :=
  ∀ id, tree.OnPath root id → Idle tree id ∧ laws.passes (tree.kind id) = true

/-- Nothing but marks has changed, and no transform was counted. -/
structure Unmoved (state : Progress) (context : Context) (later : Progress) (final : Context) : Prop where
  lawful : Lawful context final
  shape : context.tree.SameShape final.tree
  applied : later.applied = state.applied

theorem Unmoved.trans {middle final : Context} {between later : Progress} (first : Unmoved state context between middle)
    (second : Unmoved between middle later final) : Unmoved state context later final :=
  ⟨first.lawful.trans second.lawful, first.shape.trans second.shape, second.applied.trans first.applied⟩

theorem holds_setState_unmoved {halts : Halt → Prop} (id : NodeId) (mark : WalkState) :
    Holds halts (setState id mark) state context fun _ => Unmoved state context :=
  ⟨⟨rfl, rfl⟩, sameShape_setState context.tree id mark, rfl⟩

/-- A visit in a still tree moves nothing. -/
def StillVisit (laws : Laws) (tree : Tree) (root : NodeId) (fuel : Nat) : Prop :=
  ∀ id passes state context, Governed laws context → tree.SameShape context.tree → tree.OnPath root id → tree.Has id →
    Holds (fun halt => halt = .exhausted) (visit Registry.core laws.bound fuel id passes) state context
      fun _ => Unmoved state context

/-- Visits of children in a still tree move nothing. -/
def StillChildren (laws : Laws) (tree : Tree) (root : NodeId) (fuel : Nat) : Prop :=
  ∀ id index state context, Governed laws context → tree.SameShape context.tree → tree.OnPath root id →
    Holds (fun halt => halt = .exhausted) (visitChildren Registry.core laws.bound fuel id index) state context
      fun _ => Unmoved state context

theorem Still.visit {fuel : Nat} (still : Still laws tree root) (children : StillChildren laws tree root fuel) :
    StillVisit laws tree root (fuel + 1) := by
  intro id passes state context governed shape onPath present
  obtain ⟨idle, allowed⟩ := still id onPath
  rw [← shape.kind] at allowed
  have enters := @Idle.holds_enter id { state with visited := state.visited + 1 } context laws
    (laws.bound - max passes (state.startOf id)) laws.bound (idle.sameShape shape) governed (shape.has_iff.2 present)
  refine .visit (enters.halting fun halt refused => ?_) (fun _ _ impossible => by cases impossible.2.1) ?_
  · rw [allowed] at refused
    cases refused.2
  rintro next left after entered ⟨-, stays, noted⟩
  obtain ⟨rfl, rfl⟩ := Prod.mk.inj (Option.some.inj stays.symm)
  have moved : Unmoved state context after entered := ⟨noted.lawful, noted.remarked.shape, noted.applied⟩
  refine (holds_setState_unmoved id .entered).bind ?_
  rintro _ after entered next
  have moved := moved.trans next
  refine (children id 0 after entered (governed.lawful moved.lawful) (shape.trans moved.shape) onPath).bind ?_
  rintro _ after visited next
  have moved := moved.trans next
  refine (holds_setState_unmoved id .exiting).bind ?_
  rintro _ after exiting next
  have moved := moved.trans next
  refine (holds_leave_core fuel).weaken ?_
  rintro _ _ _ ⟨rfl, rfl⟩
  exact moved.trans ⟨⟨rfl, rfl⟩, sameShape_setState exiting.tree id .settled, rfl⟩

theorem stillChildren {fuel : Nat} (wellFormed : tree.WellFormed) (visits : StillVisit laws tree root fuel)
    (onward : StillChildren laws tree root fuel) : StillChildren laws tree root (fuel + 1) := by
  intro id index state context governed shape onPath
  refine .visitChildren (fun _ => ⟨.refl _, .refl _, rfl⟩) (fun child listed _ => ?_)
    fun _ _ _ => onward id (index + 1) state context governed shape onPath
  rw [shape.children] at listed
  have member := List.mem_of_getElem? listed
  have below : tree.OnPath root child := onPath.trans (.step ((wellFormed.linked id child).1 member) .self)
  refine (visits child 0 state context governed shape below (wellFormed.has_child member)).bind ?_
  rintro _ after visited moved
  refine (onward id index after visited (governed.lawful moved.lawful) (shape.trans moved.shape) onPath).weaken ?_
  exact fun _ _ _ next => moved.trans next

/-- A walk over a still tree moves nothing. The induction is on the fuel. -/
theorem Still.stillVisit (still : Still laws tree root) (wellFormed : tree.WellFormed) (fuel : Nat) :
    StillVisit laws tree root fuel := by
  suffices both : StillVisit laws tree root fuel ∧ StillChildren laws tree root fuel from both.1
  induction fuel with
  | zero => exact ⟨fun _ _ _ _ _ _ _ _ => rfl, fun _ _ _ _ _ _ _ => rfl⟩
  | succ fuel hypothesis => exact ⟨still.visit hypothesis.2, stillChildren wellFormed hypothesis.1 hypothesis.2⟩

theorem Still.holds_start (still : Still laws context.tree root) (wellFormed : context.tree.WellFormed)
    (governed : Governed laws context) (bounded : laws.bound = context.options.maxTransformPasses)
    (present : context.tree.Has root) (fuel : Nat) :
    Holds (fun halt => halt = .exhausted) (start Registry.core fuel root) {} context fun _ => Unmoved {} context := by
  unfold start
  refine holds_context.bind ?_
  rintro _ state context ⟨rfl, rfl, rfl⟩
  refine Holds.bind (@Holds.and _ _ _ (fun _ => False) _ _ _ _ (holds_markAll _) (holds_markAll_kept _)) ?_
  rintro _ _ marked ⟨⟨rfl, options, shape, -⟩, rules, -⟩
  have lawful : Lawful context marked := ⟨options, rules⟩
  rw [← bounded]
  refine (still.stillVisit wellFormed fuel root 0 {} marked (governed.lawful lawful) shape .self present).weaken ?_
  exact fun _ _ _ moved => Unmoved.trans ⟨lawful, shape, rfl⟩ moved

/-! ## What walks leave -/

/-- Nothing of a node is to be changed if nothing of its form is to be rewritten. -/
theorem idle_of_isCalm (shown : tree.Shows limit form id) (calm : form.IsCalm laws) :
    Idle tree id ∧ laws.passes (tree.kind id) = true := by
  obtain ⟨-, kind, attributes, -⟩ := shows_iff.1 shown
  refine ⟨⟨fun tagged => ?_, fun tagged _ => ?_⟩, ?_⟩
  · obtain ⟨tag, tagged⟩ := Option.isSome_iff_exists.1 tagged
    rw [kind] at tagged ⊢
    rcases Kind.eq_of_tag? tagged with same | ⟨renderer, same⟩
    · rw [same, Kind.isCommon, (calm.element tag same).1]
      rfl
    · obtain ⟨modern, first, second⟩ := calm.customTag tag renderer same
      rw [same]
      simp [Kind.isCommon, modern, first, second]
  · rw [attributes]
    exact calm.bare (by rw [← kind]; exact tagged)
  · rw [kind]
    cases same : form.kind with
    | element tag => exact (calm.element tag same).2
    | _ => rfl

/-- Nothing is to be changed below a node if nothing of its form is to be rewritten. -/
theorem still_of_isDone (wellFormed : tree.WellFormed) (shown : tree.Shows limit form id) (done : form.IsDone laws) :
    Still laws tree id := by
  induction done generalizing id with
  | node calm _ hypothesis =>
      intro other onPath
      rcases Tree.onPath_iff_below.1 onPath with rfl | ⟨child, linked, under⟩
      · exact idle_of_isCalm shown calm
      · obtain ⟨-, -, -, kids⟩ := shows_iff.1 shown
        obtain ⟨kid, member, shown⟩ := exists_of_mem_right kids ((wellFormed.linked _ child).2 linked)
        exact hypothesis kid member shown other under

/-- What a walk leaves that succeeds: all below the root has settled and is to stay. -/
structure AtRest (laws : Laws) (root : NodeId) (context final : Context) : Prop where
  lawful : Lawful context final
  wellFormed : final.tree.WellFormed
  still : Still laws final.tree root
  settled : ∀ id, final.tree.OnPath root id → (final.tree.node id).state = .settled

theorem AtRest.has {final : Context} (rest : AtRest laws root context final) : final.tree.Has root := by
  by_contra absent
  have settled := rest.settled root .self
  rw [node_of_not_has absent] at settled
  cases settled

/-- The root stays, and what is below it comes to something. -/
theorem Leaves.atRest {final : Context} {below : List Form} (leaves : Leaves root (form.withChildren below) context final)
    (idle : Idle context.tree root) (was : context.tree.Shows limit form root)
    (passes : laws.passes (context.tree.kind root) = true)
    (done : ∀ child ∈ below, child.IsDone laws) :
    AtRest laws root context final := by
  have shown := leaves.shown
  cases form with
  | node source own given children =>
      obtain ⟨-, kindThere, given, -⟩ := shows_iff.1 was
      obtain ⟨-, kind, attributes, kids⟩ := shows_iff.1 shown
      have same : final.tree.kind root = context.tree.kind root := kind.trans kindThere.symm
      have bare : (final.tree.node root).attributes = (context.tree.node root).attributes := attributes.trans given.symm
      refine ⟨leaves.lawful, leaves.wellFormed, fun other onPath => ?_, fun other onPath =>
        (leaves.rests other onPath).settled⟩
      rcases Tree.onPath_iff_below.1 onPath with rfl | ⟨child, linked, under⟩
      · refine ⟨⟨?_, ?_⟩, by rw [same, passes]⟩
        · rw [same]
          exact idle.common
        · rw [same, leaves.parent, bare]
          exact idle.bare
      · obtain ⟨kid, member, shown⟩ := exists_of_mem_right kids ((leaves.wellFormed.linked _ child).2 linked)
        exact still_of_isDone leaves.wellFormed shown (done kid member) other under

/-- A walk leaves everything below its root at rest, unless the root is a control tag in another node. -/
theorem holds_start_rest (wellFormed : context.tree.WellFormed) (governed : Governed laws context)
    (bounded : laws.bound = context.options.maxTransformPasses) (present : context.tree.Has root)
    (stays : context.tree.parent root ≠ none → (context.tree.kind root).tag?.isSome = true →
      (context.tree.kind root).isCommon = true) (fuel : Nat) :
    Holds (fun _ => True) (start Registry.core fuel root) {} context fun _ _ final => AtRest laws root context final := by
  have ofIdle : Idle context.tree root → Holds (fun _ => True) (start Registry.core fuel root) {} context
      fun _ _ final => AtRest laws root context final := by
    intro idle
    refine (holds_start_stays wellFormed governed bounded present idle (fun _ _ _ => trivial) (fun _ _ => trivial)
      fuel).weaken ?_
    rintro _ _ final ⟨passes, below, settles, leaves⟩
    exact leaves.atRest idle (wellFormed.shows_form context.tree.size root) passes (Form.isDone_of_settle settles)
  cases tagged : (context.tree.kind root).tag?.isSome with
  | false =>
      have untagged : (context.tree.kind root).tag?.isSome ≠ true := by simp [tagged]
      exact ofIdle ⟨fun isTag => absurd isTag untagged, fun isTag => absurd isTag untagged⟩
  | true =>
      cases linked : context.tree.parent root with
      | none =>
          cases common : (context.tree.kind root).isCommon with
          | true => exact ofIdle ⟨fun _ => common, fun _ attached => absurd linked attached⟩
          | false =>
              have never := (stranded_of_wellFormed wellFormed linked tagged common).holds_start wellFormed fuel
              exact never.weaken fun _ _ _ impossible => impossible.elim
      | some host =>
          have common := stays (by rw [linked]; exact Option.some_ne_none host) tagged
          refine (holds_start_common wellFormed governed bounded linked common fuel).weaken ?_
          rintro _ _ final ⟨lawful, sound, new, form, shown, done, onPath, rests⟩
          have still := still_of_isDone sound shown done
          exact ⟨lawful, sound, fun other under => still other (onPath.trans under),
            fun other under => (rests other (onPath.trans under)).settled⟩

/-- Nothing at rest is an element with a control tag. -/
theorem AtRest.unknown {final : Context} {tag : String} (rest : AtRest laws root context final)
    (onPath : final.tree.OnPath root id) (element : final.tree.kind id = .element tag) : entryOf tag = none := by
  have common := (rest.still id onPath).1.common (by rw [element]; rfl)
  rw [element] at common
  exact Option.isNone_iff_eq_none.1 common

/-- Nothing at rest below the root has directives. -/
theorem AtRest.bare {final : Context} (rest : AtRest laws root context final) (onPath : final.tree.OnPath root id)
    (below : id ≠ root) (tagged : (final.tree.kind id).tag?.isSome = true) :
    final.tree.attribute? id "if" = none ∧
      ∀ given, final.tree.attribute? id "for" = some given → Form.isHeader given = false := by
  have linked : final.tree.parent id ≠ none := by
    rcases onPath_iff.1 onPath with rfl | ⟨parent, linked, -⟩
    · exact absurd rfl below
    · rw [linked]
      exact Option.some_ne_none parent
  have none := (rest.still id onPath).1.bare tagged linked
  have attributes : (final.tree.node id).attributes = (final.tree.formWithin 0 0 id).attributes := rfl
  rw [attributes] at none
  obtain ⟨header, condition⟩ := Form.directives_eq_zero_iff.1 none
  refine ⟨by rw [Tree.attribute?, attribute?_eq attributes, condition], fun given carried => ?_⟩
  rw [Tree.attribute?, attribute?_eq attributes] at carried
  exact Form.loopHeader?_eq_none_iff.1 header given carried

/-- A walk over what is at rest succeeds if it has enough fuel, and moves nothing. -/
theorem AtRest.again {final : Context} (rest : AtRest laws root context final) (governed : Governed laws final)
    (bounded : laws.bound = final.options.maxTransformPasses) :
    ∃ enough, ∀ fuel, enough ≤ fuel → ∃ again last, final.walk Registry.core fuel root = (.ok again, last) ∧
      again.applied = 0 ∧ final.tree.SameShape last.tree := by
  obtain ⟨enough, result, same, meets⟩ : Settles IsFault (fun fuel => start Registry.core fuel root) {} final fun _ _ _ => True :=
    tame_core.settles_start rest.wellFormed root
  refine ⟨enough, fun fuel large => ?_⟩
  have moves := rest.still.holds_start rest.wellFormed governed bounded rest.has fuel
  have walked : start Registry.core fuel root {} final = result := same fuel large
  unfold Holds at moves
  rw [walked] at moves
  rw [Context.walk, walked]
  rcases result with ⟨⟨halt | value, again⟩, last⟩
  · obtain ⟨fault, rfl⟩ := meets
    cases moves
  · exact ⟨again, last, rfl, moves.applied, moves.shape⟩

end Walk

/-- Walks with the core taglib are idempotent, from every root but a control tag in another node. If a walk succeeds,
all that is below the root has settled, no element there has a control tag, and no tag there but the root has a
condition or a loop header. Given enough fuel, another walk succeeds without a change. -/
theorem Context.walk_idempotent {tree : Tree} {options : Options} {root : NodeId} {fuel : Nat} {progress : Progress}
    {final : Context} (wellFormed : tree.WellFormed) (present : tree.Has root)
    (stays : tree.parent root ≠ none → (tree.kind root).tag?.isSome = true → (tree.kind root).isCommon = true)
    (walked : (Context.start tree options Registry.core).walk Registry.core fuel root = (.ok progress, final)) :
    (∀ id, final.tree.OnPath root id → (final.tree.node id).state = .settled) ∧
    (∀ id tag, final.tree.OnPath root id → final.tree.kind id = .element tag →
      tag ∉ ["if", "else-if", "else", "for", "html-comment", "c-if", "c-else-if", "c-else", "c-for"]) ∧
    (∀ id, final.tree.OnPath root id → id ≠ root → (final.tree.kind id).tag?.isSome = true →
      final.tree.attribute? id "if" = none ∧
        ∀ given, final.tree.attribute? id "for" = some given → given.value.isStatic = true →
          LoopHeader.parse? given.value.asCode = none) ∧
    ∃ enough, ∀ fuel, enough ≤ fuel → ∃ again last, final.walk Registry.core fuel root = (.ok again, last) ∧
      again.applied = 0 ∧ final.tree.SameShape last.tree := by
  let laws : Laws := { bound := options.maxTransformPasses, allows := options.allowUnknownTags }
  have governed : Walk.Governed laws (Context.start tree options Registry.core) :=
    ⟨rfl, funext fun tag => congrArg (Option.map TagEntry.rules) (Control.lookup?_core tag tree.file)⟩
  have rests := @Walk.holds_start_rest root (Context.start tree options Registry.core) laws wellFormed governed rfl present
    stays fuel
  have rest : Walk.AtRest laws root (Context.start tree options Registry.core) final := by
    unfold Walk.Holds at rests
    rw [Context.walk] at walked
    generalize Walk.start Registry.core fuel root {} (Context.start tree options Registry.core) = result at rests walked
    rcases result with ⟨⟨halt | value, after⟩, last⟩
    · cases walked
    · obtain ⟨-, rfl⟩ := Prod.mk.inj walked
      exact rests
  refine ⟨rest.settled, fun id tag onPath element listed => ?_, fun id onPath below tagged => ?_,
    rest.again (governed.lawful rest.lawful) (congrArg Options.maxTransformPasses rest.lawful.options).symm⟩
  · have known := Walk.isSome_entryOf listed
    rw [rest.unknown onPath element] at known
    cases known
  · obtain ⟨condition, header⟩ := rest.bare onPath below tagged
    refine ⟨condition, fun given carried isStatic => ?_⟩
    have refused := header given carried
    rw [Form.isHeader, isStatic, Bool.true_and] at refused
    exact Option.isNone_iff_eq_none.1 (by simpa using refused)

/-- An item in a loop around a condition. -/
theorem Context.walk_idempotent_item :
    let tree : Tree := { file := "page", nodes := [{ kind := .document, children := [⟨1⟩] },
      { kind := .element "li", parent := some ⟨0⟩, attributes := [
        { name := "if", value := { raw := "x", segments := [.static "x"] }, position := {} },
        { name := "for", value := { raw := "x in xs", segments := [.static "x in xs"] }, position := {} }] }] }
    ∃ progress final, (Context.start tree {} Registry.core).walk Registry.core 19 ⟨0⟩ = (.ok progress, final) ∧
      progress.applied = 2 ∧ (∀ id, final.tree.OnPath ⟨0⟩ id → (final.tree.node id).state = .settled) ∧
        ∃ enough, ∀ fuel, enough ≤ fuel → ∃ again last, final.walk Registry.core fuel ⟨0⟩ = (.ok again, last) ∧
          again.applied = 0 ∧ final.tree.SameShape last.tree := by
  intro tree
  have wellFormed : tree.WellFormed := Tree.Ordered.wellFormed (by decide)
  have ends : ((Context.start tree {} Registry.core).walk Registry.core 19 ⟨0⟩).1.toOption.map Progress.applied = some 2 := by
    decide +kernel
  generalize walked : (Context.start tree {} Registry.core).walk Registry.core 19 ⟨0⟩ = result at ends
  rcases result with ⟨_ | progress, final⟩
  · cases ends
  · obtain ⟨settled, -, -, again⟩ := Context.walk_idempotent wellFormed (by decide) (fun linked => absurd rfl linked) walked
    exact ⟨progress, final, rfl, Option.some.inj ends, settled, again⟩

/-- A walk from a control tag in another node leaves the tag behind, where a second one fails; and a loop header behind
one that is none stays. -/
theorem Context.walk_again_fails :
    let test : Attribute := { name := "test", value := { raw := "x", segments := [.static "x"] }, position := {} }
    let nested : Tree := { file := "page", nodes := [{ kind := .document, children := [⟨1⟩] },
      { kind := .element "if", parent := some ⟨0⟩, attributes := [test] }] }
    let label : Attribute := { name := "for", value := { raw := "email", segments := [.static "email"] }, position := {} }
    let header : Attribute := { name := "for", value := { raw := "x in xs", segments := [.static "x in xs"] }, position := {} }
    let twice : Tree := { file := "page", nodes := [{ kind := .document, children := [⟨1⟩] },
      { kind := .element "p", parent := some ⟨0⟩, attributes := [label, header] }] }
    (nested.WellFormed ∧ ∃ progress final fault,
      (Context.start nested {} Registry.core).walk Registry.core 9 ⟨1⟩ = (.ok progress, final) ∧
        final.tree.kind ⟨1⟩ = .element "if" ∧ (final.tree.node ⟨1⟩).state = .unvisited ∧
          (final.walk Registry.core 9 ⟨1⟩).1 = .error (.fault fault)) ∧
    twice.WellFormed ∧ ∃ progress final,
      (Context.start twice {} Registry.core).walk Registry.core 9 ⟨0⟩ = (.ok progress, final) ∧ final.tree.OnPath ⟨0⟩ ⟨1⟩ ∧
        header ∈ (final.tree.node ⟨1⟩).attributes ∧ Form.isHeader header = true := by
  intro test nested label header twice
  refine ⟨⟨Tree.Ordered.wellFormed (by decide), ?_⟩, Tree.Ordered.wellFormed (by decide), ?_⟩
  · have ends : ((Context.start nested {} Registry.core).walk Registry.core 9 ⟨1⟩).1.isOk = true := by decide +kernel
    have kind : ((Context.start nested {} Registry.core).walk Registry.core 9 ⟨1⟩).2.tree.kind ⟨1⟩ = .element "if" := by
      decide +kernel
    have waits : (((Context.start nested {} Registry.core).walk Registry.core 9 ⟨1⟩).2.tree.node ⟨1⟩).state = .unvisited := by
      decide +kernel
    have fails : (Walk.faultOf
        (((Context.start nested {} Registry.core).walk Registry.core 9 ⟨1⟩).2.walk Registry.core 9 ⟨1⟩).1).isSome = true := by
      decide +kernel
    generalize (Context.start nested {} Registry.core).walk Registry.core 9 ⟨1⟩ = result at ends kind waits fails
    rcases result with ⟨_ | progress, final⟩
    · cases ends
    · dsimp only at kind waits fails
      obtain ⟨fault, failed⟩ := Walk.eq_fault_of_faultOf fails
      exact ⟨progress, final, fault, rfl, kind, waits, failed⟩
  · have ends : ((Context.start twice {} Registry.core).walk Registry.core 9 ⟨0⟩).1.isOk = true := by decide +kernel
    have linked : ((Context.start twice {} Registry.core).walk Registry.core 9 ⟨0⟩).2.tree.parent ⟨1⟩ = some ⟨0⟩ := by
      decide +kernel
    have stays : header ∈ (((Context.start twice {} Registry.core).walk Registry.core 9 ⟨0⟩).2.tree.node ⟨1⟩).attributes := by
      decide +kernel
    generalize (Context.start twice {} Registry.core).walk Registry.core 9 ⟨0⟩ = result at ends linked stays
    rcases result with ⟨_ | progress, final⟩
    · cases ends
    · exact ⟨progress, final, rfl, .step linked .self, stays, by decide +kernel⟩

end HtmlTemplate
