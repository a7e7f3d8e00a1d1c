import HtmlTemplate.Compiler
import HtmlTemplate.Proofs.Placement.Demand
import HtmlTemplate.Proofs.Placement.Tameness
import HtmlTemplate.Proofs.Tree.Relinking

/-!
# Walks over templates

A walk with the core taglib over a template keeps the demands of its nodes below what is left to them, so no
node changes too often, and the walk stops for what the template says only.
-/

namespace HtmlTemplate

namespace Walk

open Construct Control HtmlTemplate.Tree

variable {α : Type} {root id host : NodeId} {state : Progress} {context : Context} {bound left : Nat}

/-- The walk stops for lack of fuel, or for what the template says. -/
def StopsFairly (halt : Halt) : Prop :=
  halt = .exhausted ∨ ∃ fault, halt = .fault fault ∧ fault.OfTemplate

theorem stopsFairly_fault {fault : Fault} (ofTemplate : fault.OfTemplate) : StopsFairly (.fault fault) :=
  .inr ⟨fault, rfl, ofTemplate⟩

/-! ## Checks -/

theorem Rejected.stopsFairly {registry : Registry} {halt : Halt} (rejected : Rejected registry id context halt) :
    StopsFairly halt := by
  cases rejected with
  | unrecognized _ _ => exact stopsFairly_fault rfl
  | disallowed _ _ cause => exact stopsFairly_fault (by rw [Fault.OfTemplate, Fault.faultClass, cause]; rfl)

theorem fairly_checkTag (registry : Registry) :
    Holds StopsFairly (checkTag registry id) state context fun _ => OnlyChecked id state context :=
  Meets.weaken holds_checkTag_inspected (fun _ => Rejected.stopsFairly) fun _ _ _ => Inspected.onlyChecked

theorem Holds.and {halts others : Halt → Prop} {work : Walk α} {first second : α → Progress → Context → Prop}
    (left : Holds halts work state context first) (right : Holds others work state context second) :
    Holds others work state context fun value after context => first value after context ∧ second value after context := by
  unfold Holds at left right ⊢
  generalize work state context = result at left right ⊢
  rcases result with ⟨⟨halt | value, after⟩, final⟩
  · exact right
  · exact ⟨left, right⟩

/-! ## Transforms -/

/-- An element with another tag stands in its place. -/
theorem wellPlaced_update {tree : Tree} {tag : String} (placed : tree.WellPlaced) (present : tree.Has id)
    (kind : tree.kind id = .element tag) (new : String) :
    (tree.update id fun node => { node with kind := .element new }).WellPlaced := by
  have changed : (tree.update id fun node => { node with kind := .element new }).kind id = .element new := by
    rw [Tree.kind, node_update_self present]
  have kept : ∀ {other}, other ≠ id →
      (tree.update id fun node => { node with kind := .element new }).kind other = tree.kind other := by
    intro other different
    rw [Tree.kind, node_update_of_ne different, Tree.kind]
  intro parent
  have children : (tree.update id fun node => { node with kind := .element new }).children parent = tree.children parent :=
    field_update tree id parent Node.children fun _ => rfl
  rw [children]
  by_cases conditional : tree.kind parent = .conditional
  · have parentApart : parent ≠ id := by
      rintro rfl
      cases kind.symm.trans conditional
    have takes := placed parent
    rw [conditional, Kind.takes_conditional_iff] at takes
    rw [kept parentApart, conditional, Kind.takes_conditional_iff, List.map_congr_left fun child member => kept ?_]
    · exact takes
    · rintro rfl
      obtain ⟨test, branch⟩ := takes.exists_test (List.mem_map_of_mem member)
      cases kind.symm.trans branch
  · have outside : (tree.update id fun node => { node with kind := .element new }).kind parent ≠ .conditional := by
      by_cases same : parent = id
      · rw [same, changed]
        exact fun impossible => by cases impossible
      · rw [kept same]
        exact conditional
    rw [Kind.takes_iff_of_ne outside]
    intro other member
    obtain ⟨child, listed, rfl⟩ := List.mem_map.1 member
    by_cases same : child = id
    · rw [same, changed]
      rfl
    · rw [kept same]
      exact placed.isContent conditional listed

/-- A tag with an older name is given the name of a control tag. -/
theorem safely_rename {tag new : String} {entry control : TagEntry} (template : context.tree.IsTemplate root)
    (kind : context.tree.kind id = .element tag) (linked : context.tree.parent id = some host)
    (found : entryOf tag = some entry) (older : entry.rules.deprecated.isSome = true)
    (known : entryOf new = some control) (current : control.rules.deprecated = none) :
    Edit.Safely (do
      Edit.changeTree fun tree => tree.setKind id (.element new)
      return Outcome.changed) context fun outcome after =>
        outcome ≠ .unchanged ∧ Turn root id context.tree outcome after.tree := by
  have present := has_of_parent linked
  have demanded : demand context.tree id = 2 := demand_of_older (by rw [kind]; rfl) found older
  cases passes : (Kind.element new).check with
  | error cause =>
      have refused : context.tree.setKind id (.element new) =
          .error (context.tree.newFault (context.tree.node id).position cause) := by
        rw [Tree.setKind, Tree.requireKind, passes]
        rfl
      have ran : (Edit.changeTree fun tree => tree.setKind id (.element new)).run context =
          (.error (context.tree.newFault (context.tree.node id).position cause), context) := by
        rw [Edit.run_changeTree, refused]
      have first : Edit.Safely (Edit.changeTree fun tree => tree.setKind id (.element new)) context fun _ _ => False :=
        Edit.safely_of_error ran (Kind.ofTemplate_of_check passes)
      exact first.bind fun _ _ impossible => impossible.elim
  | ok done =>
      have made : context.tree.setKind id (.element new) = .ok _ := setKind_eq_ok_iff.2 ⟨passes, fun _ => rfl, rfl⟩
      have ran : (Edit.changeTree fun tree => tree.setKind id (.element new)).run context =
          (.ok (), { context with tree := context.tree.update id fun node => { node with kind := .element new } }) :=
        Edit.run_changeTree_eq_ok_iff.2 ⟨_, made, rfl⟩
      refine .step ran (Edit.safely_pure ⟨(fun impossible => by cases impossible), ?_⟩)
      have changed : (context.tree.update id fun node => { node with kind := .element new }).kind id = .element new := by
        rw [Tree.kind, node_update_self present]
      have kept : ∀ other, other ≠ id →
          (context.tree.update id fun node => { node with kind := .element new }).node other = context.tree.node other :=
        fun other different => node_update_of_ne different _
      have parents : ∀ other, (context.tree.update id fun node => { node with kind := .element new }).parent other =
          context.tree.parent other := fun other => field_update context.tree id other Node.parent fun _ => rfl
      have rootApart : root ≠ id := by
        rintro rfl
        cases kind.symm.trans template.document
      refine .changed ⟨⟨(Edited.setKind made).wellFormed template.wellFormed, wellPlaced_update template.placed present kind new,
        (has_update _ _ _ _).2 template.present, ?_, ?_, fun other tag tagged => ?_⟩, ?_, fun other different _ linked => ?_,
        fun other absent => ?_, ?_, fun _ => ?_⟩ ?_
      · rw [Tree.kind, kept root rootApart, ← Tree.kind, template.document]
      · rw [parents, template.top]
      · by_cases same : other = id
        · rw [same, changed] at tagged ⊢
          rw [← Option.some.inj tagged]
        · rw [Tree.kind, kept other same] at tagged ⊢
          exact template.plain other tag tagged
      · exact (size_update _ _ _).ge
      · rw [parents] at linked
        refine ⟨linked, ?_, ?_⟩
        · rw [Tree.kind, kept other different, Tree.kind]
        · rw [kept other different]
      · rw [kind_of_not_has (fun there => absent ((has_update _ _ _ _).1 there))]
        rfl
      · omega
      · have named : ((context.tree.update id fun node => { node with kind := .element new }).kind id).tag? = some new := by
          rw [changed]
          rfl
        exact (Nat.succ_le_succ (demand_of_control named known current).le).trans demanded.ge
      · rw [parents, linked]
        exact Option.some_ne_none host

/-- The transform of a tag of its own replaces or renames the tag. -/
theorem safely_own {entry : TagEntry} {own : Transform} {tag : String} (isOwn : Own entry own) (found : entryOf tag = some entry)
    (template : context.tree.IsTemplate root) (kind : context.tree.kind id = .element tag)
    (linked : context.tree.parent id = some host) :
    Edit.Safely (own.apply id) context fun outcome after =>
      outcome ≠ .unchanged ∧ Turn root id context.tree outcome after.tree := by
  cases isOwn with
  | older older known current applies =>
      rw [applies]
      exact safely_rename template kind linked found older known current
  | control current applies =>
      have allowed : 1 ≤ demand context.tree id := by
        rw [demand_of_control (by rw [kind]; rfl) found current]
      have done : ∀ outcome after, Replaces context host id outcome after →
          outcome ≠ .unchanged ∧ Turn root id context.tree outcome after.tree := by
        intro outcome after replaces
        refine ⟨?_, replaces.turn template (has_of_parent linked) allowed⟩
        obtain ⟨new, rfl, -⟩ := replaces
        exact fun impossible => by cases impossible
      rcases applies with same | same | same | same
      · rw [same]
        exact (safely_lowerIf template.wellFormed template.placed kind linked).weaken done
      · rw [same]
        exact (safely_lowerFor template.wellFormed template.placed kind linked).weaken done
      · rw [same]
        exact (safely_lowerComment template.wellFormed template.placed kind linked).weaken done
      · rw [same]
        exact .step (Edit.run_tree context) (Edit.safely_failAt rfl)

/-- One transform after the other: the first one that changes the node ends the round. -/
theorem holds_applyFirst_cons {transform : Transform} {transforms : List Transform} {passes : Prop}
    (safely : Edit.Safely (transform.apply id) context fun outcome after =>
      (outcome = .unchanged ∧ after = context ∧ passes) ∨
        outcome ≠ .unchanged ∧ Turn root id context.tree outcome after.tree)
    (goesOn : passes → Holds StopsFairly (applyFirst id transforms) state context fun outcome after left =>
      after.carried = state.carried ∧ Turn root id context.tree outcome left.tree) :
    Holds StopsFairly (applyFirst id (transform :: transforms)) state context fun outcome after left =>
      after.carried = state.carried ∧ Turn root id context.tree outcome left.tree := by
  unfold Edit.Safely at safely
  refine .applyFirst (fun fault _ ran => ?_) (fun middle ran => ?_) fun outcome middle ran reports => ?_
  · rw [ran] at safely
    exact stopsFairly_fault safely
  · rw [ran] at safely
    rcases safely with ⟨-, rfl, passes⟩ | ⟨reports, -⟩
    · exact goesOn passes
    · exact absurd rfl reports
  · rw [ran] at safely
    cases (safely.resolve_left fun rests => reports rests.1).2 with
    | unchanged _ => exact absurd rfl reports
    | changed advanced attached => exact ⟨rfl, .changed advanced attached⟩
    | replaced advanced absent different attached =>
        exact holds_confirm_replaced different attached ⟨rfl, .replaced advanced absent different attached⟩

/-- The transforms for entering a node of a template, which has a parent if it has a tag. -/
theorem holds_applyFirst_core (template : context.tree.IsTemplate root)
    (attached : (context.tree.kind id).tag? ≠ none → context.tree.parent id ≠ none) :
    Holds StopsFairly (applyFirst id (transformsFor Registry.core context.tree id .enter)) state context
      fun outcome after left => after.carried = state.carried ∧ Turn root id context.tree outcome left.tree := by
  have nothing : Holds StopsFairly (applyFirst id []) state context fun outcome after left =>
      after.carried = state.carried ∧ Turn root id context.tree outcome left.tree := ⟨rfl, .unchanged (.refl _)⟩
  cases tagged : (context.tree.kind id).tag? with
  | none =>
      rw [transformsFor_of_untagged tagged]
      exact nothing
  | some tag =>
      obtain ⟨host, linked⟩ := Option.ne_none_iff_exists'.1 (attached (by rw [tagged]; exact Option.some_ne_none tag))
      have present := has_of_parent linked
      have kind := template.plain id tag tagged
      rcases (transformsFor_core tagged).2 with ⟨unknown, transforms⟩ | ⟨entry, own, found, isOwn, transforms⟩
      · rw [transforms]
        refine holds_applyFirst_cons ?_ fun _ : True => nothing
        refine (safely_lowerDirective template.wellFormed template.placed kind linked).weaken ?_
        rintro outcome after (⟨same, left⟩ | encloses)
        · exact .inl ⟨same, left, trivial⟩
        · refine .inr ⟨?_, encloses.turn template present tagged unknown⟩
          obtain ⟨new, -, rfl, -⟩ := encloses
          exact fun impossible => by cases impossible
      · rw [transforms]
        refine holds_applyFirst_cons (safely_own isOwn found template kind linked |>.weaken fun _ _ turn => .inr turn)
          False.elim

/-! ## Demands and counts -/

/-- The tree is a template, and the nodes below others may change as often as their transforms ask for. -/
structure Ready (root : NodeId) (bound : Nat) (state : Progress) (tree : Tree) : Prop where
  template : tree.IsTemplate root
  affords : ∀ id, tree.parent id ≠ none → demand tree id ≤ bound - state.startOf id

theorem demand_sameShape {before after : Tree} (shape : before.SameShape after) (id : NodeId) :
    demand after id = demand before id :=
  demand_congr (shape.kind id) (shape.attributes id)

theorem isTemplate_sameShape {before after : Tree} (shape : before.SameShape after) (template : before.IsTemplate root) :
    after.IsTemplate root where
  wellFormed := shape.wellFormed template.wellFormed
  placed := shape.wellPlaced template.placed
  present := shape.has_iff.2 template.present
  document := (shape.kind root).trans template.document
  top := (shape.parent root).trans template.top
  plain := by
    intro id tag
    rw [shape.kind]
    exact template.plain id tag

namespace Ready

variable {before after : Tree} {next : Progress}

theorem sameShape (ready : Ready root bound state before) (shape : before.SameShape after)
    (carried : next.carried = state.carried) : Ready root bound next after where
  template := isTemplate_sameShape shape ready.template
  affords := by
    intro id
    rw [shape.parent, demand_sameShape shape, Progress.startOf, carried]
    exact ready.affords id

/-- After a change what the change made has counts handed on to it. -/
theorem advance (ready : Ready root bound state before) (advanced : Advanced root id before after)
    (attached : before.parent id ≠ none) (passes : Nat) :
    Ready root bound (state.inherit before.size after.size passes) after where
  template := advanced.template
  affords := by
    intro other linked
    by_cases present : before.Has other
    · rw [startOf_inherit_of_lt present]
      by_cases same : other = id
      · have lowered := advanced.lowered (same ▸ linked)
        have enough := ready.affords id attached
        rw [same]
        omega
      · obtain ⟨was, kind, attributes⟩ := advanced.others other same present linked
        rw [demand_congr kind attributes]
        exact ready.affords other was
    · rw [demand_of_untagged (advanced.fresh other present)]
      exact Nat.zero_le _

/-- A node that was replaced goes on from its count. -/
theorem setAside (ready : Ready root bound state before) (within : left ≤ bound)
    (enough : before.parent id ≠ none → demand before id ≤ left) :
    Ready root bound (state.carry id (bound - left)) (before.setState id .unvisited) where
  template := isTemplate_sameShape (before.sameShape_setState id .unvisited) ready.template
  affords := by
    intro other
    have shape := before.sameShape_setState id .unvisited
    rw [shape.parent, demand_sameShape shape]
    intro linked
    by_cases same : other = id
    · rw [same, startOf_carry_self]
      have demanded := enough (same ▸ linked)
      omega
    · rw [startOf_carry_of_ne same]
      exact ready.affords other linked

end Ready

theorem attached_of_allowed {tree : Tree} (allowed : 1 ≤ demand tree id)
    (attached : (tree.kind id).tag? ≠ none → tree.parent id ≠ none) : tree.parent id ≠ none := by
  refine attached fun untagged => ?_
  rw [demand_of_untagged untagged] at allowed
  exact absurd allowed (by decide)

/-! ## Entering -/

theorem holds_enterOnce_core (template : context.tree.IsTemplate root)
    (attached : (context.tree.kind id).tag? ≠ none → context.tree.parent id ≠ none) :
    Holds StopsFairly (enterOnce Registry.core id) state context fun result after final =>
      after.carried = state.carried ∧ ∃ entered, context.tree.SameShape entered ∧ result.2 = entered.size ∧
        Turn root id entered result.1 final.tree := by
  refine .enterOnce (fairly_checkTag Registry.core) fun checked entered marks => ?_
  have shape : context.tree.SameShape entered.tree := (context.tree.sameShape_setState id .entering).trans marks.shape
  have attached : (entered.tree.kind id).tag? ≠ none → entered.tree.parent id ≠ none := by
    rw [shape.kind, shape.parent]
    exact attached
  refine .runPhase ((holds_applyFirst_core (isTemplate_sameShape shape template) attached).weaken ?_)
  rintro outcome after final ⟨kept, turn⟩
  exact ⟨kept.trans marks.carried, entered.tree, shape, rfl, turn⟩

/-- A node that may change as often as its transforms ask for settles. The induction is on what is left to it. -/
theorem holds_enter_core (within : left ≤ bound) (ready : Ready root bound state context.tree)
    (attached : (context.tree.kind id).tag? ≠ none → context.tree.parent id ≠ none)
    (enough : demand context.tree id ≤ left) :
    Holds StopsFairly (enter Registry.core bound left id) state context fun _ after final =>
      Ready root bound after final.tree := by
  induction left generalizing state context id with
  | zero =>
      refine .enter_zero ((holds_enterOnce_core ready.template attached).weaken ?_)
      rintro ⟨outcome, size⟩ after final ⟨carried, entered, shape, -, turn⟩
      rw [← demand_sameShape shape] at enough
      cases turn with
      | unchanged settled => exact ready.sameShape (shape.trans settled) carried
      | changed advanced _ => exact absurd (advanced.allowed.trans enough) (by decide)
      | replaced advanced _ _ _ => exact absurd (advanced.allowed.trans enough) (by decide)
  | succ left hypothesis =>
      refine .enter_succ ((holds_enterOnce_core ready.template attached).weaken ?_)
      rintro ⟨outcome, size⟩ after final ⟨carried, entered, shape, rfl, turn⟩
      rw [← demand_sameShape shape] at enough
      rw [← shape.kind, ← shape.parent] at attached
      have entering := ready.sameShape shape carried
      cases turn with
      | unchanged settled => exact ready.sameShape (shape.trans settled) carried
      | changed advanced still =>
          have linked := attached_of_allowed advanced.allowed attached
          refine hypothesis (Nat.le_of_succ_le within) (entering.advance advanced linked _) (fun _ => still) ?_
          have lowered := advanced.lowered still
          omega
      | replaced advanced absent different placed =>
          have linked := attached_of_allowed advanced.allowed attached
          have marked := final.tree.sameShape_setState id .unvisited
          refine hypothesis (Nat.le_of_succ_le within) ?_ (fun _ => ?_) ?_
          · refine (entering.advance advanced linked _).setAside (Nat.le_of_succ_le within) fun still => ?_
            have lowered := advanced.lowered still
            omega
          · rw [marked.parent]
            exact placed
          · rw [demand_sameShape marked, demand_of_untagged (advanced.fresh _ absent)]
            exact Nat.zero_le left

/-! ## Visits -/

/-- The part of the walk keeps the demands of nodes below what is left to them. -/
def KeepsReady (root : NodeId) (bound : Nat) (work : Walk α) : Prop :=
  ∀ state context, Ready root bound state context.tree →
    Holds StopsFairly work state context fun _ after final => Ready root bound after final.tree

theorem keepsReady_setState (id : NodeId) (mark : WalkState) : KeepsReady root bound (setState id mark) := by
  intro state context ready
  exact ready.sameShape (context.tree.sameShape_setState id mark) rfl

/-- The core taglib has no transforms for leaving nodes. -/
theorem holds_leave_core (fuel : Nat) :
    Holds (fun halt => halt = .exhausted) (leave Registry.core bound fuel id left) state context fun _ after final =>
      after = state ∧ final = { context with tree := context.tree.setState id .settled } := by
  cases fuel with
  | zero => exact rfl
  | succ fuel =>
      refine (holds_runPhase_of_nil (transformsFor_core_leave context.tree id)).bind ?_
      rintro ⟨outcome, size⟩ _ _ ⟨rfl, rfl, rfl⟩
      exact ⟨rfl, rfl⟩

theorem keepsReady_leave (fuel : Nat) (id : NodeId) (left : Nat) :
    KeepsReady root bound (leave Registry.core bound fuel id left) := by
  intro state context ready
  refine Meets.weaken (holds_leave_core fuel) (fun _ => .inl) ?_
  rintro _ _ _ ⟨rfl, rfl⟩
  exact ready.sameShape (context.tree.sameShape_setState id .settled) rfl

/-- Visits and visits of children keep nodes ready. The induction is on the fuel. -/
theorem keepsReady_visits (fuel : Nat) :
    (∀ state context id passes, Ready root bound state context.tree →
      ((context.tree.kind id).tag? ≠ none → context.tree.parent id ≠ none) →
      demand context.tree id ≤ bound - max passes (state.startOf id) →
      Holds StopsFairly (visit Registry.core bound fuel id passes) state context fun _ after final =>
        Ready root bound after final.tree) ∧
    ∀ parent index, KeepsReady root bound (visitChildren Registry.core bound fuel parent index) := by
  induction fuel with
  | zero => exact ⟨fun _ _ _ _ _ _ _ => .inl rfl, fun _ _ _ _ _ => .inl rfl⟩
  | succ fuel hypothesis =>
      obtain ⟨visits, children⟩ := hypothesis
      refine ⟨fun state context id passes ready attached enough => ?_, fun parent index state context ready => ?_⟩
      · have begun : Ready root bound { state with visited := state.visited + 1 } context.tree := ready.sameShape (.refl _) rfl
        refine .visit (holds_enter_core (Nat.sub_le _ _) begun attached enough) (fun _ _ entered => entered)
          fun next left after final entered => ?_
        refine (keepsReady_setState next .entered _ _ entered).bind fun _ after final marked => ?_
        refine (children next 0 _ _ marked).bind fun _ after final visited => ?_
        refine (keepsReady_setState next .exiting _ _ visited).bind fun _ after final exiting => ?_
        exact keepsReady_leave fuel next left _ _ exiting
      · refine .visitChildren (fun _ => ready) (fun child found _ => ?_) fun _ _ _ => children parent (index + 1) _ _ ready
        have linked := (ready.template.wellFormed.linked parent child).1 (List.mem_of_getElem? found)
        have attached : context.tree.parent child ≠ none := by
          rw [linked]
          exact Option.some_ne_none parent
        refine (visits state context child 0 ready (fun _ => attached) ?_).bind fun _ after final visited => ?_
        · rw [Nat.zero_max]
          exact ready.affords child attached
        · exact children parent index _ _ visited

/-- A walk over a template. -/
theorem holds_start_core (template : context.tree.IsTemplate root)
    (affords : ∀ id, demand context.tree id ≤ context.options.maxTransformPasses) (fuel : Nat) :
    Holds StopsFairly (start Registry.core fuel root) {} context fun _ _ final => final.tree.IsTemplate root := by
  unfold start
  refine holds_context.bind ?_
  rintro _ state context ⟨rfl, rfl, rfl⟩
  refine (holds_markAll _).bind ?_
  rintro _ _ marked ⟨rfl, options, shape, -⟩
  have ready : Ready root context.options.maxTransformPasses {} context.tree := ⟨template, fun id _ => affords id⟩
  have untagged : (marked.tree.kind root).tag? = none := by
    rw [shape.kind, template.document]
    rfl
  refine ((keepsReady_visits fuel).1 {} marked root 0 (ready.sameShape shape rfl) (fun tagged => absurd untagged tagged) ?_).weaken
    fun _ _ _ after => after.template
  rw [demand_of_untagged untagged]
  exact Nat.zero_le _

/-- With enough fuel a walk over a template ends one way: with a template, or for what the template says. -/
theorem settles_start_core (template : context.tree.IsTemplate root)
    (affords : ∀ id, demand context.tree id ≤ context.options.maxTransformPasses) :
    Settles (fun halt => ∃ fault, halt = .fault fault ∧ fault.OfTemplate) (fun fuel => start Registry.core fuel root) {}
      context fun _ _ final => final.tree.IsTemplate root := by
  have ends : Settles IsFault (fun fuel => start Registry.core fuel root) {} context fun _ _ _ => True :=
    tame_core.settles_start template.wellFormed root
  obtain ⟨enough, result, same, meets⟩ := ends
  have fairly := holds_start_core template affords enough
  unfold Holds at fairly
  rw [show start Registry.core enough root {} context = result from same enough (Nat.le_refl enough)] at fairly
  refine ⟨enough, result, same, ?_⟩
  rcases result with ⟨⟨halt | value, after⟩, final⟩
  · obtain ⟨fault, rfl⟩ := meets
    rcases fairly with exhausted | stops
    · cases exhausted
    · exact stops
  · exact fairly

end Walk

/-!
## What templates are refused for

With the core taglib alone a template is refused for what it says: it cannot be read, a tag is unknown, a
node or an attribute is invalid, or tags are nested as they must not be. It never gets the transforms to link
nodes wrongly, to change a node without end, or to leave a node where no code is generated for it.
-/

open HtmlTemplate.Tree

theorem Fault.mem_classes {fault : Fault} (ofTemplate : fault.OfTemplate) : fault.faultClass ∈
    [FaultClass.parse, .unknownTag, .invalidKind, .invalidAttribute, .invalidNesting] := by
  unfold Fault.OfTemplate at ofTemplate
  generalize fault.faultClass = class' at ofTemplate ⊢
  cases class' <;> first | decide | cases ofTemplate

namespace Compilation

/-- A template that was walked over gives a module. -/
theorem finish_eq_ok (choices : Preservation) {context : Context} {root : NodeId} (template : context.tree.IsTemplate root) :
    ∃ generated, finish choices context root = .ok generated := by
  obtain ⟨fragments, scope, lowered⟩ := Lowering.succeeds_lowerNode template.placed context.tree.depthBound
    (.inr ⟨template.document, rfl⟩ : (context.tree.kind root).isContent = true ∨ _ ∧
      ({ top := true, preserve := choices.isTotal } : Region).top = true) {}
  have generated : context.tree.lower choices root = .ok (fragments, scope.hoisted) := by
    unfold Tree.lower
    rw [lowered]
    rfl
  unfold finish CodeModule.generate
  rw [template.wellFormed.checkOwnership_eq_ok root, generated]
  exact ⟨_, rfl⟩

/-- What a compilation fails for, if it fails, is what the template says. -/
def FailsFairly (compilation : Compilation) : Prop :=
  ∀ failure, compilation.result = .error failure → ∃ fault, failure.halt = .fault fault ∧ fault.OfTemplate

/-- A tree that was read is walked over and gives a module, or is refused for what the template says. -/
theorem ofTree_failsFairly {root : NodeId} {tree : Tree} (options : Options) (passes : 2 ≤ options.maxTransformPasses)
    (template : tree.IsTemplate root) (single : tree.Single) :
    ∃ enough compilation, (∀ fuel, enough ≤ fuel → ofTree Registry.core options fuel root tree = compilation) ∧
      FailsFairly compilation := by
  obtain ⟨enough, result, same, meets⟩ := @Walk.settles_start_core root (Context.start tree options Registry.core) template
    fun id => (Control.demand_le_two single id).trans passes
  refine ⟨enough, ofTree Registry.core options enough root tree, fun fuel large => ?_, ?_⟩
  · have walked : Walk.start Registry.core fuel root {} (Context.start tree options Registry.core) = _ := same fuel large
    have before : Walk.start Registry.core enough root {} (Context.start tree options Registry.core) = _ :=
      same enough (Nat.le_refl enough)
    rw [ofTree, ofTree, Context.walk, Context.walk, walked, before]
  · have walked : Walk.start Registry.core enough root {} (Context.start tree options Registry.core) = _ :=
      same enough (Nat.le_refl enough)
    intro failure failed
    rw [ofTree, Context.walk, walked] at failed
    rcases result with ⟨⟨halt | value, progress⟩, final⟩
    · obtain ⟨fault, rfl, ofTemplate⟩ := meets
      cases failed
      exact ⟨fault, rfl, ofTemplate⟩
    · obtain ⟨generated, done⟩ := finish_eq_ok options.preserveWhitespace meets
      change (finish options.preserveWhitespace final root).mapError _ = _ at failed
      rw [done] at failed
      cases failed

end Compilation

/-- With the core taglib and two changes for each node or more, a template compiles or is refused for what it
says, whatever it is: given enough fuel, and then any more, a compiler comes to one and the same result, and if
that is a failure, then its fault is of a class that templates are to blame for. -/
theorem Compiler.compile_failsFairly (options : Options) (passes : 2 ≤ options.maxTransformPasses) (file source : String) :
    ∃ enough compilation,
      (∀ compiler : Compiler, compiler.registry = Registry.core → compiler.options = options → enough ≤ compiler.fuel →
        compiler.compile file source = compilation) ∧
      ∀ failure, compilation.result = .error failure → ∃ fault, failure.halt = .fault fault ∧ fault.faultClass ∈
        [FaultClass.parse, .unknownTag, .invalidKind, .invalidAttribute, .invalidNesting] := by
  have ran : ∃ enough compilation,
      (∀ fuel, enough ≤ fuel → Compilation.run Registry.core options fuel file source = compilation) ∧
        compilation.FailsFairly := by
    unfold Compilation.run
    rcases Template.read_cases file source with ⟨fault, refused, ofTemplate⟩ | ⟨root, tree, done, template, single⟩
    · refine ⟨0, _, fun _ _ => by rw [refused], ?_⟩
      intro failure failed
      cases failed
      exact ⟨fault, rfl, ofTemplate⟩
    · rw [done]
      exact Compilation.ofTree_failsFairly options passes template single
  obtain ⟨enough, compilation, same, fairly⟩ := ran
  refine ⟨enough, compilation, ?_, fun failure failed => ?_⟩
  · intro compiler registry given fuel
    rw [Compiler.compile, registry, given]
    exact same compiler.fuel fuel
  · obtain ⟨fault, halted, ofTemplate⟩ := fairly failure failed
    exact ⟨fault, halted, Fault.mem_classes ofTemplate⟩

/-- Two changes for each node are enough for nested control tags with older names and directives. -/
theorem Compiler.compile_failsFairly_two :
    ∃ enough compilation,
      (∀ compiler : Compiler, compiler.registry = Registry.core → compiler.options = { maxTransformPasses := 2 } →
        enough ≤ compiler.fuel → compiler.compile "page"
          "<c-for each=\"a in b\" if=\"c\"><p for=\"d in e\" if=\"d\">f</p></c-for><else>" = compilation) ∧
      ∀ failure, compilation.result = .error failure → ∃ fault, failure.halt = .fault fault ∧ fault.faultClass ∈
        [FaultClass.parse, .unknownTag, .invalidKind, .invalidAttribute, .invalidNesting] :=
  Compiler.compile_failsFairly { maxTransformPasses := 2 } (Nat.le_refl 2) _ _

end HtmlTemplate
