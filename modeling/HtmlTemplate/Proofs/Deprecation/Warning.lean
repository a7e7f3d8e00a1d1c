import HtmlTemplate.Proofs.Deprecation.Transforms
import HtmlTemplate.Proofs.Desugaring.Idempotence
import HtmlTemplate.Proofs.Placement.Walk
import HtmlTemplate.Proofs.Placement.Making

/-!
# Every older name is warned about once

A compilation with the core taglib that succeeds warns about each element with an older name of a control tag exactly
once. The walk keeps the ledger of such elements, and in the end none of them is left in the tree.
-/

namespace HtmlTemplate

open HtmlTemplate.Tree

/-! ## The books of a walk -/

/-- The warnings about older names among diagnostics. -/
def Diagnostic.deprecations (diagnostics : List Diagnostic) : List Diagnostic :=
  diagnostics.filter fun diagnostic => diagnostic.code == Diagnostic.deprecatedTagCode

theorem Diagnostic.deprecations_append (first second : List Diagnostic) :
    deprecations (first ++ second) = deprecations first ++ deprecations second :=
  List.filter_append first second

theorem Tree.deprecations_filterMap (tree : Tree) (ids : List NodeId) :
    Diagnostic.deprecations (ids.filterMap tree.deprecation?) = ids.filterMap tree.deprecation? := by
  refine List.filter_eq_self.2 fun warning member => ?_
  obtain ⟨id, -, due⟩ := List.mem_filterMap.1 member
  rw [(code_of_deprecation? due).1]
  exact beq_self_eq_true _

namespace Walk

open Construct Control

variable {α : Type} {root id : NodeId} {first : Tree} {told : List NodeId} {state : Progress} {context : Context}
variable {left bound : Nat}

/-- The books of a walk are kept: what was recorded is what is due for those told, and the walk remembers only those. -/
structure Books (root : NodeId) (first : Tree) (told : List NodeId) (state : Progress) (context : Context) : Prop where
  ledger : Ledger root first [] [] told context.tree
  rules : context.rules = fun tag => (entryOf tag).map TagEntry.rules
  reported : Diagnostic.deprecations context.diagnostics = told.filterMap first.deprecation?
  warned : ∀ id, (id, Diagnostic.deprecatedTagCode) ∈ state.warned → id ∈ told

/-- The books are kept, whoever was told. -/
def InBooks (root : NodeId) (first : Tree) (state : Progress) (context : Context) : Prop :=
  ∃ told, Books root first told state context

/-- The walk goes on at a node that another one has. -/
inductive GoesOn (tree : Tree) (id : NodeId) : Outcome → Prop
  | unchanged : GoesOn tree id .unchanged
  | changed : tree.parent id ≠ none → GoesOn tree id .changed
  | replaced {next : NodeId} : tree.parent next ≠ none → GoesOn tree id (.replaced next)

/-- A check of a node has recorded what was due for it, and nothing else about older names. -/
structure Noticed (id : NodeId) (state : Progress) (context : Context) (after : Progress) (final : Context) : Prop where
  shape : context.tree.SameShape final.tree
  rules : final.rules = context.rules
  reported : Diagnostic.deprecations final.diagnostics =
    Diagnostic.deprecations context.diagnostics ++ (context.tree.deprecation? id).toList
  warned : ∀ other, (other, Diagnostic.deprecatedTagCode) ∈ after.warned →
    (other, Diagnostic.deprecatedTagCode) ∈ state.warned ∨ other = id ∧ (context.tree.deprecation? id).isSome = true

theorem Books.sameShape {after : Progress} {final : Context} (books : Books root first told state context)
    (shape : context.tree.SameShape final.tree) (rules : final.rules = context.rules)
    (diagnostics : final.diagnostics = context.diagnostics) (warned : after.warned = state.warned) :
    Books root first told after final where
  ledger := books.ledger.sameShape shape
  rules := rules.trans books.rules
  reported := by rw [diagnostics, books.reported]
  warned := by
    rw [warned]
    exact books.warned

theorem Books.givesPlace {outcome : Outcome} {after : Context} (books : Books root first told state context)
    (gives : GivesPlace root first told context outcome after) :
    outcome ≠ .unchanged ∧ InBooks root first state after ∧ GoesOn after.tree id outcome := by
  obtain ⟨next, tree, more, rfl, attached, rfl, ledger⟩ := gives
  refine ⟨fun impossible => (by cases impossible), ⟨told ++ more, ledger, books.rules, ?_, fun other member => ?_⟩,
    .replaced attached⟩
  · change Diagnostic.deprecations (context.diagnostics ++ _) = _
    rw [Diagnostic.deprecations_append, List.filterMap_append, books.reported, first.deprecations_filterMap]
  · exact List.mem_append_left more (books.warned other member)

/-! ## Checks -/

theorem noticed_setPreserve {after : Progress} {middle : Context} (noticed : Noticed id state context after middle) :
    Noticed id state context after { middle with tree := middle.tree.setPreserve id true } where
  shape := noticed.shape.trans (sameShape_setPreserve _ id true)
  rules := noticed.rules
  reported := noticed.reported
  warned := noticed.warned

theorem noticed_of_none (modern : context.tree.deprecation? id = none) : Noticed id state context state context where
  shape := .refl _
  rules := rfl
  reported := by rw [modern, Option.toList_none, List.append_nil]
  warned := fun _ => .inl

/-- The notice for an element is what is due for its older name, or else it is about a tag that is not known. -/
theorem notice?_core {tree : Tree} {tag : String} (element : tree.kind id = .element tag) :
    notice? Registry.core tree id tag = tree.deprecation? id ∨ tree.deprecation? id = none ∧
      ∀ warning, notice? Registry.core tree id tag = some warning → warning.code = Diagnostic.unknownTagWarningCode := by
  rw [deprecation?_of_element element, notice?, lookup?_core]
  cases entryOf tag with
  | some entry => exact .inl rfl
  | none =>
      refine .inr ⟨rfl, fun warning due => ?_⟩
      dsimp only at due
      split at due
      · rw [← Option.some.inj due]
        rfl
      · cases due

theorem Warned.noticed {notice : Option Diagnostic} {after : Progress} {final : Context}
    (warned : Warned id state context notice after final)
    (due : notice = context.tree.deprecation? id ∨ context.tree.deprecation? id = none ∧
      ∀ warning, notice = some warning → warning.code = Diagnostic.unknownTagWarningCode)
    (unwarned : (context.tree.deprecation? id).isSome = true → (id, Diagnostic.deprecatedTagCode) ∉ state.warned) :
    Noticed id state context after final := by
  have apart : Diagnostic.unknownTagWarningCode ≠ Diagnostic.deprecatedTagCode := by decide
  cases warned with
  | nothing => exact noticed_of_none (due.elim Eq.symm And.left)
  | again known =>
      rcases due with due | ⟨modern, -⟩
      · rw [(code_of_deprecation? due.symm).1] at known
        exact absurd known (unwarned (by rw [← due]; rfl))
      · exact noticed_of_none modern
  | @first warning _ =>
      rcases due with due | ⟨modern, unknown⟩
      · have code := (code_of_deprecation? due.symm).1
        refine ⟨.refl _, rfl, ?_, fun other member => ?_⟩
        · rw [← due, Diagnostic.deprecations_append]
          simp [Diagnostic.deprecations, code]
        · refine (List.mem_cons.1 member).symm.imp_right fun same => ⟨(Prod.mk.inj same).1, ?_⟩
          rw [← due]
          rfl
      · have code := unknown warning rfl
        refine ⟨.refl _, rfl, ?_, fun other member => .inl ?_⟩
        · rw [modern, Diagnostic.deprecations_append]
          simp [Diagnostic.deprecations, code, apart]
        · refine (List.mem_cons.1 member).resolve_left fun same => apart ?_
          rw [← code]
          exact (Prod.mk.inj same).2.symm

theorem holds_checkTag_noticed
    (plain : ∀ tag, (context.tree.kind id).tag? = some tag → context.tree.kind id = .element tag)
    (unwarned : (context.tree.deprecation? id).isSome = true → (id, Diagnostic.deprecatedTagCode) ∉ state.warned) :
    Holds (fun _ => True) (checkTag Registry.core id) state context fun _ => Noticed id state context := by
  refine Meets.weaken holds_checkTag_inspected (fun _ _ => trivial) fun _ after final inspected => ?_
  cases inspected with
  | untagged untagged => exact noticed_of_none (deprecation?_of_untagged untagged)
  | @tagged tag _ middle tagged _ _ warned =>
      have noticed := warned.noticed (notice?_core (plain tag tagged)) unwarned
      obtain ⟨codes, diagnostics, rfl, rfl⟩ := warned.frame
      unfold preserving
      split
      · exact noticed_setPreserve noticed
      · exact noticed

/-! ## Entering -/

theorem InBooks.sameShape {after : Progress} {final : Context} (inBooks : InBooks root first state context)
    (shape : context.tree.SameShape final.tree) (rules : final.rules = context.rules)
    (diagnostics : final.diagnostics = context.diagnostics) (warned : after.warned = state.warned) :
    InBooks root first after final := by
  obtain ⟨told, books⟩ := inBooks
  exact ⟨told, books.sameShape shape rules diagnostics warned⟩

/-- One transform after the other: the first one that changes the node ends the round. -/
theorem holds_applyFirst_books {transform : Transform} {transforms : List Transform} {passes : Prop}
    (ensures : Edit.Ensures (transform.apply id) context fun outcome after =>
      outcome = .unchanged ∧ after = context ∧ passes ∨
        outcome ≠ .unchanged ∧ InBooks root first state after ∧ GoesOn after.tree id outcome)
    (goesOn : passes → Holds (fun _ => True) (applyFirst id transforms) state context fun outcome after final =>
      InBooks root first after final ∧ GoesOn final.tree id outcome) :
    Holds (fun _ => True) (applyFirst id (transform :: transforms)) state context fun outcome after final =>
      InBooks root first after final ∧ GoesOn final.tree id outcome := by
  refine .applyFirst (fun _ _ _ => trivial) (fun middle ran => ?_) fun outcome middle ran reports => ?_
  · rcases ensures _ middle ran with ⟨-, rfl, passes⟩ | ⟨impossible, -⟩
    · exact goesOn passes
    · exact absurd rfl impossible
  · obtain ⟨-, inBooks, onward⟩ := (ensures outcome middle ran).resolve_left fun rests => reports rests.1
    have applied : InBooks root first { state with applied := state.applied + 1 } middle :=
      inBooks.sameShape (.refl _) rfl rfl rfl
    cases onward with
    | unchanged => exact absurd rfl reports
    | changed attached => exact ⟨applied, .changed attached⟩
    | @replaced next attached =>
        by_cases same : next = id
        · subst same
          refine holds_tree.bind ?_
          rintro _ _ _ ⟨rfl, rfl, rfl⟩
          rw [if_pos (beq_self_eq_true next)]
          exact ⟨applied, .changed attached⟩
        · exact holds_confirm_replaced same attached ⟨applied, .replaced attached⟩

/-- The transforms of a node that is due no warning keep the books. -/
theorem Books.holds_applyFirst_modern (books : Books root first told state context)
    (modern : context.tree.deprecation? id = none) :
    Holds (fun _ => True) (applyFirst id (transformsFor Registry.core context.tree id .enter)) state context
      fun outcome after final => InBooks root first after final ∧ GoesOn final.tree id outcome := by
  have ledger := books.ledger
  have nothing : Holds (fun _ => True) (applyFirst id []) state context fun outcome after final =>
      InBooks root first after final ∧ GoesOn final.tree id outcome := ⟨⟨told, books⟩, .unchanged⟩
  cases tagged : (context.tree.kind id).tag? with
  | none =>
      rw [transformsFor_of_untagged tagged]
      exact nothing
  | some tag =>
      have element := ledger.plain id tag tagged
      rcases (transformsFor_core tagged).2 with ⟨-, transforms⟩ | ⟨entry, own, found, isOwn, transforms⟩
      · rw [transforms]
        refine holds_applyFirst_books ((ensures_lowerDirective ledger element).weaken ?_) fun _ : True => nothing
        rintro outcome after (⟨same, left⟩ | gives)
        · exact .inl ⟨same, left, trivial⟩
        · exact .inr (books.givesPlace gives)
      · rw [transforms]
        have settled := ledger.told_of_none modern
        have gives : Edit.Ensures (own.apply id) context (GivesPlace root first told context) := by
          cases isOwn with
          | older older =>
              obtain ⟨reason, deprecated⟩ := Option.isSome_iff_exists.1 older
              have due := deprecation?_of_element element
              rw [modern, found, Option.bind_some, deprecated] at due
              cases due
          | control _ applies =>
              rcases applies with same | same | same | same
              · rw [same]
                exact ensures_lowerIf books.rules ledger element settled
              · rw [same]
                exact ensures_lowerFor ledger element settled
              · rw [same]
                exact ensures_lowerComment ledger element settled
              · rw [same]
                exact Edit.Ensures.step (Edit.run_tree context) Edit.ensures_failAt
        exact holds_applyFirst_books (gives.weaken fun _ _ gives => .inr (books.givesPlace gives)) False.elim

/-- An older name makes way for the one that took its place, after a warning was recorded. -/
theorem Books.holds_applyFirst_older {noticed : Progress} {checked : Context} (books : Books root first told state context)
    (older : (context.tree.deprecation? id).isSome = true) (attached : context.tree.parent id ≠ none)
    (check : Noticed id state context noticed checked) :
    Holds (fun _ => True) (applyFirst id (transformsFor Registry.core checked.tree id .enter)) noticed checked
      fun outcome after final => InBooks root first after final ∧ GoesOn final.tree id outcome := by
  have ledger := books.ledger.sameShape check.shape
  have same := check.shape.deprecation? id
  obtain ⟨tag, element⟩ := exists_element_of_deprecation? older
  obtain ⟨warning, due⟩ := Option.isSome_iff_exists.1 older
  rw [due] at same
  have reason : ((entryOf tag).bind fun entry => entry.rules.deprecated).isSome = true := by
    rw [deprecation?_of_element element, Option.isSome_map] at older
    exact older
  have tagged : (checked.tree.kind id).tag? = some tag := by
    rw [check.shape.kind, element]
    rfl
  rcases (transformsFor_core tagged).2 with ⟨unknown, -⟩ | ⟨entry, own, found, isOwn, transforms⟩
  · rw [unknown] at reason
    cases reason
  · rw [transforms]
    rw [found, Option.bind_some] at reason
    cases isOwn with
    | control current =>
        rw [current] at reason
        cases reason
    | @older new control _ known current applies =>
        have modern : olderNames.lookup new = none := by
          have none := deprecated_of_entryOf new
          rw [known, Option.bind_some, current] at none
          exact Option.map_eq_none_iff.1 none.symm
        have keeps : checked.tree.Keeps [] id := .inr (by rwa [check.shape.parent])
        refine @holds_applyFirst_books _ _ _ _ _ _ _ False ?_ False.elim
        rw [applies]
        intro outcome after ran
        obtain ⟨_, middle, changed, ended⟩ := Edit.run_bind_eq_ok_iff.1 ran
        obtain ⟨tree, made, rfl⟩ := Edit.run_changeTree_eq_ok_iff.1 changed
        obtain ⟨rfl, rfl⟩ := Edit.run_pure_eq_ok_iff.1 ended
        have parents : tree.parent id = checked.tree.parent id :=
          ((setKind_spec made (has_of_deprecation? (by rw [same]; rfl))).2.2.2 id).2.2
        refine .inr ⟨fun impossible => (by cases impossible), ⟨told ++ [id], ?_⟩, .changed ?_⟩
        · refine ⟨ledger.rename (by rw [same]; rfl) keeps modern made, check.rules.trans books.rules, ?_, fun other member => ?_⟩
          · rw [List.filterMap_append, ← books.reported, check.reported, due]
            simp [books.ledger.same id warning due]
          · rcases check.warned other member with before | ⟨equal, -⟩
            · exact List.mem_append_left _ (books.warned other before)
            · exact List.mem_append_right _ (List.mem_singleton.2 equal)
        · change tree.parent id ≠ none
          rw [parents, check.shape.parent]
          exact attached

theorem InBooks.holds_enterOnce (inBooks : InBooks root first state context)
    (attached : (context.tree.kind id).tag? ≠ none → context.tree.parent id ≠ none) :
    Holds (fun _ => True) (enterOnce Registry.core id) state context fun result after final =>
      InBooks root first after final ∧ GoesOn final.tree id result.1 := by
  obtain ⟨told, books⟩ := inBooks
  have entering : context.tree.SameShape (context.tree.setState id .entering) := sameShape_setState context.tree id .entering
  have books : Books root first told state { context with tree := context.tree.setState id .entering } :=
    books.sameShape entering rfl rfl rfl
  rw [← entering.kind, ← entering.parent] at attached
  have placed : ((context.tree.setState id .entering).deprecation? id).isSome = true →
      (context.tree.setState id .entering).parent id ≠ none := by
    refine fun older => attached fun untagged => ?_
    rw [deprecation?_of_untagged untagged] at older
    cases older
  have untold : ((context.tree.setState id .entering).deprecation? id).isSome = true →
      (id, Diagnostic.deprecatedTagCode) ∉ state.warned :=
    fun older member => books.ledger.untold older (.inr (placed older)) (books.warned id member)
  refine .enterOnce (holds_checkTag_noticed (books.ledger.plain id) untold) fun noticed checked check => .runPhase ?_
  by_cases older : ((context.tree.setState id .entering).deprecation? id).isSome = true
  · exact books.holds_applyFirst_older older (placed older) check
  · have modern := Option.not_isSome_iff_eq_none.1 older
    have checkedBooks : Books root first told noticed checked := by
      refine ⟨books.ledger.sameShape check.shape, check.rules.trans books.rules, ?_, fun other member => ?_⟩
      · rw [check.reported, modern, Option.toList_none, List.append_nil, books.reported]
      · exact books.warned other ((check.warned other member).resolve_right fun due => older due.2)
    exact checkedBooks.holds_applyFirst_modern (by rw [check.shape.deprecation?, modern])

theorem warned_inherit (state : Progress) (first past passes : Nat) :
    (state.inherit first past passes).warned = state.warned := by
  rw [inherit_eq]

/-- However often a node changes, the books are kept. The induction is on the changes that are left to it. -/
theorem InBooks.holds_enter (inBooks : InBooks root first state context)
    (attached : (context.tree.kind id).tag? ≠ none → context.tree.parent id ≠ none) :
    Holds (fun _ => True) (enter Registry.core bound left id) state context fun _ => InBooks root first := by
  induction left generalizing state context id with
  | zero =>
      refine .enter_zero ((inBooks.holds_enterOnce attached).weaken ?_)
      rintro ⟨outcome, size⟩ after final ⟨inBooks, onward⟩
      cases onward with
      | unchanged => exact inBooks
      | changed _ => exact trivial
      | replaced _ => exact trivial
  | succ left hypothesis =>
      refine .enter_succ ((inBooks.holds_enterOnce attached).weaken ?_)
      rintro ⟨outcome, size⟩ after final ⟨inBooks, onward⟩
      cases onward with
      | unchanged => exact inBooks
      | changed attached =>
          exact hypothesis (inBooks.sameShape (.refl _) rfl rfl (warned_inherit _ _ _ _)) fun _ => attached
      | replaced attached =>
          have marked := final.tree.sameShape_setState id .unvisited
          refine hypothesis (inBooks.sameShape marked rfl rfl (warned_inherit _ _ _ _)) fun _ => ?_
          rw [marked.parent]
          exact attached

/-! ## Visits -/

/-- The part of the walk keeps the books. -/
def KeepsBooks (root : NodeId) (first : Tree) (work : Walk α) : Prop :=
  ∀ state context, InBooks root first state context →
    Holds (fun _ => True) work state context fun _ => InBooks root first

theorem keepsBooks_setState (id : NodeId) (mark : WalkState) : KeepsBooks root first (setState id mark) :=
  fun _ context inBooks => inBooks.sameShape (context.tree.sameShape_setState id mark) rfl rfl rfl

theorem keepsBooks_leave (fuel : Nat) (id : NodeId) (left : Nat) :
    KeepsBooks root first (leave Registry.core bound fuel id left) := by
  intro state context inBooks
  refine Meets.weaken (holds_leave_core fuel) (fun _ _ => trivial) ?_
  rintro _ _ _ ⟨rfl, rfl⟩
  exact inBooks.sameShape (context.tree.sameShape_setState id .settled) rfl rfl rfl

/-- Visits and visits of children keep the books. The induction is on the fuel. -/
theorem keepsBooks_visits (fuel : Nat) :
    (∀ state context id passes, InBooks root first state context →
      ((context.tree.kind id).tag? ≠ none → context.tree.parent id ≠ none) →
      Holds (fun _ => True) (visit Registry.core bound fuel id passes) state context fun _ => InBooks root first) ∧
    ∀ parent index, KeepsBooks root first (visitChildren Registry.core bound fuel parent index) := by
  induction fuel with
  | zero => exact ⟨fun _ _ _ _ _ _ => trivial, fun _ _ _ _ _ => trivial⟩
  | succ fuel hypothesis =>
      obtain ⟨visits, children⟩ := hypothesis
      refine ⟨fun state context id passes inBooks attached => ?_, fun parent index state context inBooks => ?_⟩
      · have begun : InBooks root first { state with visited := state.visited + 1 } context :=
          inBooks.sameShape (.refl _) rfl rfl rfl
        refine .visit (begun.holds_enter attached) (fun _ _ entered => entered) fun next left after final entered => ?_
        refine (keepsBooks_setState next .entered _ _ entered).bind fun _ after final marked => ?_
        refine (children next 0 _ _ marked).bind fun _ after final visited => ?_
        refine (keepsBooks_setState next .exiting _ _ visited).bind fun _ after final exiting => ?_
        exact keepsBooks_leave fuel next left _ _ exiting
      · refine .visitChildren (fun _ => inBooks) (fun child found _ => ?_) fun _ _ _ => children parent (index + 1) _ _ inBooks
        have attached : context.tree.parent child ≠ none := by
          obtain ⟨told, books⟩ := inBooks
          rw [(books.ledger.wellFormed.linked parent child).1 (List.mem_of_getElem? found)]
          exact Option.some_ne_none parent
        refine (visits state context child 0 inBooks fun _ => attached).bind fun _ after final visited => ?_
        exact children parent index _ _ visited

theorem InBooks.holds_start (inBooks : InBooks root first state context) (untagged : (context.tree.kind root).tag? = none)
    (fuel : Nat) :
    Holds (fun _ => True) (start Registry.core fuel root) state context fun _ => InBooks root first := by
  unfold start
  refine holds_context.bind ?_
  rintro _ state context ⟨rfl, rfl, rfl⟩
  have marks := @holds_markAll_of state context (fun _ => True) (fun _ marked => InBooks root first state marked ∧
    (marked.tree.kind root).tag? = none)
  refine Holds.bind (marks ?_ ⟨inBooks, untagged⟩) ?_
  · rintro middle id _ ⟨inBooks, untagged⟩
    have shape := middle.tree.sameShape_setState id .unvisited
    exact ⟨inBooks.sameShape shape rfl rfl rfl, by rw [shape.kind, untagged]⟩
  · rintro _ _ marked ⟨rfl, inBooks, untagged⟩
    exact (keepsBooks_visits fuel).1 _ marked root 0 inBooks fun tagged => absurd untagged tagged

end Walk

/-! ## Templates -/

/-- The tree of a template has its file, and every node but the document is in another one. -/
theorem Template.attached_of_read {file source : String} {root : NodeId} {tree : Tree}
    (ran : Template.read file source = .ok (root, tree)) (template : tree.IsTemplate root) :
    tree.file = file ∧ ∀ id, tree.Has id → id ≠ root → tree.parent id ≠ none := by
  have adds : ∀ parent position kind attributes, Template.Grow.Preserves
      (fun tree => tree.file = file ∧ ∀ id, tree.Has id → id ≠ ⟨0⟩ → tree.parent id ≠ none)
      (Template.Grow.add parent position kind attributes) := by
    rintro parent position kind attributes growth id after added ⟨same, attached⟩
    obtain ⟨made, created, appended, -⟩ := Template.Grow.add_eq_ok added
    obtain ⟨read, -, -, -, -, -, rfl⟩ := create_eq_ok_iff.1 created
    rw [Template.append_eq appended]
    refine ⟨same, fun other present different => ?_⟩
    rw [has_setChildren, has_setParent, has_setParents, has_push] at present
    rw [parent_setChildren]
    by_cases new : other = ⟨growth.tree.size⟩
    · rw [new, parent_setParent_self _ ((has_setParents _ _ _ _).2 ((has_push _).2 (.inr rfl)))]
      exact Option.some_ne_none parent
    · rw [parent_setParent_of_ne _ new, parent_setParents_of_notMem _ List.not_mem_nil, parent_push rfl]
      exact attached other (present.resolve_right new) different
  have begins : (Template.seed file).file = file ∧
      ∀ id, (Template.seed file).Has id → id ≠ ⟨0⟩ → (Template.seed file).parent id ≠ none := by
    refine ⟨rfl, fun id present different => absurd ?_ different⟩
    rcases (has_push _).1 present with absent | same
    · exact absurd absent (Nat.not_lt_zero id.index)
    · exact same
  obtain ⟨same, attached⟩ := Template.holds_of_read adds begins ran
  have first : root = ⟨0⟩ := by
    by_contra different
    exact attached root template.present different template.top
  exact ⟨same, by rwa [first]⟩

namespace Ledger

variable {root id : NodeId} {first tree : Tree} {told : List NodeId}

/-- Containers in other nodes are below the root, if nothing is held. -/
theorem onPath_root (ledger : Ledger root first [] [] told tree) (container : (tree.kind id).isContainer = true)
    (attached : tree.parent id ≠ none) : tree.OnPath root id := by
  obtain ⟨depth, grounded⟩ := ledger.wellFormed.grounded id
  induction grounded with
  | root detached => exact absurd detached attached
  | @child id parent depth linked _ hypothesis =>
      have member := (ledger.wellFormed.linked parent id).2 linked
      rcases ledger.keeps_of_child linked container with rfl | keeps
      · exact .step linked .self
      · have holds := ledger.wellFormed.contained parent (List.ne_nil_of_mem member)
        exact .step linked (hypothesis holds (keeps.resolve_left List.not_mem_nil))

/-- The books of a template, before anything was told. -/
theorem ofTemplate (template : tree.IsTemplate root) (attached : ∀ id, tree.Has id → id ≠ root → tree.parent id ≠ none) :
    Ledger root tree [] [] [] tree where
  wellFormed := template.wellFormed
  plain := template.plain
  same _ _ due := due
  balance id due := by
    refine iff_of_true List.not_mem_nil ⟨due, .inr (attached id (has_of_deprecation? due) ?_)⟩
    rintro rfl
    rw [deprecation?_of_untagged] at due
    · cases due
    · rw [template.document]
      rfl
  due _ member := absurd member List.not_mem_nil
  once := List.nodup_nil
  distinct := List.nodup_nil
  loose _ member := absurd member List.not_mem_nil
  hollow id other _ detached := by
    have absent : ¬tree.Has id := fun present => attached id present other detached
    intro child member
    rw [Tree.children, node_of_not_has absent] at member
    cases member
  idle _ member := absurd member List.not_mem_nil

/-- When no control tag is left below the root, all that was due has been told. -/
theorem perm_told (ledger : Ledger root first [] [] told tree) (begun : Ledger root first [] [] [] first)
    (modern : ∀ id tag, tree.OnPath root id → tree.kind id = .element tag → Control.entryOf tag = none) :
    told.Perm ((first.preorder root).filter fun id => (first.deprecation? id).isSome) := by
  refine (List.perm_ext_iff_of_nodup ledger.once ((begun.wellFormed.nodup_preorder root).filter _)).2 fun id => ?_
  rw [List.mem_filter]
  constructor
  · intro member
    have due := ledger.due id member
    obtain ⟨tag, element⟩ := exists_element_of_deprecation? due
    have attached := ((begun.balance id due).1 List.not_mem_nil).2.resolve_left List.not_mem_nil
    exact ⟨begun.wellFormed.mem_preorder (begun.onPath_root (by rw [element]; rfl) attached), due⟩
  · rintro ⟨-, due⟩
    by_contra untold
    obtain ⟨older, keeps⟩ := (ledger.balance id due).1 untold
    obtain ⟨tag, element⟩ := exists_element_of_deprecation? older
    have onPath := ledger.onPath_root (by rw [element]; rfl) (keeps.resolve_left List.not_mem_nil)
    rw [deprecation?_of_element element, modern id tag onPath element] at older
    cases older

end Ledger

theorem Context.deprecations_warnings {context : Context} {tree : Tree} {ids : List NodeId}
    (reported : Diagnostic.deprecations context.diagnostics = ids.filterMap tree.deprecation?) :
    Diagnostic.deprecations context.warnings = ids.filterMap tree.deprecation? := by
  rw [Context.warnings, Diagnostic.deprecations, List.filter_comm, ← Diagnostic.deprecations, reported]
  refine List.filter_eq_self.2 fun warning member => ?_
  obtain ⟨id, -, due⟩ := List.mem_filterMap.1 member
  rw [(code_of_deprecation? due).2]
  rfl

/-- A tree that was read and is compiled is warned about once for each older name in it. -/
theorem Compilation.warns_once {options : Options} {fuel : Nat} {root : NodeId} {tree : Tree} {module : CodeModule}
    (template : tree.IsTemplate root) (attached : ∀ id, tree.Has id → id ≠ root → tree.parent id ≠ none)
    (compiled : (ofTree Registry.core options fuel root tree).result = .ok module) :
    (Diagnostic.deprecations module.warnings).Perm ((tree.preorder root).filterMap tree.deprecation?) := by
  have untagged : (tree.kind root).tag? = none := by
    rw [template.document]
    rfl
  let laws : Laws := { bound := options.maxTransformPasses, allows := options.allowUnknownTags }
  have rules : (Context.start tree options Registry.core).rules = fun tag => (Control.entryOf tag).map TagEntry.rules :=
    funext fun tag => congrArg (Option.map TagEntry.rules) (Control.lookup?_core tag tree.file)
  have governed : Walk.Governed laws (Context.start tree options Registry.core) := ⟨rfl, rules⟩
  have begun := Ledger.ofTemplate template attached
  have inBooks : Walk.InBooks root tree {} (Context.start tree options Registry.core) :=
    ⟨[], begun, rules, rfl, fun _ member => absurd member List.not_mem_nil⟩
  have rests := @Walk.holds_start_rest root (Context.start tree options Registry.core) laws template.wellFormed governed rfl
    template.present (fun linked => absurd template.top linked) fuel
  have both := (inBooks.holds_start untagged fuel).and rests
  unfold Walk.Holds at both
  rw [ofTree, Context.walk] at compiled
  generalize Walk.start Registry.core fuel root {} (Context.start tree options Registry.core) = result at both compiled
  rcases result with ⟨⟨halt | value, progress⟩, final⟩
  · cases compiled
  · obtain ⟨⟨told, books⟩, rest⟩ := both
    obtain ⟨_, -, finished⟩ := bind_eq_ok_iff.1 (mapError_eq_ok_iff.1 compiled)
    obtain ⟨generated, -, finished⟩ := bind_eq_ok_iff.1 finished
    obtain rfl := Except.ok.inj finished
    have told := books.ledger.perm_told begun fun id tag onPath => rest.unknown onPath
    change (Diagnostic.deprecations final.warnings).Perm _
    rw [Context.deprecations_warnings books.reported]
    refine (told.filterMap _).trans (.of_eq ?_)
    rw [List.filterMap_filter]
    refine List.filterMap_congr fun id _ => ?_
    cases tree.deprecation? id <;> rfl

/-- A compilation with the core taglib that succeeds warns about older names of control tags once for each. Its warnings
with that code are, in some order, one for each `c-if`, `c-else-if`, `c-else` and `c-for` element of the template as it
was read, with the name of its tag and its position. -/
theorem Compiler.compile_warns_once {compiler : Compiler} (core : compiler.registry = Registry.core)
    {file source : String} {module : CodeModule} (compiled : (compiler.compile file source).result = .ok module) :
    ∃ root tree, Template.read file source = .ok (root, tree) ∧ tree.file = file ∧
      (module.warnings.filter fun warning => warning.code == Diagnostic.deprecatedTagCode).Perm
        ((tree.preorder root).filterMap tree.deprecation?) := by
  rw [Compiler.compile, core, Compilation.run] at compiled
  rcases Template.read_cases file source with ⟨fault, refused, -⟩ | ⟨root, tree, done, template, -⟩
  · rw [refused] at compiled
    cases compiled
  · rw [done] at compiled
    obtain ⟨same, attached⟩ := Template.attached_of_read done template
    exact ⟨root, tree, done, same, Compilation.warns_once template attached compiled⟩

/-- A loop and a branch in a conditional, and a branch behind it. The walk comes to the first two, and the conditional
takes the branches. -/
theorem Compiler.compile_warns_once_branches :
    let source := "<c-if test=\"a\"><c-for each=\"b in c\">d</c-for><c-else-if test=\"e\">f</c-else-if></c-if><c-else>g</c-else>"
    let compiler : Compiler := { registry := Registry.core, options := {}, fuel := 40 }
    ∃ module root tree, (compiler.compile "page" source).result = .ok module ∧
      Template.read "page" source = .ok (root, tree) ∧
      module.warnings.map Diagnostic.context =
        [some "<c-if>", some "<c-else-if>", some "<c-else>", some "<c-for>"] ∧
      (module.warnings.filter fun warning => warning.code == Diagnostic.deprecatedTagCode).Perm
        ((tree.preorder root).filterMap tree.deprecation?) := by
  intro source compiler
  -- The compilation is run on the letters of the source, whose bytes would be slow to decode.
  have letters : source.toList = _ := String.toList_ofList
  have ends : (compiler.compile "page" source).result.toOption.map (fun module => module.warnings.map Diagnostic.context) =
      some [some "<c-if>", some "<c-else-if>", some "<c-else>", some "<c-for>"] := by
    change (Compilation.run Registry.core {} 40 "page" source).result.toOption.map _ = _
    rw [Compilation.run, Template.read, letters]
    decide +kernel
  generalize compiled : (compiler.compile "page" source).result = result at ends
  rcases result with _ | module
  · cases ends
  · obtain ⟨root, tree, read, -, warns⟩ := Compiler.compile_warns_once rfl compiled
    exact ⟨module, root, tree, rfl, read, Option.some.inj ends, warns⟩

end HtmlTemplate
