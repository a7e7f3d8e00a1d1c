import HtmlTemplate.Proofs.Transform
import HtmlTemplate.Proofs.Tree.Marks
import HtmlTemplate.Proofs.Walk.Run

/-!
# One round of transforms

A round checks the tag of a node and applies its transforms for a phase in order, up to the first one that
reports a change. If transforms that report no change leave the tree alone, a round is at most one
application of one transform.
-/

namespace HtmlTemplate
namespace Walk

variable {registry : Registry} {state : Progress} {context : Context} {id : NodeId} {phase : Phase}

/-! ## Transforms for a node -/

theorem has_of_tag? {tree : Tree} {tag : String} (tagged : (tree.node id).tag? = some tag) : tree.Has id := by
  by_contra absent
  rw [Tree.node_of_not_has absent] at tagged
  change none = some tag at tagged
  cases tagged

theorem has_of_element {tree : Tree} {tag : String} (element : tree.kind id = .element tag) : tree.Has id :=
  has_of_tag? (congrArg Kind.tag? element)

/-- Transforms are applied to nodes that were made. They are declared by a taglib or bind a renderer. -/
theorem mem_transformsFor {tree : Tree} {transform : Transform}
    (member : transform ∈ transformsFor registry tree id phase) :
    tree.Has id ∧ transform.phase = phase ∧
      (registry.Declares transform ∨ ∃ renderer, transform = Transform.bindRenderer renderer) := by
  unfold transformsFor at member
  cases tagged : (tree.node id).tag? with
  | none =>
      rw [tagged] at member
      exact absurd member List.not_mem_nil
  | some tag =>
      simp only [tagged, List.mem_filter, List.mem_append, beq_iff_eq] at member
      obtain ⟨member, phased⟩ := member
      refine ⟨has_of_tag? tagged, phased, ?_⟩
      rcases member with own | general
      · cases found : registry.lookup? tag tree.file with
        | none =>
            rw [found] at own
            exact absurd own List.not_mem_nil
        | some entry =>
            rw [found] at own
            simp only [Option.map_some, Option.getD_some, TagEntry.transforms, List.mem_append,
              Option.mem_toList, Option.map_eq_some_iff] at own
            rcases own with declared | ⟨renderer, -, rfl⟩
            · exact .inl (Registry.declares_of_lookup? found declared)
            · exact .inr ⟨renderer, rfl⟩
      · exact .inl (Registry.declares_of_mem_globals general)

/-- Bindings of renderers are honest, so the transforms of a node are if those that are declared are. -/
theorem honest_of_mem_transformsFor (honest : ∀ transform, registry.Declares transform → transform.Honest)
    {tree : Tree} {transform : Transform} (member : transform ∈ transformsFor registry tree id phase) :
    tree.Has id ∧ transform.Honest := by
  obtain ⟨present, -, declared | ⟨renderer, rfl⟩⟩ := mem_transformsFor member
  · exact ⟨present, honest _ declared⟩
  · exact ⟨present, Transform.honest_bindRenderer renderer⟩

/-! ## Checks -/

/-- The warning that is due for the tag of a node, if there is one. -/
def notice? (registry : Registry) (tree : Tree) (id : NodeId) (tag : String) : Option Diagnostic :=
  match registry.lookup? tag tree.file with
  | some entry => entry.rules.deprecated.map (deprecation tree id tag)
  | none => if needsEntry (tree.kind id) then some (unknownTag tree id tag) else none

/-- The tree with a mark on the node, if its tag keeps the text inside as it is. -/
def preserving (registry : Registry) (tree : Tree) (id : NodeId) (tag : String) : Tree :=
  if (registry.lookup? tag tree.file).any fun entry => entry.rules.preserve then tree.setPreserve id true else tree

/-- What a warning that is due leaves behind: a node is warned about once for each code. -/
inductive Warned (id : NodeId) (state : Progress) (context : Context) : Option Diagnostic → Progress → Context → Prop
  | nothing : Warned id state context none state context
  | again {warning : Diagnostic} : (id, warning.code) ∈ state.warned → Warned id state context (some warning) state context
  | first {warning : Diagnostic} : (id, warning.code) ∉ state.warned →
      Warned id state context (some warning) { state with warned := (id, warning.code) :: state.warned }
        { context with diagnostics := context.diagnostics ++ [warning] }

/-- No taglib knows the tag of the node, and one has to. -/
structure Unrecognized (registry : Registry) (context : Context) (id : NodeId) (tag : String) : Prop where
  missing : registry.lookup? tag context.tree.file = none
  needed : needsEntry (context.tree.kind id) = true
  refused : context.options.allowUnknownTags = false

/-- The node is right inside of one with another tag, which does not allow its own. -/
structure Disallowed (registry : Registry) (tree : Tree) (id : NodeId) (tag above : String) : Prop where
  inside : ∃ parent, tree.parent id = some parent ∧ (tree.kind parent).tag? = some above
  refused : ∃ entry, registry.lookup? above tree.file = some entry ∧ entry.rules.nesting.allows tag = false

/-- Why the tag of a node does not pass its check. -/
inductive Rejected (registry : Registry) (id : NodeId) (context : Context) : Halt → Prop
  | unrecognized {tag : String} : (context.tree.kind id).tag? = some tag → Unrecognized registry context id tag →
      Rejected registry id context (.fault (context.tree.faultAt id (.unknownTag tag)))
  | disallowed {tag above : String} {fault : Fault} : (context.tree.kind id).tag? = some tag →
      Disallowed registry context.tree id tag above → fault.cause = .notAllowedInside tag above →
        Rejected registry id context (.fault fault)

/-- What the check of a node leaves behind if its tag passes. -/
inductive Inspected (registry : Registry) (id : NodeId) (state : Progress) (context : Context) : Progress → Context → Prop
  | untagged : (context.tree.kind id).tag? = none → Inspected registry id state context state context
  | tagged {tag : String} {after : Progress} {middle : Context} : (context.tree.kind id).tag? = some tag →
      ¬Unrecognized registry context id tag → (∀ above, ¬Disallowed registry context.tree id tag above) →
        Warned id state context (notice? registry context.tree id tag) after middle →
          Inspected registry id state context after { middle with tree := preserving registry context.tree id tag }

theorem Warned.frame {notice : Option Diagnostic} {after : Progress} {final : Context}
    (warned : Warned id state context notice after final) :
    ∃ codes diagnostics, after = { state with warned := codes } ∧ final = { context with diagnostics } := by
  cases warned with
  | nothing => exact ⟨_, _, rfl, rfl⟩
  | again _ => exact ⟨_, _, rfl, rfl⟩
  | first _ => exact ⟨_, _, rfl, rfl⟩

/-- A check records warnings, and marks the node at most. -/
theorem Inspected.frame {after : Progress} {final : Context} (inspected : Inspected registry id state context after final) :
    ∃ codes diagnostics tree, after = { state with warned := codes } ∧ final = { context with diagnostics, tree } ∧
      (tree = context.tree ∨ tree = context.tree.setPreserve id true) := by
  cases inspected with
  | untagged _ => exact ⟨_, _, _, rfl, rfl, .inl rfl⟩
  | tagged _ _ _ warned =>
      obtain ⟨codes, diagnostics, rfl, rfl⟩ := warned.frame
      refine ⟨codes, diagnostics, _, rfl, rfl, ?_⟩
      unfold preserving
      split
      · exact .inr rfl
      · exact .inl rfl

theorem Disallowed.sameShape {tree after : Tree} {tag above : String} (disallowed : Disallowed registry tree id tag above)
    (shape : tree.SameShape after) : Disallowed registry after id tag above where
  inside := by
    obtain ⟨parent, linked, tagged⟩ := disallowed.inside
    exact ⟨parent, (shape.parent id).trans linked, by rw [shape.kind, tagged]⟩
  refused := by
    rw [shape.file]
    exact disallowed.refused

theorem sameShape_preserving (tree : Tree) (tag : String) : tree.SameShape (preserving registry tree id tag) := by
  unfold preserving
  split
  · exact Tree.sameShape_setPreserve tree id true
  · exact .refl tree

theorem holds_warnOnce {halts : Halt → Prop} (warning : Diagnostic) :
    Holds halts (warnOnce id warning) state context fun _ => Warned id state context (some warning) := by
  unfold warnOnce
  refine holds_progress.bind ?_
  rintro _ state context ⟨rfl, rfl, rfl⟩
  split
  · next known => exact holds_pure (.again (by simpa using known))
  · next new => exact Warned.first (by simpa using new)

theorem holds_checkKnown (tag : String) :
    Holds (fun halt => Unrecognized registry context id tag ∧ halt = .fault (context.tree.faultAt id (.unknownTag tag)))
      (checkKnown registry id tag) state context fun _ after final =>
        ¬Unrecognized registry context id tag ∧ ∃ middle,
          Warned id state context (notice? registry context.tree id tag) after middle ∧
            final = { middle with tree := preserving registry context.tree id tag } := by
  unfold checkKnown
  refine holds_context.bind ?_
  rintro _ state context ⟨rfl, rfl, rfl⟩
  cases found : registry.lookup? tag context.tree.file with
  | some entry =>
      have known : ¬Unrecognized registry context id tag := fun unknown => by cases found.symm.trans unknown.missing
      have marks : ∀ after middle, Warned id state context (entry.rules.deprecated.map (deprecation context.tree id tag))
            after middle →
          Holds (fun halt => Unrecognized registry context id tag ∧
              halt = .fault (context.tree.faultAt id (.unknownTag tag)))
            (if entry.rules.preserve then
              modifyContext fun context => { context with tree := context.tree.setPreserve id true }
              else pure ()) after middle fun _ after final => ¬Unrecognized registry context id tag ∧ ∃ middle,
                Warned id state context (notice? registry context.tree id tag) after middle ∧
                  final = { middle with tree := preserving registry context.tree id tag } := by
        intro after middle warned
        obtain ⟨_, _, -, rfl⟩ := warned.frame
        unfold notice? preserving
        rw [found]
        split
        · next keeps => exact ⟨known, _, warned, by simp [keeps]⟩
        · next plain => exact ⟨known, _, warned, by simp [plain]⟩
      dsimp only
      generalize entry.rules.deprecated = reason at marks ⊢
      cases reason with
      | none => exact marks state context .nothing
      | some reason => exact (holds_warnOnce _).bind fun _ after middle warned => marks after middle warned
  | none =>
      have plain : preserving registry context.tree id tag = context.tree := by simp [preserving, found]
      rw [plain]
      unfold notice?
      rw [found]
      dsimp only
      split
      · next needed =>
          split
          · next allows =>
              have known : ¬Unrecognized registry context id tag := fun unknown => by cases allows.symm.trans unknown.refused
              refine (holds_warnOnce _).weaken fun _ after final warned => ⟨known, final, warned, ?_⟩
              obtain ⟨_, _, -, rfl⟩ := warned.frame
              rfl
          · next refuses => exact holds_failNode ⟨⟨found, needed, by simpa using refuses⟩, rfl⟩
      · next standard => exact ⟨fun unknown => standard unknown.needed, context, .nothing, rfl⟩

theorem holds_checkNesting (tag : String) :
    Holds (fun halt => ∃ above fault, Disallowed registry context.tree id tag above ∧ halt = .fault fault ∧
        fault.cause = .notAllowedInside tag above)
      (checkNesting registry id tag) state context fun _ after final =>
        after = state ∧ final = context ∧ ∀ above, ¬Disallowed registry context.tree id tag above := by
  unfold checkNesting
  refine holds_tree.bind ?_
  rintro _ state context ⟨rfl, rfl, rfl⟩
  -- Only the tag of the parent and its entry decide.
  have decides : ∀ {above}, Disallowed registry context.tree id tag above →
      ((context.tree.parent id).bind fun parent => (context.tree.node parent).tag?) = some above := by
    rintro above ⟨⟨parent, linked, tagged⟩, -⟩
    rw [linked]
    exact tagged
  dsimp only
  split
  · next untagged => exact holds_pure ⟨rfl, rfl, fun above disallowed => by cases untagged.symm.trans (decides disallowed)⟩
  · next above tagged =>
      have same : ∀ {other}, Disallowed registry context.tree id tag other → other = above := fun disallowed =>
        Option.some.inj ((decides disallowed).symm.trans tagged)
      split
      · next unknown =>
          refine holds_pure ⟨rfl, rfl, fun other disallowed => ?_⟩
          obtain rfl := same disallowed
          obtain ⟨entry, known, -⟩ := disallowed.refused
          cases unknown.symm.trans known
      · next entry known =>
          split
          · next allows =>
              refine holds_pure ⟨rfl, rfl, fun other disallowed => ?_⟩
              obtain rfl := same disallowed
              obtain ⟨entry', known', refused⟩ := disallowed.refused
              obtain rfl := Option.some.inj (known.symm.trans known')
              cases allows.symm.trans refused
          · next refuses =>
              obtain ⟨parent, linked, aboveTag⟩ := Option.bind_eq_some_iff.1 tagged
              exact holds_failNode ⟨above, _, ⟨⟨parent, linked, aboveTag⟩, entry, known, by simpa using refuses⟩, rfl, rfl⟩

/-- All that the check of a node can do. -/
theorem holds_checkTag_inspected :
    Holds (Rejected registry id context) (checkTag registry id) state context fun _ =>
      Inspected registry id state context := by
  unfold checkTag
  refine holds_tree.bind ?_
  rintro _ state context ⟨rfl, rfl, rfl⟩
  split
  · next untagged => exact holds_pure (.untagged untagged)
  · next tag tagged =>
      refine ((holds_checkKnown tag).halting ?_).bind ?_
      · rintro _ ⟨unknown, rfl⟩
        exact .unrecognized tagged unknown
      · rintro _ after _ ⟨known, middle, warned, rfl⟩
        have shape : context.tree.SameShape (preserving registry context.tree id tag) := sameShape_preserving _ _
        refine Meets.weaken (holds_checkNesting tag) ?_ ?_
        · rintro _ ⟨above, fault, disallowed, rfl, cause⟩
          exact .disallowed tagged (disallowed.sameShape shape.symm) cause
        · rintro _ _ _ ⟨rfl, rfl, allowed⟩
          exact .tagged tagged known (fun above disallowed => allowed above (disallowed.sameShape shape)) warned

/-- Nodes without tags pass as they are. -/
theorem holds_checkTag_untagged {halts : Halt → Prop} (untagged : (context.tree.kind id).tag? = none) :
    Holds halts (checkTag registry id) state context fun _ after final => after = state ∧ final = context := by
  refine Meets.weaken holds_checkTag_inspected (fun halt rejected => ?_) fun _ after final inspected => ?_
  · cases rejected with
    | unrecognized tagged _ => cases untagged.symm.trans tagged
    | disallowed tagged _ _ => cases untagged.symm.trans tagged
  · cases inspected with
    | untagged _ => exact ⟨rfl, rfl⟩
    | tagged tagged _ _ _ => cases untagged.symm.trans tagged

theorem Rejected.isFault {halt : Halt} (rejected : Rejected registry id context halt) : IsFault halt := by
  cases rejected with
  | unrecognized _ _ => exact ⟨_, rfl⟩
  | disallowed _ _ _ => exact ⟨_, rfl⟩

/-- A check changes the marks of a node at most, and none of the states. -/
structure OnlyChecked (id : NodeId) (state : Progress) (context : Context) (after : Progress)
    (left : Context) : Prop where
  carried : after.carried = state.carried
  tree : left.tree = context.tree ∨ left.tree = context.tree.setPreserve id true

theorem OnlyChecked.shape {after : Progress} {left : Context} (checked : OnlyChecked id state context after left) :
    context.tree.SameShape left.tree := by
  rcases checked.tree with same | same
  · rw [same]
    exact .refl _
  · rw [same]
    exact Tree.sameShape_setPreserve _ _ _

theorem OnlyChecked.state_eq {after : Progress} {left : Context} (checked : OnlyChecked id state context after left)
    (other : NodeId) : (left.tree.node other).state = (context.tree.node other).state := by
  rcases checked.tree with same | same
  · rw [same]
  · rw [same, Tree.state_setPreserve]

theorem Inspected.onlyChecked {after : Progress} {left : Context} (inspected : Inspected registry id state context after left) :
    OnlyChecked id state context after left := by
  obtain ⟨codes, diagnostics, tree, rfl, rfl, marks⟩ := inspected.frame
  exact ⟨rfl, marks⟩

theorem holds_checkTag :
    Holds IsFault (checkTag registry id) state context fun _ => OnlyChecked id state context :=
  Meets.weaken holds_checkTag_inspected (fun _ => Rejected.isFault) fun _ _ _ => Inspected.onlyChecked

/-! ## Applications -/

/-- What a transform reports about a node, and what the walk takes it for. -/
inductive Confirmed (id : NodeId) : Outcome → Tree → Outcome → Tree → Prop
  | changed {tree : Tree} : Confirmed id .changed tree .changed tree
  | itself {tree : Tree} : Confirmed id (.replaced id) tree .changed tree
  | replaced {tree : Tree} {next parent : NodeId} : next ≠ id → tree.parent next = some parent →
      Confirmed id (.replaced next) tree (.replaced next) tree
  | removed {tree : Tree} : tree.parent id = none →
      Confirmed id .removed tree .removed (tree.setState id .settled)

/-- A round of transforms does nothing, or what one application of one of them does. -/
def Round (transforms : List Transform) (id : NodeId) (before : Tree) (outcome : Outcome)
    (after : Tree) : Prop :=
  outcome = .unchanged ∧ after = before ∨
    ∃ transform ∈ transforms, ∃ first reported last, first.tree = before ∧
      transform.Does id first reported last ∧ reported ≠ .unchanged ∧
        Confirmed id reported last.tree outcome after

theorem holds_confirm (transform : Transform) {reported : Outcome} (reports : reported ≠ .unchanged) :
    Holds IsFault (confirm transform id reported) state context fun outcome after left =>
      after = state ∧ Confirmed id reported context.tree outcome left.tree := by
  cases reported with
  | unchanged => exact absurd rfl reports
  | changed => exact holds_pure ⟨rfl, .changed⟩
  | replaced next =>
      refine holds_tree.bind ?_
      rintro _ state context ⟨rfl, rfl, rfl⟩
      by_cases same : next = id
      · subst same
        rw [if_pos (beq_self_eq_true next)]
        exact holds_pure ⟨rfl, .itself⟩
      · rw [if_neg (by simpa using same)]
        cases linked : context.tree.parent next with
        | none => exact holds_failNode ⟨_, rfl⟩
        | some parent => exact holds_pure ⟨rfl, .replaced same linked⟩
  | removed =>
      refine holds_tree.bind ?_
      rintro _ state context ⟨rfl, rfl, rfl⟩
      cases linked : context.tree.parent id with
      | some parent => exact holds_failNode ⟨_, rfl⟩
      | none => exact ⟨rfl, .removed linked⟩

/-- The transforms that report no change leave the tree of the context alone. -/
def Quiet (transforms : List Transform) (id : NodeId) (tree : Tree) : Prop :=
  ∀ transform ∈ transforms, ∀ before after, before.tree = tree →
    transform.Does id before .unchanged after → after.tree = tree

theorem quiet_of_honest (honest : ∀ transform, registry.Declares transform → transform.Honest) {tree : Tree}
    (wellFormed : tree.WellFormed) (id : NodeId) (phase : Phase) :
    Quiet (transformsFor registry tree id phase) id tree := by
  intro transform member before after same does
  obtain ⟨present, honestly⟩ := honest_of_mem_transformsFor honest member
  subst same
  exact honestly.reports wellFormed present does

theorem holds_applyFirst {transforms : List Transform} (quiet : Quiet transforms id context.tree) :
    Holds IsFault (applyFirst id transforms) state context fun outcome after left =>
      after.carried = state.carried ∧ Round transforms id context.tree outcome left.tree := by
  induction transforms generalizing context with
  | nil => exact holds_pure ⟨rfl, .inl ⟨rfl, rfl⟩⟩
  | cons transform transforms hypothesis =>
      refine .applyFirst (fun fault _ _ => ⟨fault, rfl⟩) (fun middle does => ?_) fun outcome middle does reports => ?_
      · have same : middle.tree = context.tree := quiet transform List.mem_cons_self context middle rfl does
        have rest : Quiet transforms id middle.tree := by
          rw [same]
          exact fun other member => quiet other (List.mem_cons_of_mem _ member)
        refine (hypothesis rest).weaken ?_
        rintro outcome after left ⟨carried, round⟩
        rw [same] at round
        rcases round with nothing | ⟨other, member, applied⟩
        · exact ⟨carried, .inl nothing⟩
        · exact ⟨carried, .inr ⟨other, List.mem_cons_of_mem _ member, applied⟩⟩
      · refine (holds_confirm transform reports).weaken ?_
        rintro result _ last ⟨rfl, confirmed⟩
        exact ⟨rfl, .inr ⟨transform, List.mem_cons_self, context, outcome, middle, rfl, does, reports, confirmed⟩⟩

theorem holds_runPhase (quiet : Quiet (transformsFor registry context.tree id phase) id context.tree) :
    Holds IsFault (runPhase registry id phase) state context fun result after left =>
      after.carried = state.carried ∧ result.2 = context.tree.size ∧
        Round (transformsFor registry context.tree id phase) id context.tree result.1 left.tree := by
  refine ((holds_applyFirst quiet).weaken ?_).runPhase
  rintro outcome after left ⟨carried, round⟩
  exact ⟨carried, rfl, round⟩

/-- Entering a node marks it, checks it, and applies a round of transforms to the tree with these marks. -/
theorem holds_enterOnce (quiet : ∀ entered, context.tree.SameShape entered →
      Quiet (transformsFor registry entered id .enter) id entered) :
    Holds IsFault (enterOnce registry id) state context fun result after left =>
      after.carried = state.carried ∧ result.2 = context.tree.size ∧
        ∃ entered, context.tree.SameShape entered ∧
          (∀ other, (entered.node other).state = ((context.tree.setState id .entering).node other).state) ∧
          Round (transformsFor registry entered id .enter) id entered result.1 left.tree := by
  refine holds_checkTag.enterOnce fun after left checked => ?_
  have shape : context.tree.SameShape left.tree :=
    (context.tree.sameShape_setState id .entering).trans checked.shape
  refine (holds_runPhase (quiet left.tree shape)).weaken ?_
  rintro result last final ⟨carriedOn, size, round⟩
  exact ⟨carriedOn.trans checked.carried, size.trans shape.size, left.tree, shape, checked.state_eq, round⟩

end Walk
end HtmlTemplate
