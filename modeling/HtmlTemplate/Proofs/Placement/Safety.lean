import HtmlTemplate.Control
import HtmlTemplate.Proofs.Desugaring.Lowering
import HtmlTemplate.Proofs.Placement.Kinds

/-!
# Edits that fail for the template only

The transforms of control tags fail for what a template says, and never since nodes are linked as they are:
what they move is free to be moved, and nodes stay in their places.
-/

namespace HtmlTemplate

/-- Are faults of the class faults of a template, and not of a transform? -/
def FaultClass.ofTemplate : FaultClass → Bool
  | parse => true
  | unknownTag => true
  | invalidKind => true
  | invalidAttribute => true
  | invalidNesting => true
  | detachedNode => false
  | transformLoop => false
  | unsupportedNode => false

/-- The fault is one of a template, and not one of a transform. -/
def Fault.OfTemplate (fault : Fault) : Prop :=
  fault.faultClass.ofTemplate = true

namespace Kind

/-- The check fails only for a kind that says what no node can be. -/
def Refuses (check : Except Cause Unit) : Prop :=
  ∀ cause, check = .error cause → cause.faultClass = .invalidKind

theorem refuses_ok : Refuses (.ok ()) :=
  fun _ refused => by cases refused

theorem refuses_error {cause : Cause} (invalid : cause.faultClass = .invalidKind) : Refuses (.error cause) := by
  intro other refused
  rw [← Except.error.inj refused, invalid]

theorem Refuses.bind {check rest : Except Cause Unit} (first : Refuses check) (next : Refuses rest) :
    Refuses (check >>= fun _ => rest) := by
  cases check with
  | error cause => exact refuses_error (first cause rfl)
  | ok _ => exact next

theorem refuses_checkCode (role : CodeRole) (code : String) : Refuses (checkCode role code) := by
  unfold checkCode
  split
  · exact refuses_ok
  · exact refuses_error rfl

theorem refuses_checkTag (tag : String) : Refuses (checkTag tag) := by
  unfold checkTag
  split
  · exact refuses_ok
  · exact refuses_error rfl

theorem refuses_checkVariable (name : String) : Refuses (checkVariable name) := by
  unfold checkVariable
  split
  · exact refuses_ok
  · exact refuses_error rfl

/-- A kind is refused for what it says. -/
theorem refuses_check (kind : Kind) : Refuses kind.check := by
  cases kind with
  | element tag => exact refuses_checkTag tag
  | customTag name renderer =>
      refine (refuses_checkTag name).bind ?_
      split
      · exact refuses_error rfl
      · exact refuses_ok
  | comment value emit =>
      cases emit with
      | false => exact refuses_ok
      | true =>
          simp only [check]
          split
          · exact refuses_error rfl
          · exact refuses_ok
  | placeholder code escape => exact refuses_checkCode _ code
  | branch test =>
      cases test with
      | none => exact refuses_ok
      | some test => exact refuses_checkCode _ test
  | iteration item index source =>
      refine (refuses_checkVariable item).bind ?_
      cases index with
      | none => exact refuses_checkCode _ source
      | some index => exact (refuses_checkVariable index).bind (refuses_checkCode _ source)
  | document => exact refuses_ok
  | text value => exact refuses_ok
  | conditional => exact refuses_ok
  | doctype name => exact refuses_ok

theorem ofTemplate_of_check {kind : Kind} {cause : Cause} (refused : kind.check = .error cause) :
    cause.faultClass.ofTemplate = true := by
  rw [refuses_check kind cause refused]
  rfl

end Kind

namespace Edit

variable {α β : Type} {context : Context} {good : α → Context → Prop}

/-- The edit does what is good, or fails for the template. -/
def Safely (work : Edit α) (context : Context) (good : α → Context → Prop) : Prop :=
  match work.run context with
  | (.ok value, after) => good value after
  | (.error fault, _) => fault.OfTemplate

theorem safely_of_ok {work : Edit α} {value : α} {after : Context} (ran : work.run context = (.ok value, after))
    (meets : good value after) : Safely work context good := by
  unfold Safely
  rw [ran]
  exact meets

theorem safely_of_error {work : Edit α} {fault : Fault} {after : Context} (ran : work.run context = (.error fault, after))
    (ofTemplate : fault.OfTemplate) : Safely work context good := by
  unfold Safely
  rw [ran]
  exact ofTemplate

theorem safely_pure {value : α} (meets : good value context) : Safely (pure value) context good :=
  meets

theorem Safely.bind {work : Edit α} {next : α → Edit β} {after : β → Context → Prop} (begins : Safely work context good)
    (goesOn : ∀ value context, good value context → Safely (next value) context after) :
    Safely (work >>= next) context after := by
  unfold Safely at begins ⊢
  rw [run_bind]
  generalize work.run context = result at begins ⊢
  rcases result with ⟨fault | value, between⟩
  · exact begins
  · exact goesOn value between begins

/-- A step that succeeds leads to the state that the rest is run in. -/
theorem Safely.step {first : Edit β} {next : β → Edit α} {given : β} {after : Context}
    (began : first.run context = (.ok given, after)) (rest : Safely (next given) after good) :
    Safely (first >>= next) context good := by
  unfold Safely at rest ⊢
  rw [run_bind, began]
  exact rest

theorem Safely.weaken {work : Edit α} {other : α → Context → Prop} (safely : Safely work context good)
    (ending : ∀ value after, good value after → other value after) : Safely work context other := by
  unfold Safely at safely ⊢
  generalize work.run context = result at safely ⊢
  rcases result with ⟨fault | value, after⟩
  · exact safely
  · exact ending value after safely

theorem safely_failAt {id : NodeId} {cause : Cause}
    (ofTemplate : cause.faultClass.ofTemplate = true) : Safely (failAt id cause) context good :=
  ofTemplate

end Edit

namespace Construct

open HtmlTemplate.Tree

variable {context : Context} {before : Tree} {host id : NodeId}

/-- The context is in the middle of an edit of nodes below the host, and all nodes are in their places. -/
structure Building (before : Tree) (host : NodeId) (tree : Tree) : Prop where
  sound : before.WellFormed
  present : before.Has host
  worked : before.Worked host [] tree
  placed : tree.WellPlaced

namespace Building

variable {tree after : Tree}

theorem wellFormed (building : Building before host tree) : tree.WellFormed :=
  building.worked.reaches.wellFormed building.sound

/-- A free node is not above the host. -/
theorem not_above (building : Building before host tree) (free : before.Free host [] id) : ¬tree.OnPath id host :=
  building.worked.not_above building.sound building.present free

theorem grown (building : Building before host tree) (reaches : tree.Reaches after) (extension : tree.Extends after)
    (untagged : ∀ id, ¬tree.Has id → (after.kind id).tag? = none) (placed : after.WellPlaced) :
    Building before host after where
  sound := building.sound
  present := building.present
  worked := building.worked.grown building.present reaches extension untagged
  placed := placed

theorem relinked {owners moved : List NodeId} (building : Building before host tree) (reaches : tree.Reaches after)
    (relinked : tree.Relinked owners moved after) (owned : ∀ owner ∈ owners, owner = host ∨ before.Free host [] owner)
    (freed : ∀ other ∈ moved, before.Free host [] other)
    (takes : ∀ owner ∈ owners, (tree.kind owner).Takes ((after.children owner).map tree.kind)) :
    Building before host after where
  sound := building.sound
  present := building.present
  worked := building.worked.relinked building.sound building.present reaches relinked owned freed
  placed := relinked.wellPlaced building.placed takes

end Building

/-! ## Reading attributes -/

theorem safely_requireOnly (id : NodeId) (allowed : List String) :
    Edit.Safely (requireOnly id allowed) context fun _ after => after = context := by
  unfold requireOnly
  refine .step (Edit.run_tree context) ?_
  dsimp only
  split
  · exact Edit.safely_failAt rfl
  · exact Edit.safely_pure rfl

theorem safely_requireCode (id : NodeId) (name : String) :
    Edit.Safely (requireCode id name) context fun _ after => after = context := by
  unfold requireCode
  refine .step (Edit.run_tree context) ?_
  dsimp only
  split
  · exact Edit.safely_failAt rfl
  · exact Edit.safely_pure rfl

/-! ## Making constructs -/

theorem safely_create (building : Building before host context.tree) (place : NodeId) {kind : Kind}
    (untagged : kind.tag? = none) :
    Edit.Safely (create place kind []) context fun value after =>
      after = { context with tree := after.tree } ∧ Building before host after.tree ∧
        context.tree.Reaches after.tree ∧ context.tree.Extends after.tree ∧ ¬context.tree.Has value ∧
          after.tree.IsConstruct value kind [] none := by
  cases passes : kind.check with
  | error cause =>
      have failed : context.tree.create (context.tree.node place).position kind [] [] =
          .error (context.tree.newFault (context.tree.node place).position cause) := by
        rw [Tree.create, Tree.requireKind, passes]
        rfl
      have ran : (create place kind []).run context =
          (.error (context.tree.newFault (context.tree.node place).position cause), context) := by
        unfold create
        rw [Edit.run_makeTree, failed]
      refine Edit.safely_of_error ran ?_
      exact Kind.ofTemplate_of_check passes
  | ok done =>
      obtain ⟨tree, created, edited, extension, construct⟩ :=
        exists_create context.tree (context.tree.node place).position passes
      refine Edit.safely_of_ok (run_create_of_ok created) ⟨rfl, ?_, .single edited, extension, not_has_size, construct⟩
      refine building.grown (.single edited) extension (fun other absent => ?_) ?_
      · refine untagged_of_create created untagged ?_
        rw [kind_of_not_has absent]
        rfl
      · exact building.placed.create building.wellFormed created (fun _ none => absurd none List.not_mem_nil)
          (Kind.takes_nil kind)

theorem safely_conditional (building : Building before host context.tree) (place : NodeId) (test : String) :
    Edit.Safely (conditional place test) context fun value after =>
      after = { context with tree := after.tree } ∧ Building before host after.tree ∧
        context.tree.Extends after.tree ∧ ¬context.tree.Has value.1 ∧ ¬context.tree.Has value.2 ∧
          after.tree.IsConstruct value.1 .conditional [value.2] none ∧
            after.tree.IsConstruct value.2 (.branch (some test)) [] (some value.1) := by
  unfold conditional
  refine (safely_create building place rfl).bind ?_
  rintro branch middle ⟨same, known, reaches, extension, absent, construct⟩
  have container : Kind.conditional.isContainer = true := rfl
  obtain ⟨tree, created, edited, outer, inner, keeps⟩ :=
    exists_create_around (middle.tree.node place).position rfl container construct
  refine .step (run_create_of_ok created) (Edit.safely_pure ?_)
  have extended := keeps context.tree extension absent
  have fresh : ¬context.tree.Has ⟨middle.tree.size⟩ := fun present => not_has_size (extension.has present)
  refine ⟨by rw [same], ?_, extended, fresh, absent, outer, inner⟩
  refine building.grown (reaches.tail edited) extended (fun other absent => ?_) ?_
  · refine untagged_of_create created rfl ?_
    exact known.worked.untagged other fun present => absent (building.worked.has present)
  · refine known.placed.create known.wellFormed created (fun kid member => ?_) ?_
    · rw [List.mem_singleton.1 member]
      exact construct.present
    · rw [Kind.takes_conditional_iff, List.map_singleton, construct.kind]
      exact .last (some test)

theorem safely_iteration (building : Building before host context.tree) (place : NodeId) (header : String) :
    Edit.Safely (iteration place header) context fun value after =>
      after = { context with tree := after.tree } ∧ Building before host after.tree ∧
        context.tree.Extends after.tree ∧ ¬context.tree.Has value ∧
          ∃ kind, kind.isContainer = true ∧ kind.isContent = true ∧ kind ≠ .conditional ∧
            after.tree.IsConstruct value kind [] none := by
  unfold iteration
  cases LoopHeader.parse? header with
  | none => exact Edit.safely_failAt rfl
  | some loop =>
      refine (safely_create building place rfl).weaken ?_
      rintro value after ⟨same, known, -, extension, absent, construct⟩
      have other : Kind.iteration loop.item loop.index loop.source ≠ .conditional := fun impossible => by
        cases impossible
      exact ⟨same, known, extension, absent, _, rfl, rfl, other, construct⟩

/-! ## Moving nodes -/

variable {source target new : NodeId} {kids : List NodeId}

/-- Free nodes without parents are put behind the children of a free node. -/
theorem run_join (building : Building before host context.tree) (hasTarget : context.tree.Has target)
    (container : (context.tree.kind target).isContainer = true) (freeTarget : before.Free host [] target)
    (distinct : kids.Nodup) (freeKids : ∀ kid ∈ kids, before.Free host [] kid)
    (loose : ∀ kid ∈ kids, context.tree.Has kid ∧ context.tree.parent kid = none ∧ ¬context.tree.OnPath kid target)
    (takes : (context.tree.kind target).Takes ((context.tree.children target ++ kids).map context.tree.kind)) :
    ∃ tree, (appendAll target kids).run context = (.ok (), { context with tree }) ∧ Building before host tree ∧
      context.tree.Relinked [target] kids tree ∧ tree.children target = context.tree.children target ++ kids := by
  obtain ⟨tree, ran, reaches, relinked, children⟩ :=
    run_appendAll building.wellFormed hasTarget container distinct loose
  refine ⟨tree, ran, building.relinked reaches relinked ?_ freeKids ?_, relinked, children⟩
  · intro owner member
    rw [List.mem_singleton.1 member]
    exact .inr freeTarget
  · intro owner member
    rw [List.mem_singleton.1 member, children]
    exact takes

/-- A free node without a parent is put behind the children of a free node. -/
theorem run_adjoin {kid : NodeId} (building : Building before host context.tree) (hasTarget : context.tree.Has target)
    (container : (context.tree.kind target).isContainer = true) (freeTarget : before.Free host [] target)
    (hasKid : context.tree.Has kid) (detached : context.tree.parent kid = none) (freeKid : before.Free host [] kid)
    (apart : ¬context.tree.OnPath kid target)
    (takes : (context.tree.kind target).Takes ((context.tree.children target ++ [kid]).map context.tree.kind)) :
    ∃ tree, (append target kid).run context = (.ok (), { context with tree }) ∧ Building before host tree ∧
      context.tree.Relinked [target] [kid] tree ∧ tree.children target = context.tree.children target ++ [kid] := by
  obtain ⟨tree, ran, edited, relinked, children⟩ :=
    run_append building.wellFormed hasTarget hasKid container detached apart
  refine ⟨tree, ran, building.relinked (.single edited) relinked ?_ ?_ ?_, relinked, children⟩
  · intro owner member
    rw [List.mem_singleton.1 member]
    exact .inr freeTarget
  · intro other member
    rw [List.mem_singleton.1 member]
    exact freeKid
  · intro owner member
    rw [List.mem_singleton.1 member, children]
    exact takes

/-- All children of a free node are taken from it. -/
theorem run_take (building : Building before host context.tree) (free : before.Free host [] source) :
    ∃ tree, (Edit.takeTree fun tree => tree.takeChildren source).run context =
        (.ok (context.tree.children source), { context with tree }) ∧ Building before host tree ∧
      context.tree.Relinked [source] (context.tree.children source) tree ∧ tree.children source = [] ∧
        ∀ kid ∈ context.tree.children source, tree.parent kid = none := by
  obtain ⟨relinked, empty⟩ := relinked_takeChildren context.tree source
  refine ⟨(context.tree.takeChildren source).2, rfl, ?_, relinked, empty, fun kid member =>
    building.wellFormed.parent_takeChildren member⟩
  refine building.relinked (.single (.takeChildren source)) relinked ?_ ?_ ?_
  · intro owner member
    rw [List.mem_singleton.1 member]
    exact .inr free
  · intro kid member
    exact building.worked.free_of_child building.sound ((building.wellFormed.linked source kid).1 member) free
  · intro owner member
    rw [List.mem_singleton.1 member, empty]
    exact Kind.takes_nil _

theorem free_of_new (absent : ¬before.Has id) : before.Free host [] id :=
  fun present => absurd present absent

/-- A child of the host is free. -/
theorem Building.free {tree : Tree} (building : Building before host tree) (linked : tree.parent id = some host) :
    before.Free host [] id :=
  building.worked.free_of_host linked List.not_mem_nil

/-- A free node without a parent takes the place of a child of the host. -/
theorem run_exchange (building : Building before host context.tree) (linked : context.tree.parent id = some host)
    (content : (context.tree.kind id).isContent = true) (hasNew : context.tree.Has new)
    (detached : context.tree.parent new = none) (free : before.Free host [] new)
    (fits : (context.tree.kind new).isContent = true) :
    ∃ tree, (replace id new).run context = (.ok (.replaced new), { context with tree }) ∧
      Building before host tree ∧ context.tree.Relinked [host] [id, new] tree ∧ tree.parent id = none ∧
        tree.parent new = some host := by
  have member := (building.wellFormed.linked host id).2 linked
  obtain ⟨front, rest, listed⟩ := List.append_of_mem member
  obtain ⟨tree, made, edited, relinked, children, gone, there⟩ :=
    exists_replace building.wellFormed listed hasNew detached (building.not_above free)
  refine ⟨tree, ?_, building.relinked (.single edited) relinked ?_ ?_ ?_, relinked, gone, there⟩
  · unfold replace
    rw [Edit.run_bind, Edit.run_tree]
    dsimp only
    rw [linked]
    exact Edit.run_bind_eq_ok_iff.2 ⟨(), _, Edit.run_changeTree_eq_ok_iff.2 ⟨tree, made, rfl⟩, rfl⟩
  · exact fun owner among => .inl (List.mem_singleton.1 among)
  · intro other among
    rcases List.mem_cons.1 among with rfl | among
    · exact building.free linked
    · rw [List.mem_singleton.1 among]
      exact free
  · intro owner among
    have outer := building.placed.ne_conditional member content
    rw [List.mem_singleton.1 among, children, Kind.takes_iff_of_ne outer]
    have before := (Kind.takes_iff_of_ne outer).1 (building.placed host)
    rw [listed] at before
    simp only [List.map_append, List.map_cons, List.mem_append, List.mem_cons, or_imp, forall_and] at before ⊢
    exact ⟨before.1, fun _ same => same ▸ fits, before.2.2⟩

/-! ## Transforms that replace their node -/

/-- The node has lost its place to a new one, and below the host the rest is in its place. -/
def Replaces (before : Context) (host id : NodeId) (outcome : Outcome) (after : Context) : Prop :=
  ∃ new, outcome = .replaced new ∧ Building before.tree host after.tree ∧ after.tree.parent id = none ∧
    after.tree.parent new = some host ∧ ¬before.tree.Has new

theorem elementTag?_of_kind {tree : Tree} {tag : String} (kind : tree.kind id = .element tag) :
    elementTag? tree id = some tag := by
  simp [elementTag?, kind]

theorem Building.start {tree : Tree} (wellFormed : tree.WellFormed) (placed : tree.WellPlaced)
    (linked : tree.parent id = some host) : Building tree host tree :=
  ⟨wellFormed, wellFormed.has_parent linked, .refl tree host [], placed⟩

theorem safely_textOf (ids : List NodeId) :
    Edit.Safely (Comment.textOf ids) context fun _ after => after = context := by
  induction ids with
  | nil => exact Edit.safely_pure rfl
  | cons id ids hypothesis =>
      unfold Comment.textOf
      refine .step (Edit.run_tree context) ?_
      split
      · refine hypothesis.bind ?_
        rintro others _ rfl
        exact Edit.safely_pure rfl
      · exact Edit.safely_failAt rfl

theorem safely_lowerComment {tag : String} (wellFormed : context.tree.WellFormed) (placed : context.tree.WellPlaced)
    (kind : context.tree.kind id = .element tag) (linked : context.tree.parent id = some host) :
    Edit.Safely (Comment.lower id) context (Replaces context host id) := by
  have building := Building.start wellFormed placed linked
  have present := has_of_parent linked
  unfold Comment.lower
  refine .step (Edit.run_tree context) ?_
  rw [elementTag?_of_kind kind, if_neg (by simp)]
  refine (safely_requireOnly id []).bind ?_
  rintro _ _ rfl
  refine (safely_textOf _).bind ?_
  rintro text context rfl
  refine (safely_create building id rfl).bind ?_
  rintro new middle ⟨same, known, -, extension, absent, construct⟩
  have there : middle.tree.parent id = some host := by
    rw [Tree.parent, extension.node_of_has id present, ← Tree.parent, linked]
  have content : (middle.tree.kind id).isContent = true := by
    rw [Tree.kind, extension.node_of_has id present, ← Tree.kind, kind]
    rfl
  obtain ⟨tree, ran, final, -, gone, placed⟩ := run_exchange known there content construct.present construct.parent
    (free_of_new absent) (by rw [construct.kind]; rfl)
  exact Edit.safely_of_ok ran ⟨new, rfl, final, gone, placed, absent⟩

/-! ## Loops -/

/-- What hangs below a free node without a parent is free, and the host is not above it. -/
theorem Building.loose {tree : Tree} {top other : NodeId} (building : Building before host tree)
    (detached : tree.parent top = none) (free : before.Free host [] top) (onPath : tree.OnPath top other) :
    before.Free host [] other ∧ ¬tree.OnPath host other := by
  refine ⟨building.worked.free_of_onPath building.sound free onPath, fun above => ?_⟩
  rcases above.comparable onPath with upper | upper
  · have same := onPath_of_root detached upper
    exact building.not_above free (same ▸ .self)
  · exact building.not_above free upper

/-- The children of a free node, which is no conditional, are moved into a container that hangs loose. -/
theorem run_move {top : NodeId} (building : Building before host context.tree) (free : before.Free host [] source)
    (other : context.tree.kind source ≠ .conditional) (detached : context.tree.parent top = none)
    (freeTop : before.Free host [] top) (onPath : context.tree.OnPath top target)
    (apart : ¬context.tree.OnPath source target) (hasTarget : context.tree.Has target)
    (container : (context.tree.kind target).isContainer = true) (outer : context.tree.kind target ≠ .conditional)
    (empty : context.tree.children target = []) :
    ∃ tree, (moveChildren source target).run context = (.ok (), { context with tree }) ∧ Building before host tree ∧
      context.tree.Relinked [source, target] (context.tree.children source) tree ∧
        tree.children target = context.tree.children source := by
  have wellFormed := building.wellFormed
  have kidApart : ∀ kid ∈ context.tree.children source, ¬context.tree.OnPath kid target := fun kid member above =>
    apart ((OnPath.step ((wellFormed.linked source kid).1 member) .self).trans above)
  have different : source ≠ target := fun same => apart (same ▸ .self)
  obtain ⟨tree, ran, reaches, relinked, taken, children⟩ :=
    run_moveChildren wellFormed hasTarget container different kidApart
  rw [empty, List.nil_append] at children
  refine ⟨tree, ran, building.relinked reaches relinked ?_ ?_ ?_, relinked, children⟩
  · intro owner member
    rcases List.mem_cons.1 member with rfl | member
    · exact .inr free
    · rw [List.mem_singleton.1 member]
      exact .inr (building.loose detached freeTop onPath).1
  · exact fun kid member => building.worked.free_of_child building.sound ((wellFormed.linked source kid).1 member) free
  · intro owner member
    rcases List.mem_cons.1 member with rfl | member
    · rw [taken]
      exact Kind.takes_nil _
    · rw [List.mem_singleton.1 member, children, Kind.takes_iff_of_ne outer]
      intro kind among
      obtain ⟨kid, listed, rfl⟩ := List.mem_map.1 among
      exact building.placed.isContent other listed

/-- What a control tag and its parent are while its construct is built. -/
structure Waiting (host id : NodeId) (tree : Tree) : Prop where
  linked : tree.parent id = some host
  content : (tree.kind id).isContent = true
  other : tree.kind id ≠ .conditional

theorem Waiting.grown {tree after : Tree} (waiting : Waiting host id tree) (extension : tree.Extends after) :
    Waiting host id after := by
  have present := has_of_parent waiting.linked
  constructor
  · rw [Tree.parent, extension.node_of_has id present, ← Tree.parent, waiting.linked]
  · rw [Tree.kind, extension.node_of_has id present, ← Tree.kind, waiting.content]
  · rw [Tree.kind, extension.node_of_has id present, ← Tree.kind]
    exact waiting.other

theorem Waiting.relinked {tree after : Tree} {owners moved : List NodeId} (waiting : Waiting host id tree)
    (relinked : tree.Relinked owners moved after) (unmoved : id ∉ moved) : Waiting host id after := by
  constructor
  · rw [relinked.parent_eq unmoved, waiting.linked]
  · rw [relinked.kind, waiting.content]
  · rw [relinked.kind]
    exact waiting.other

theorem Waiting.start {tree : Tree} {tag : String} (kind : tree.kind id = .element tag)
    (linked : tree.parent id = some host) : Waiting host id tree :=
  ⟨linked, by rw [kind]; rfl, by rw [kind]; exact fun impossible => by cases impossible⟩

/-- A tag that waits is not above what hangs below a free node without a parent. -/
theorem Building.not_above_loose {tree : Tree} {top other : NodeId} (building : Building before host tree)
    (waiting : Waiting host id tree) (detached : tree.parent top = none) (free : before.Free host [] top)
    (onPath : tree.OnPath top other) : ¬tree.OnPath id other := fun above =>
  (building.loose detached free onPath).2 ((OnPath.step waiting.linked .self).trans above)

theorem Waiting.ne_host {tree : Tree} (waiting : Waiting host id tree) (wellFormed : tree.WellFormed) : host ≠ id := by
  intro same
  obtain ⟨depth, grounded⟩ := wellFormed.grounded id
  exact not_onPath_parent grounded waiting.linked (same ▸ .self)

/-- A construct without a parent stays as it is while the children of the tag are moved elsewhere. -/
theorem Waiting.unloaded {tree after : Tree} {kind : Kind} {row : List NodeId} (waiting : Waiting host id tree)
    (wellFormed : tree.WellFormed) (construct : tree.IsConstruct new kind row none)
    (relinked : tree.Relinked [id, target] (tree.children id) after) (different : new ≠ target) :
    after.IsConstruct new kind row none := by
  refine construct.relinked relinked ?_ ?_
  · simp only [List.mem_cons, List.not_mem_nil, or_false, not_or]
    refine ⟨?_, different⟩
    rintro rfl
    cases construct.parent.symm.trans waiting.linked
  · rw [wellFormed.linked, construct.parent]
    simp

/-- A tag that waits is none of its children. -/
theorem Waiting.not_child {tree : Tree} (waiting : Waiting host id tree) (wellFormed : tree.WellFormed) :
    id ∉ tree.children id := by
  rw [wellFormed.linked, waiting.linked]
  intro same
  exact waiting.ne_host wellFormed (Option.some.inj same)

/-- A new construct takes the place of the tag. -/
theorem safely_exchange {first : Context} (building : Building first.tree host context.tree)
    (waiting : Waiting host id context.tree) (hasNew : context.tree.Has new)
    (detached : context.tree.parent new = none) (absent : ¬first.tree.Has new)
    (fits : (context.tree.kind new).isContent = true) :
    Edit.Safely (replace id new) context (Replaces first host id) := by
  obtain ⟨tree, ran, final, -, gone, placed⟩ :=
    run_exchange building waiting.linked waiting.content hasNew detached (free_of_new absent) fits
  exact Edit.safely_of_ok ran ⟨new, rfl, final, gone, placed, absent⟩

theorem safely_lowerFor {tag : String} (wellFormed : context.tree.WellFormed) (placed : context.tree.WellPlaced)
    (kind : context.tree.kind id = .element tag) (linked : context.tree.parent id = some host) :
    Edit.Safely (Iteration.lower id) context (Replaces context host id) := by
  have building := Building.start wellFormed placed linked
  have waiting := Waiting.start kind linked
  unfold Iteration.lower
  refine .step (Edit.run_tree context) ?_
  rw [elementTag?_of_kind kind, if_neg (by simp)]
  refine (safely_requireOnly id _).bind ?_
  rintro _ _ rfl
  refine (safely_requireCode id "each").bind ?_
  rintro header context rfl
  refine (safely_iteration building id header).bind ?_
  rintro loop middle ⟨-, known, extension, absent, kind, container, content, other, construct⟩
  have waiting := waiting.grown extension
  have freeLoop : context.tree.Free host [] loop := free_of_new absent
  refine .step (Edit.run_tree middle) ?_
  split
  · refine (safely_requireCode id "if").bind ?_
    rintro test _ rfl
    refine (safely_conditional known id test).bind ?_
    rintro ⟨outer, inner⟩ last ⟨-, ready, further, absentOuter, absentInner, around, within⟩
    dsimp only at absentOuter absentInner around within ⊢
    have waiting := waiting.grown further
    have presentLoop := construct.present
    have construct := construct.grown further
    have freshOuter : ¬context.tree.Has outer := fun present => absentOuter (extension.has present)
    have freeOuter : context.tree.Free host [] outer := free_of_new freshOuter
    have nested : last.tree.OnPath outer inner := .step within.parent .self
    have hosted : ¬last.tree.OnPath id inner := ready.not_above_loose waiting around.parent freeOuter nested
    obtain ⟨tree, ran, filled, relinked, -⟩ := run_move ready (ready.free waiting.linked) waiting.other
      around.parent freeOuter nested hosted within.present (by rw [within.kind]; rfl)
      (by rw [within.kind]; exact fun impossible => by cases impossible) within.children
    have apart : outer ≠ inner := by
      rintro rfl
      cases around.parent.symm.trans within.parent
    have around := waiting.unloaded ready.wellFormed around relinked apart
    have different : outer ≠ loop := fun same => absentOuter (same ▸ presentLoop)
    have emptied := waiting.unloaded ready.wellFormed construct relinked fun same => absentInner (same ▸ presentLoop)
    have waiting := waiting.relinked relinked (waiting.not_child ready.wellFormed)
    obtain ⟨joined, adopted, final, adjoined, -⟩ := @run_adjoin { last with tree } _ _ loop outer filled emptied.present
      (by rw [emptied.kind, container]) freeLoop around.present around.parent freeOuter
      (fun above => different (onPath_of_root emptied.parent above))
      (by
        rw [emptied.kind, emptied.children, Kind.takes_iff_of_ne other]
        simp [around.kind, Kind.isContent])
    refine .step ran (.step adopted (safely_exchange final (waiting.relinked adjoined ?_) (adjoined.has_iff.2 emptied.present)
      ?_ absent ?_))
    · rw [List.mem_singleton]
      rintro rfl
      cases around.parent.symm.trans waiting.linked
    · rw [adjoined.parent_eq, emptied.parent]
      simpa using different.symm
    · rw [adjoined.kind, emptied.kind, content]
  · have hosted : ¬middle.tree.OnPath id loop := known.not_above_loose waiting construct.parent freeLoop .self
    obtain ⟨tree, ran, filled, relinked, -⟩ := run_move known (known.free waiting.linked) waiting.other
      construct.parent freeLoop .self hosted construct.present (by rw [construct.kind, container])
      (by rw [construct.kind]; exact other) construct.children
    have unmoved : loop ∉ middle.tree.children id := by
      rw [known.wellFormed.linked, construct.parent]
      simp
    refine .step ran (safely_exchange filled (waiting.relinked relinked (waiting.not_child known.wellFormed))
      (relinked.has_iff.2 construct.present) ?_ absent ?_)
    · rw [relinked.parent_eq unmoved, construct.parent]
    · rw [relinked.kind, construct.kind, content]

/-! ## Directives -/

/-- The tag is put inside of a construct, which takes its place. -/
theorem run_enclose {construct inner : NodeId} (building : Building before host context.tree)
    (waiting : Waiting host id context.tree) (hasConstruct : context.tree.Has construct)
    (detached : context.tree.parent construct = none) (free : before.Free host [] construct)
    (single : context.tree.children construct = [] ∧ inner = construct ∨ context.tree.children construct = [inner])
    (hasInner : context.tree.Has inner) (container : (context.tree.kind inner).isContainer = true)
    (outer : context.tree.kind inner ≠ .conditional) (empty : context.tree.children inner = [])
    (fits : (context.tree.kind construct).isContent = true) :
    ∃ tree, (wrap id construct).run context = (.ok (.replaced construct), { context with tree }) ∧
      Building before host tree ∧ tree.parent construct = some host := by
  have wellFormed := building.wellFormed
  have freeId := building.free waiting.linked
  obtain ⟨middle, ran, there, relinked, gone, placed⟩ :=
    run_exchange building waiting.linked waiting.content hasConstruct detached free fits
  have hostApart : ∀ {other : NodeId}, before.Free host [] other → other ∉ [host] := fun freeOther member =>
    building.not_above freeOther (List.mem_singleton.1 member ▸ .self)
  have freeInner := building.worked.free_of_onPath building.sound free (onPath_inner wellFormed single)
  have kept := relinked.children construct (hostApart free)
  have emptied := (relinked.children inner (hostApart freeInner)).trans empty
  rw [← kept] at single
  have apart := not_above_placed gone placed (there.not_above freeId) (onPath_inner there.wellFormed single)
  have different : construct ≠ id := fun same => by
    rw [same, gone] at placed
    cases placed
  obtain ⟨tree, adopted, final, moved, -⟩ := @run_adjoin { context with tree := middle } _ _ inner id there
    (relinked.has_iff.2 hasInner) (by rw [relinked.kind, container]) freeInner
    (relinked.has_iff.2 (has_of_parent waiting.linked)) gone freeId apart (by
      rw [emptied, relinked.kind, Kind.takes_iff_of_ne outer]
      simp [relinked.kind, waiting.content])
  refine ⟨tree, run_wrap_of ran single emptied adopted, final, ?_⟩
  rw [moved.parent_eq (by simpa using different), placed]

/-- The node has lost an attribute and then got a new construct around it, and below the host the rest is in
its place. -/
def Encloses (before : Context) (host id : NodeId) (outcome : Outcome) (after : Context) : Prop :=
  ∃ new name, outcome = .replaced new ∧ (name = "for" ∨ name = "if") ∧ (before.tree.attribute? id name).isSome = true ∧
    Building (before.tree.removeAttribute id name).2 host after.tree ∧ after.tree.parent new = some host ∧
      ¬before.tree.Has new

theorem removeAttribute_sameLinks (tree : Tree) (id : NodeId) (name : String) (other : NodeId) :
    (tree.removeAttribute id name).2.kind other = tree.kind other ∧
      (tree.removeAttribute id name).2.children other = tree.children other ∧
        (tree.removeAttribute id name).2.parent other = tree.parent other :=
  ⟨field_update tree id other Node.kind fun _ => rfl, field_update tree id other Node.children fun _ => rfl,
    field_update tree id other Node.parent fun _ => rfl⟩

theorem wellPlaced_removeAttribute {tree : Tree} (placed : tree.WellPlaced) (id : NodeId) (name : String) :
    (tree.removeAttribute id name).2.WellPlaced := by
  intro other
  have kinds : (tree.removeAttribute id name).2.kind = tree.kind :=
    funext fun other => (removeAttribute_sameLinks tree id name other).1
  rw [kinds, (removeAttribute_sameLinks tree id name other).2.1]
  exact placed other

theorem safely_lowerDirective {tag : String} (wellFormed : context.tree.WellFormed) (placed : context.tree.WellPlaced)
    (kind : context.tree.kind id = .element tag) (linked : context.tree.parent id = some host) :
    Edit.Safely (Directive.lower id) context fun outcome after =>
      outcome = .unchanged ∧ after = context ∨ Encloses context host id outcome after := by
  -- Without the attribute that the directive is read from, the tag waits as before.
  have dropped : ∀ name : String, ∃ tree, (Directive.dropAttribute id name).run context = (.ok (), { context with tree }) ∧
      tree = (context.tree.removeAttribute id name).2 ∧ Building tree host tree ∧ Waiting host id tree ∧
        tree.size = context.tree.size := by
    intro name
    have sound : (context.tree.removeAttribute id name).2.WellFormed :=
      (Edited.removeAttribute id name).wellFormed wellFormed
    obtain ⟨kinds, -, parents⟩ := removeAttribute_sameLinks context.tree id name id
    refine ⟨_, rfl, rfl, .start sound (wellPlaced_removeAttribute placed id name) (parents.trans linked),
      .start (kinds.trans kind) (parents.trans linked), size_update _ _ _⟩
  unfold Directive.lower
  refine .step (Edit.run_tree context) ?_
  rw [if_neg (by rw [linked]; simp)]
  split
  · next header found =>
      have carried : (context.tree.attribute? id "for").isSome = true := by
        cases none : context.tree.attribute? id "for" with
        | some _ => rfl
        | none =>
            rw [Directive.loopHeader?, none] at found
            cases found
      obtain ⟨tree, ran, same, building, waiting, size⟩ := dropped "for"
      refine .step ran ?_
      refine (@safely_iteration { context with tree } tree host building id header).bind ?_
      rintro loop last ⟨-, ready, further, absent, kind, container, content, other, construct⟩
      obtain ⟨final, wrapped, built, there⟩ := run_enclose ready (waiting.grown further) construct.present
        construct.parent (free_of_new absent) (.inl ⟨construct.children, rfl⟩) construct.present
        (by rw [construct.kind, container]) (by rw [construct.kind]; exact other) construct.children
        (by rw [construct.kind, content])
      refine Edit.safely_of_ok wrapped (.inr ⟨loop, "for", rfl, .inl rfl, carried, same ▸ built, there, ?_⟩)
      exact fun present => absent (by rw [Has, size]; exact present)
  · split
    · exact Edit.safely_pure (.inl ⟨rfl, rfl⟩)
    · next found carried =>
        dsimp only
        split
        · exact Edit.safely_failAt rfl
        · obtain ⟨tree, ran, same, building, waiting, size⟩ := dropped "if"
          refine .step ran ?_
          refine (@safely_conditional { context with tree } tree host building id found.value.asCode).bind ?_
          rintro ⟨outer, inner⟩ last ⟨-, ready, further, absentOuter, absentInner, around, within⟩
          dsimp only at absentOuter absentInner around within ⊢
          obtain ⟨final, wrapped, built, there⟩ := run_enclose ready (waiting.grown further) around.present
            around.parent (free_of_new absentOuter) (.inr around.children) within.present (by rw [within.kind]; rfl)
            (by rw [within.kind]; exact fun impossible => by cases impossible) within.children
            (by rw [around.kind]; rfl)
          refine Edit.safely_of_ok wrapped (.inr ⟨outer, "if", rfl, .inr rfl, by rw [carried]; rfl, same ▸ built, there, ?_⟩)
          exact fun present => absentOuter (by rw [Has, size]; exact present)

end Construct
end HtmlTemplate
