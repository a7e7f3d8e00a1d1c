import HtmlTemplate.EditScript
import HtmlTemplate.Proofs.Tree.Relinking
import HtmlTemplate.Proofs.Tree.Reach

/-!
# Soundness of edit scripts

Whatever steps a script takes, and whichever of them are refused, the tree on the workbench is one that
edits reach, and names stand only for nodes that were made. So every script leaves a well-formed tree.
-/

namespace HtmlTemplate

/-! ## Sound workbenches -/

/-- The tree on the workbench is well formed and reached by edits, and all names stand for its nodes. -/
structure Workbench.Sound (origin : Tree) (bench : Workbench) : Prop where
  wellFormed : bench.tree.WellFormed
  reached : origin.Reaches bench.tree
  named : ∀ entry ∈ bench.names.entries, bench.tree.Has entry.2

/-- The work ends with a sound workbench, refused or not, and what it gives is as promised. -/
def Work.Leads {α : Type} (origin : Tree) (bench : Workbench) (work : Work α)
    (promised : α → Workbench → Prop) : Prop :=
  (work.run.run bench).2.Sound origin ∧
    ∀ value, (work.run.run bench).1 = .ok value → promised value (work.run.run bench).2

variable {α β : Type} {origin : Tree} {bench : Workbench}

namespace Workbench

theorem Sound.edited {after : Tree} (sound : bench.Sound origin) (edited : bench.tree.Edited after) :
    ({ bench with tree := after } : Workbench).Sound origin where
  wellFormed := edited.wellFormed sound.wellFormed
  reached := sound.reached.tail edited
  named entry member := (edited.grows sound.wellFormed).has (sound.named entry member)

theorem Sound.has_of_find? (sound : bench.Sound origin) {name : String} {id : NodeId}
    (found : bench.names.find? name = some id) : bench.tree.Has id := by
  obtain ⟨front, back, split, -⟩ := List.lookup_eq_some_iff.1 found
  exact sound.named (name, id) (by rw [split]; simp)

end Workbench

/-! ## Pieces of work -/

namespace Work

theorem leads_pure {value : α} {promised : α → Workbench → Prop} (sound : bench.Sound origin)
    (holds : promised value bench) : Work.Leads origin bench (pure value) promised := by
  refine ⟨sound, fun other equal => ?_⟩
  obtain rfl := Except.ok.inj equal
  exact holds

theorem leads_throw {refusal : Refusal} {promised : α → Workbench → Prop} (sound : bench.Sound origin) :
    Work.Leads origin bench (throw refusal) promised :=
  ⟨sound, fun _ equal => by cases equal⟩

theorem leads_bind {first : Work α} {next : α → Work β} {middle : α → Workbench → Prop}
    {promised : β → Workbench → Prop} (begins : Work.Leads origin bench first middle)
    (goesOn : ∀ value after, after.Sound origin → middle value after →
      Work.Leads origin after (next value) promised) :
    Work.Leads origin bench (first >>= next) promised := by
  obtain ⟨sound, holds⟩ := begins
  unfold Work.Leads
  rw [ExceptT.run_bind, StateT.run_bind]
  generalize reached : first.run.run bench = result at sound holds
  obtain ⟨answer, after⟩ := result
  cases answer with
  | error refusal => exact ⟨sound, fun _ equal => by cases equal⟩
  | ok value => exact goesOn value after sound (holds value rfl)

theorem Leads.weaken {work : Work α} {strong weak : α → Workbench → Prop}
    (leads : Work.Leads origin bench work strong) (implies : ∀ value after, strong value after → weak value after) :
    Work.Leads origin bench work weak :=
  ⟨leads.1, fun value equal => implies value _ (leads.2 value equal)⟩

/-- Work that changes nothing hands on what it gives. -/
theorem Leads.hand {first : Work α} {next : α → Work β} {given : α → Prop}
    {promised : β → Workbench → Prop}
    (reads : Work.Leads origin bench first fun value after => after = bench ∧ given value)
    (goesOn : ∀ value, given value → Work.Leads origin bench (next value) promised) :
    Work.Leads origin bench (first >>= next) promised := by
  refine leads_bind reads ?_
  rintro value _ - ⟨rfl, holds⟩
  exact goesOn value holds

theorem leads_tree (sound : bench.Sound origin) :
    Work.Leads origin bench Work.tree fun tree after => after = bench ∧ tree = bench.tree :=
  ⟨sound, fun _ equal => ⟨rfl, (Except.ok.inj equal).symm⟩⟩

theorem leads_setTree {tree : Tree} (sound : bench.Sound origin) (edited : bench.tree.Edited tree) :
    Work.Leads origin bench (Work.setTree tree) fun _ after => after = { bench with tree } :=
  ⟨sound.edited edited, fun _ _ => rfl⟩

theorem leads_accept {result : Except Fault α} (sound : bench.Sound origin) :
    Work.Leads origin bench (Work.accept result) fun value after => after = bench ∧ result = .ok value := by
  cases result with
  | error fault => exact leads_throw sound
  | ok value => exact leads_pure sound ⟨rfl, rfl⟩

theorem leads_readKind {kind : Option Kind} (sound : bench.Sound origin) :
    Work.Leads origin bench (Work.readKind kind) fun value after => after = bench ∧ kind = some value := by
  cases kind with
  | none => exact leads_throw sound
  | some kind => exact leads_pure sound ⟨rfl, rfl⟩

/-- References mean nodes that were made. -/
theorem leads_resolve (reference : Reference) (sound : bench.Sound origin) :
    Work.Leads origin bench (Work.resolve reference) fun id after =>
      after = bench ∧ bench.tree.Has id := by
  have read : Work.Leads origin bench get fun value after => after = bench ∧ value = bench :=
    ⟨sound, fun _ equal => ⟨rfl, (Except.ok.inj equal).symm⟩⟩
  unfold Work.resolve
  refine leads_bind read ?_
  rintro value _ - ⟨rfl, rfl⟩
  cases reference with
  | missing => exact leads_throw sound
  | stored name =>
      dsimp only
      cases found : value.names.find? name with
      | none => exact leads_throw sound
      | some id => exact leads_pure sound ⟨rfl, sound.has_of_find? found⟩
  | numbered number =>
      dsimp only
      by_cases inside : number < value.tree.size
      · rw [if_pos inside]
        exact leads_pure sound ⟨rfl, inside⟩
      · rw [if_neg inside]
        exact leads_throw sound

theorem leads_mapM_resolve (references : List Reference) (sound : bench.Sound origin) :
    Work.Leads origin bench (references.mapM Work.resolve) fun ids after =>
      after = bench ∧ ∀ id ∈ ids, bench.tree.Has id := by
  induction references with
  | nil => exact leads_pure sound ⟨rfl, by simp⟩
  | cons reference references hypothesis =>
      rw [List.mapM_cons]
      refine (leads_resolve reference sound).hand fun id present => hypothesis.hand fun ids others => ?_
      exact leads_pure sound ⟨rfl, List.forall_mem_cons.2 ⟨present, others⟩⟩

/-! ### What work goes on with -/

section Rules

variable {promised : β → Workbench → Prop}

theorem leads_withNode {next : NodeId → Work β} (reference : Reference) (sound : bench.Sound origin)
    (goesOn : ∀ id, bench.tree.Has id → Work.Leads origin bench (next id) promised) :
    Work.Leads origin bench (Work.resolve reference >>= next) promised :=
  (leads_resolve reference sound).hand goesOn

theorem leads_withTree {next : Tree → Work β} (sound : bench.Sound origin)
    (goesOn : Work.Leads origin bench (next bench.tree) promised) :
    Work.Leads origin bench (Work.tree >>= next) promised :=
  (leads_tree sound).hand fun _ same => same ▸ goesOn

/-- Work that puts another tree on the workbench goes on with that tree, if an edit reaches it. -/
theorem leads_onTree {next : Unit → Work β} {tree : Tree} (sound : bench.Sound origin)
    (edited : bench.tree.Edited tree)
    (goesOn : ({ bench with tree } : Workbench).Sound origin →
      Work.Leads origin { bench with tree } (next ()) promised) :
    Work.Leads origin bench (Work.setTree tree >>= next) promised := by
  refine leads_bind (leads_setTree sound edited) ?_
  rintro _ _ after rfl
  exact goesOn after

end Rules

/-! ### Edits -/

/-- A change that is an edit keeps the workbench sound, and so does a change that is refused. -/
theorem leads_edit {change : Tree → Except Fault Tree} (sound : bench.Sound origin)
    (edits : ∀ after, change bench.tree = .ok after → bench.tree.Edited after) :
    Work.Leads origin bench (Work.edit change) fun _ after =>
      ∃ tree, bench.tree.Edited tree ∧ after = { bench with tree } := by
  unfold Work.edit
  refine leads_withTree sound ((leads_accept sound).hand fun tree made => ?_)
  exact leads_onTree sound (edits tree made) fun after => leads_pure after ⟨tree, edits tree made, rfl⟩

theorem leads_adjust {change : Tree → Tree} (sound : bench.Sound origin)
    (edited : bench.tree.Edited (change bench.tree)) :
    Work.Leads origin bench (Work.adjust change) fun _ _ => True := by
  refine (leads_edit sound ?_).weaken fun _ _ _ => trivial
  intro after equal
  obtain rfl := Except.ok.inj equal
  exact edited

/-- Names are stored for nodes that were made. -/
theorem leads_giveNode (store : Option String) {id : Option NodeId} (sound : bench.Sound origin)
    (present : ∀ node, id = some node → bench.tree.Has node) :
    Work.Leads origin bench (Work.giveNode store id) fun _ _ => True := by
  unfold Work.giveNode
  have stored : Work.Leads origin bench (Work.store store id) fun _ _ => True := by
    cases store with
    | none => exact leads_pure sound trivial
    | some name =>
        refine ⟨?_, fun _ _ => trivial⟩
        cases id with
        | none => exact ⟨sound.wellFormed, sound.reached, fun entry member =>
            sound.named entry (List.mem_of_mem_filter member)⟩
        | some node =>
            refine ⟨sound.wellFormed, sound.reached, fun entry member => ?_⟩
            rcases SortedMap.mem_insertEntry member with rfl | member
            · exact present node rfl
            · exact sound.named entry member
  exact leads_bind stored fun _ _ after _ => leads_pure after trivial

/-- Nodes are appended one after the other, up to the first that is refused. -/
theorem leads_appendAll {parent : NodeId} {children : List NodeId} (sound : bench.Sound origin)
    (hasParent : bench.tree.Has parent) (present : ∀ child ∈ children, bench.tree.Has child) :
    Work.Leads origin bench (Work.appendAll parent children) fun _ _ => True := by
  have all : Work.Leads origin bench
      (forIn children PUnit.unit fun child _ => do
        let _ ← Work.edit fun tree => tree.append parent child
        pure (ForInStep.yield PUnit.unit)) fun _ _ => True := by
    induction children generalizing bench with
    | nil => exact leads_pure sound trivial
    | cons child children hypothesis =>
        rw [List.forIn_cons]
        have first : Work.Leads origin bench
            (do
              let _ ← Work.edit fun tree => tree.append parent child
              pure (ForInStep.yield PUnit.unit)) fun step after =>
            step = .yield PUnit.unit ∧ ∃ tree, bench.tree.Edited tree ∧ after = { bench with tree } := by
          refine leads_bind (leads_edit sound fun after made =>
            .append hasParent (present child List.mem_cons_self) made) ?_
          rintro _ after middle reached
          exact leads_pure middle ⟨rfl, reached⟩
        refine leads_bind first ?_
        rintro _ _ middle ⟨rfl, tree, edited, rfl⟩
        have grows := edited.grows sound.wellFormed
        exact hypothesis middle (grows.has hasParent) fun other member =>
          grows.has (present other (List.mem_cons_of_mem _ member))
  exact leads_bind all fun _ _ after _ => leads_pure after trivial

end Work

/-! ## Steps -/

/-- The node in a relation to another one was made. -/
theorem Relation.has_of_find? {tree : Tree} (wellFormed : tree.WellFormed) {id other : NodeId}
    (relation : Relation) (found : relation.find? tree id = some other) : tree.Has other := by
  cases relation with
  | next =>
      obtain ⟨parent, index, -, stands⟩ := wellFormed.nextSibling?_eq_some_iff.1 found
      exact wellFormed.has_child (List.mem_of_getElem? stands)
  | previous =>
      obtain ⟨parent, index, stands, -⟩ := wellFormed.previousSibling?_eq_some_iff.1 found
      exact wellFormed.has_child (List.mem_of_getElem? stands)
  | parent => exact wellFormed.has_parent found
  | firstChild => exact wellFormed.has_child (List.mem_of_head? found)

/-- Each step keeps the workbench sound. A step that edits is an edit of the tree, or nothing at all. -/
theorem Step.leads_run (step : Step) (sound : bench.Sound origin) :
    Work.Leads origin bench step.run fun _ _ => True := by
  cases step with
  | create kind children attributes position store =>
      refine (Work.leads_readKind sound).hand fun kind _ => ?_
      refine (Work.leads_mapM_resolve children sound).hand fun ids present => ?_
      refine Work.leads_withTree sound ((Work.leads_accept sound).hand ?_)
      rintro ⟨id, tree⟩ made
      refine Work.leads_onTree sound (.create present made) fun after => Work.leads_giveNode store after ?_
      intro other equal
      obtain rfl := Option.some.inj equal
      exact Tree.has_of_create made
  | clone node deep store =>
      refine Work.leads_withNode node sound fun id _ => Work.leads_withTree sound ?_
      refine Work.leads_onTree sound (.clone id deep) fun after => Work.leads_giveNode store after ?_
      intro other equal
      obtain rfl := Option.some.inj equal
      exact Tree.has_of_clone id deep
  | append parent child =>
      refine Work.leads_withNode parent sound fun parent hasParent => ?_
      refine Work.leads_withNode child sound fun child hasChild => ?_
      exact (Work.leads_edit sound fun _ => .append hasParent hasChild).weaken fun _ _ _ => trivial
  | insertBefore parent child next =>
      refine Work.leads_withNode parent sound fun parent _ => ?_
      refine Work.leads_withNode child sound fun child hasChild => ?_
      refine Work.leads_withNode next sound fun next _ => ?_
      exact (Work.leads_edit sound fun _ => .insertBefore hasChild).weaken fun _ _ _ => trivial
  | remove parent child =>
      refine Work.leads_withNode parent sound fun parent _ => ?_
      refine Work.leads_withNode child sound fun child _ => ?_
      exact (Work.leads_edit sound fun _ => .remove).weaken fun _ _ _ => trivial
  | replace parent old new =>
      refine Work.leads_withNode parent sound fun parent _ => ?_
      refine Work.leads_withNode old sound fun old _ => ?_
      refine Work.leads_withNode new sound fun new hasNew => ?_
      exact (Work.leads_edit sound fun _ => .replace hasNew).weaken fun _ _ _ => trivial
  | detach node =>
      refine Work.leads_withNode node sound fun id _ => ?_
      exact (Work.leads_edit sound fun _ => .detach).weaken fun _ _ _ => trivial
  | takeChildren node =>
      refine Work.leads_withNode node sound fun id _ => Work.leads_withTree sound ?_
      exact Work.leads_onTree sound (.takeChildren id) fun after => Work.leads_pure after trivial
  | moveChildren source target =>
      refine Work.leads_withNode source sound fun source _ => ?_
      refine Work.leads_withNode target sound fun target hasTarget => Work.leads_withTree sound ?_
      have edited : bench.tree.Edited (bench.tree.takeChildren source).2 := .takeChildren source
      have grows := edited.grows sound.wellFormed
      refine Work.leads_onTree sound edited fun after => Work.leads_appendAll after (grows.has hasTarget) ?_
      exact fun child member => grows.has (sound.wellFormed.has_child member)
  | setKind node kind =>
      refine Work.leads_withNode node sound fun id _ => (Work.leads_readKind sound).hand fun kind _ => ?_
      exact (Work.leads_edit sound fun _ => .setKind).weaken fun _ _ _ => trivial
  | setAttribute node name value =>
      refine Work.leads_withNode node sound fun id _ => ?_
      exact (Work.leads_edit sound fun _ => .setAttribute).weaken fun _ _ _ => trivial
  | removeAttribute node name =>
      refine Work.leads_withNode node sound fun id _ => Work.leads_withTree sound ?_
      exact Work.leads_onTree sound (.removeAttribute id name) fun after => Work.leads_pure after trivial
  | setPosition node position =>
      exact Work.leads_withNode node sound fun id _ => Work.leads_adjust sound (.setPosition id position)
  | setPreserve node preserve =>
      exact Work.leads_withNode node sound fun id _ => Work.leads_adjust sound (.setPreserve id preserve)
  | countSettled node name =>
      refine Work.leads_withNode node sound fun id _ => Work.leads_withTree sound ?_
      refine Work.leads_bind (Work.leads_edit sound fun _ => .setAttribute) ?_
      exact fun _ _ after _ => Work.leads_pure after trivial
  | readAttribute node name =>
      exact Work.leads_withNode node sound fun id _ => Work.leads_withTree sound (Work.leads_pure sound trivial)
  | inspect node =>
      exact Work.leads_withNode node sound fun id _ => Work.leads_withTree sound (Work.leads_pure sound trivial)
  | indexOf parent child =>
      refine Work.leads_withNode parent sound fun parent _ => ?_
      refine Work.leads_withNode child sound fun child _ => Work.leads_withTree sound ?_
      split
      · exact Work.leads_pure sound trivial
      · exact Work.leads_pure sound trivial
  | follow relation node store =>
      refine Work.leads_withNode node sound fun id _ => Work.leads_withTree sound ?_
      exact Work.leads_giveNode store sound fun other => relation.has_of_find? sound.wellFormed
  | measure => exact Work.leads_withTree sound (Work.leads_pure sound trivial)
  | verify node =>
      refine Work.leads_withNode node sound fun id _ => Work.leads_withTree sound ?_
      exact (Work.leads_accept sound).hand fun _ _ => Work.leads_pure sound trivial

/-- A script keeps the workbench sound, whichever of its steps are refused. -/
theorem Workbench.Sound.runSteps (sound : bench.Sound origin) (steps : List Step) :
    (bench.runSteps steps).2.Sound origin := by
  induction steps generalizing bench with
  | nil => exact sound
  | cons step steps hypothesis => exact hypothesis (step.leads_run sound).1

theorem Workbench.sound_empty (file : String) :
    ({ tree := { file } } : Workbench).Sound { file } where
  wellFormed := Tree.wellFormed_of_unlinked fun _ member => absurd member List.not_mem_nil
  reached := .refl
  named entry member := by cases member

/-- After any script on an empty workbench, links in both directions agree, no node is listed twice, all
paths to the root end, only containers have children, and nodes are numbered in the order they are made.
Hence siblings are symmetric, the walk over ancestors and the copying of a node end, a node can always be
detached, and the check of owners passes everywhere. -/
theorem Workbench.runSteps_links (file : String) (steps : List Step) :
    let tree := (Workbench.runSteps { tree := { file } } steps).2.tree
    (∀ parent child, child ∈ tree.children parent ↔ tree.parent child = some parent) ∧
    (∀ id, (tree.children id).Nodup) ∧
    (∀ id, ∃ depth, tree.Depth id depth ∧ depth ≤ tree.size) ∧
    (∀ id, tree.children id ≠ [] → (tree.kind id).isContainer = true) ∧
    (∀ position kind attributes children made, tree.create position kind attributes children = .ok made →
      made.1 = ⟨tree.size⟩ ∧ made.2.size = tree.size + 1 ∧ made.2.kind made.1 = kind) ∧
    (∀ id deep, (tree.clone id deep).1 = ⟨tree.size⟩ ∧ (tree.clone id deep).2.Has ⟨tree.size⟩) ∧
    (∀ first second, tree.nextSibling? first = some second ↔ tree.previousSibling? second = some first) ∧
    (∀ candidate id budget, tree.size < budget →
      (tree.isOnPath candidate budget id = true ↔ tree.OnPath candidate id)) ∧
    (∀ id budget, tree.size ≤ budget → Tree.cloneWithin budget id tree = tree.clone id true) ∧
    (∀ id, ∃ after, tree.detach id = .ok after) ∧
    (∀ root budget, ∃ seen, tree.checkBelow budget [] root = .ok seen) ∧
    ∀ root, tree.checkOwnership root = .ok () := by
  intro tree
  have wellFormed : tree.WellFormed := ((Workbench.sound_empty file).runSteps steps).wellFormed
  refine ⟨wellFormed.linked, wellFormed.nodup, fun id => ?_, wellFormed.contained,
    fun _ _ _ _ _ => Tree.create_numbers, Tree.clone_numbers,
    fun _ _ => wellFormed.nextSibling?_iff_previousSibling?, fun candidate id budget enough => ?_,
    fun id budget enough => ?_, wellFormed.detach_isOk, fun root budget => ?_,
    wellFormed.checkOwnership_eq_ok⟩
  · obtain ⟨depth, grounded⟩ := wellFormed.grounded id
    exact ⟨depth, grounded, wellFormed.depth_le_size grounded⟩
  · obtain ⟨depth, grounded⟩ := wellFormed.grounded id
    exact Tree.isOnPath_iff grounded (Nat.lt_of_le_of_lt (wellFormed.depth_le_size grounded) enough)
  · exact wellFormed.cloneWithin_eq_clone id enough
  · have unseen : ∀ node, tree.OnPath root node → node ∉ ([] : List NodeId) := fun _ _ => List.not_mem_nil
    obtain ⟨seen, checked, -⟩ := wellFormed.checkBelow_eq_ok budget unseen
    exact ⟨seen, checked⟩

end HtmlTemplate
