import HtmlTemplate.Proofs.Walk.Calm
import HtmlTemplate.Proofs.Walk.Recorded
import HtmlTemplate.Proofs.Walk.Termination

/-!
# The order of a walk

Transforms that edit only the attributes of their nodes leave the tree in its frame, so a walk goes once through the
tree as it found it. Every node is tried when it is entered and again when it is left, as often as transforms change
it, and a walk fails only for a node that changes too often.
-/

namespace HtmlTemplate

/-- Whatever the transform finds, it edits nothing of the tree but the attributes of its node, and tells whether it did. -/
def Transform.InPlace (transform : Transform) : Prop :=
  ∀ (id : NodeId) (before : Context), before.tree.Has id →
    ∃ outcome attributes diagnostics notes, (outcome = .unchanged ∨ outcome = .changed) ∧
      transform.Does id before outcome
        { before with tree := before.tree.update id fun node => { node with attributes }, diagnostics, notes }

/-! ## Specificity -/

/-- Lists that are sorted by a key, and agree on the values with each key, are the same. -/
theorem eq_of_pairwise_of_filter_eq {α : Type} (key : α → Nat) {first second : List α}
    (sorted : first.Pairwise fun left right => key left ≤ key right)
    (other : second.Pairwise fun left right => key left ≤ key right)
    (same : ∀ value, first.filter (key · == value) = second.filter (key · == value)) : first = second := by
  -- The head of one list is in the other one, behind smaller keys at most.
  have heads : ∀ {head : α} {rest list : List α}, list.Pairwise (fun left right => key left ≤ key right) →
      (head :: rest).filter (key · == key head) = list.filter (key · == key head) →
      ∃ top tail, list = top :: tail ∧ key top ≤ key head := by
    intro head rest list sorted same
    have member : head ∈ list := by
      have inside : head ∈ (head :: rest).filter (key · == key head) := by simp
      rw [same] at inside
      exact (List.mem_filter.1 inside).1
    cases list with
    | nil => cases member
    | cons top tail =>
        refine ⟨top, tail, rfl, ?_⟩
        rcases List.mem_cons.1 member with rfl | behind
        · exact Nat.le_refl _
        · exact (List.pairwise_cons.1 sorted).1 head behind
  induction first generalizing second with
  | nil =>
      cases second with
      | nil => rfl
      | cons top tail => simpa using same (key top)
  | cons head rest hypothesis =>
      obtain ⟨top, tail, rfl, upper⟩ := heads other (same (key head))
      obtain ⟨_, _, equal, lower⟩ := heads sorted (same (key top)).symm
      obtain ⟨rfl, -⟩ := List.cons.inj equal
      have level : key top = key head := Nat.le_antisymm upper lower
      have equal := same (key head)
      rw [List.filter_cons_of_pos (by simp), List.filter_cons_of_pos (by simp [level])] at equal
      obtain ⟨rfl, -⟩ := List.cons.inj equal
      refine congrArg (head :: ·) (hypothesis (List.pairwise_cons.1 sorted).2 (List.pairwise_cons.1 other).2 fun value => ?_)
      have equal := same value
      by_cases there : key head = value
      · rw [List.filter_cons_of_pos (by simpa using there), List.filter_cons_of_pos (by simpa using there)] at equal
        exact (List.cons.inj equal).2
      · rwa [List.filter_cons_of_neg (by simpa using there), List.filter_cons_of_neg (by simpa using there)] at equal

namespace Registry

variable {registry : Registry} {file : String}

/-- The registrations for a file, the least specific first, and the earlier first among those that are as specific. -/
def bySpecificity (registry : Registry) (file : String) : List Registration :=
  (registry.registrations.filter fun registration => registration.appliesTo file).mergeSort
    fun left right => left.depth ≤ right.depth

/-- What was sorted by a key has the same values with each key in the same order. -/
theorem filter_mergeSort {α : Type} (list : List α) (key : α → Nat) (le : α → α → Bool)
    (total : ∀ left right, le left right || le right left)
    (trans : ∀ first second third, le first second → le second third → le first third)
    (reflexive : ∀ left right, key left = key right → le left right) (value : Nat) :
    (list.mergeSort le).filter (key · == value) = list.filter (key · == value) := by
  have kept : (list.filter (key · == value)).Sublist (list.mergeSort le) := by
    refine List.sublist_mergeSort trans total ?_ List.filter_sublist
    refine List.pairwise_of_forall_mem_list fun left member right other => reflexive left right ?_
    simp only [List.mem_filter, beq_iff_eq] at member other
    exact member.2.trans other.2.symm
  have within := kept.filter (key · == value)
  rw [List.filter_filter] at within
  simp only [Bool.and_self] at within
  refine (within.eq_of_length ?_).symm
  exact ((List.mergeSort_perm list le).filter _).length_eq.symm

theorem applicable_reverse (registry : Registry) (file : String) :
    (registry.applicable file).reverse = registry.bySpecificity file := by
  have total : ∀ left right : Registration,
      (decide (left.depth ≤ right.depth) || decide (right.depth ≤ left.depth)) = true := by
    intro left right
    simpa using Nat.le_total left.depth right.depth
  have trans : ∀ first second third : Registration, decide (first.depth ≤ second.depth) = true →
      decide (second.depth ≤ third.depth) = true → decide (first.depth ≤ third.depth) = true := by
    intro first second third
    simpa using Nat.le_trans
  refine eq_of_pairwise_of_filter_eq Registration.depth ?_ ?_ fun depth => ?_
  · rw [List.pairwise_reverse]
    refine List.Pairwise.imp of_decide_eq_true (List.pairwise_mergeSort ?_ (fun left right => total right left) _)
    exact fun first second third upper lower => trans third second first lower upper
  · exact List.Pairwise.imp of_decide_eq_true (List.pairwise_mergeSort trans total _)
  · have ascending := filter_mergeSort (registry.registrations.filter fun registration => registration.appliesTo file)
      Registration.depth _ total trans (fun left right same => decide_eq_true (Nat.le_of_eq same)) depth
    have descending := filter_mergeSort (registry.registrations.filter fun registration => registration.appliesTo file).reverse
      Registration.depth (fun left right => right.depth ≤ left.depth) (fun left right => total right left)
      (fun first second third upper lower => trans third second first lower upper)
      (fun left right same => decide_eq_true (Nat.le_of_eq same.symm)) depth
    rw [List.filter_reverse, applicable, descending, List.filter_reverse, List.reverse_reverse, bySpecificity, ascending]

/-- The transforms for a tag and a phase: those that its entry declares, then those for all tags, the ones of the least
specific taglib first. -/
def duties (registry : Registry) (tag file : String) (phase : Phase) : List Transform :=
  (((registry.lookup? tag file).map TagEntry.declared).getD [] ++
    (registry.bySpecificity file).flatMap fun registration => registration.taglib.globals).filter
    fun transform => transform.phase == phase

theorem transformsOf_eq_duties {tag : String}
    (unrendered : ∀ entry, registry.lookup? tag file = some entry → entry.rules.renderer = none) (phase : Phase) :
    registry.transformsOf tag file phase = registry.duties tag file phase := by
  have own : (registry.lookup? tag file).map TagEntry.transforms = (registry.lookup? tag file).map TagEntry.declared := by
    cases found : registry.lookup? tag file with
    | none => rfl
    | some entry => simp [TagEntry.transforms, unrendered entry found]
  rw [transformsOf, duties, own, globals, applicable_reverse]

end Registry

/-! ## Attempts -/

/-- Did the transform change its node? -/
def Application.changes (application : Application) : Bool :=
  match application.result with
  | .ok .changed => true
  | _ => false

/-- How often transforms changed the node. -/
def changesOf (id : NodeId) (record : List Application) : Nat :=
  record.countP fun application => application.id == id && application.changes

/--
The transforms are applied to the node in order, up to the first one that changes it. The flag tells whether there is
one.
-/
inductive Attempt (id : NodeId) : List Transform → Bool → List Application → Prop
  | nil : Attempt id [] false []
  | unchanged {transform : Transform} {transforms : List Transform} {before : Context} {flag : Bool}
      {record : List Application} : Application.result ⟨transform, id, before⟩ = .ok .unchanged →
      Attempt id transforms flag record → Attempt id (transform :: transforms) flag (⟨transform, id, before⟩ :: record)
  | changed {transform : Transform} {transforms : List Transform} {before : Context} :
      Application.result ⟨transform, id, before⟩ = .ok .changed →
      Attempt id (transform :: transforms) true [⟨transform, id, before⟩]

/-- So many attempts behind each other, each of them up to a change. -/
inductive Changes (id : NodeId) (transforms : List Transform) : Nat → List Application → Prop
  | none : Changes id transforms 0 []
  | more {count : Nat} {first rest : List Application} : Attempt id transforms true first →
      Changes id transforms count rest → Changes id transforms (count + 1) (first ++ rest)

/-- Attempts with so many changes, and a last one without a change. -/
def Block (id : NodeId) (transforms : List Transform) (count : Nat) (record : List Application) : Prop :=
  ∃ front last, Changes id transforms count front ∧ Attempt id transforms false last ∧ record = front ++ last

namespace Event

/-- The node that something happens to. -/
def id : Event → NodeId
  | enter id => id
  | leave id => id

@[simp]
theorem id_enter (node : NodeId) : (enter node).id = node :=
  rfl

@[simp]
theorem id_leave (node : NodeId) : (leave node).id = node :=
  rfl

/-- The phase of the transforms that run then. -/
def phase : Event → Phase
  | enter _ => .enter
  | leave _ => .leave

/-- The transforms that run then, which are those of the tag of the node for the phase. -/
def duties (registry : Registry) (tree : Tree) (event : Event) : List Transform :=
  match (tree.kind event.id).tag? with
  | none => []
  | some tag => registry.duties tag tree.file event.phase

end Event

/-- A block for each event, one behind the other. -/
inductive Along (registry : Registry) (tree : Tree) : List Event → List Application → Prop
  | nil : Along registry tree [] []
  | cons {event : Event} {events : List Event} {count : Nat} {block rest : List Application} :
      Block event.id (event.duties registry tree) count block → Along registry tree events rest →
      Along registry tree (event :: events) (block ++ rest)

theorem Event.declares_of_mem_duties {registry : Registry} {tree : Tree} {event : Event} {transform : Transform}
    (member : transform ∈ event.duties registry tree) : registry.Declares transform := by
  unfold Event.duties at member
  split at member
  · cases member
  · next tag _ =>
      simp only [Registry.duties, List.mem_filter, List.mem_append] at member
      rcases member.1 with own | general
      · cases found : registry.lookup? tag tree.file with
        | none =>
            rw [found] at own
            cases own
        | some entry =>
            rw [found] at own
            exact Registry.declares_of_lookup? found own
      · rw [← Registry.applicable_reverse] at general
        exact Registry.declares_of_mem_globals general

variable {id other : NodeId} {transforms : List Transform} {flag : Bool} {count : Nat}
variable {record first second front back : List Application} {registry : Registry} {tree : Tree} {events later : List Event}

theorem changesOf_append : changesOf id (first ++ second) = changesOf id first + changesOf id second :=
  List.countP_append

/-- A record about other nodes has no changes of the node. -/
theorem changesOf_eq_zero (apart : ∀ application ∈ record, application.id ≠ id) : changesOf id record = 0 := by
  refine List.countP_eq_zero.2 fun application member => ?_
  simp [apart application member]

namespace Attempt

theorem about (attempt : Attempt id transforms flag record) : ∀ application ∈ record, application.id = id := by
  induction attempt with
  | nil => exact fun _ none => absurd none List.not_mem_nil
  | unchanged _ _ hypothesis =>
      intro application member
      rcases List.mem_cons.1 member with rfl | behind
      · rfl
      · exact hypothesis application behind
  | changed _ =>
      intro application member
      obtain rfl := List.mem_singleton.1 member
      rfl

theorem changesOf_eq (attempt : Attempt id transforms flag record) : changesOf id record = if flag then 1 else 0 := by
  induction attempt with
  | nil => rfl
  | unchanged stays _ hypothesis =>
      rw [changesOf, List.countP_cons_of_neg (by simp [Application.changes, stays])]
      exact hypothesis
  | changed differs => simp [changesOf, Application.changes, differs]

/-- The change comes last. -/
theorem ends (attempt : Attempt id transforms true record) :
    ∃ front last, record = front ++ [last] ∧ last.id = id ∧ last.changes = true := by
  generalize flagged : true = flag at attempt
  induction attempt with
  | nil => cases flagged
  | @unchanged transform transforms before flag record stays _ hypothesis =>
      obtain ⟨front, last, rfl, same, changes⟩ := hypothesis flagged
      exact ⟨⟨transform, id, before⟩ :: front, last, rfl, same, changes⟩
  | @changed transform transforms before differs =>
      exact ⟨[], ⟨transform, id, before⟩, rfl, rfl, by simp [Application.changes, differs]⟩

end Attempt

namespace Changes

theorem about (changes : Changes id transforms count record) : ∀ application ∈ record, application.id = id := by
  induction changes with
  | none => exact fun _ none => absurd none List.not_mem_nil
  | more attempt _ hypothesis =>
      intro application member
      rcases List.mem_append.1 member with earlier | later
      · exact attempt.about application earlier
      · exact hypothesis application later

theorem changesOf_eq (changes : Changes id transforms count record) : changesOf id record = count := by
  induction changes with
  | none => rfl
  | more attempt _ hypothesis =>
      rw [changesOf_append, attempt.changesOf_eq, hypothesis, if_pos rfl, Nat.add_comm]

theorem changesOf_of_ne (changes : Changes id transforms count record) (different : other ≠ id) :
    changesOf other record = 0 :=
  changesOf_eq_zero fun application member same => different (same.symm.trans (changes.about application member))

/-- A change comes last. -/
theorem ends (changes : Changes id transforms (count + 1) record) :
    ∃ front last, record = front ++ [last] ∧ last.id = id ∧ last.changes = true := by
  generalize counted : count + 1 = number at changes
  induction changes generalizing count with
  | none => cases counted
  | @more number first rest attempt changes hypothesis =>
      cases number with
      | zero =>
          cases changes
          rw [List.append_nil]
          exact attempt.ends
      | succ number =>
          obtain ⟨front, last, rfl, same, differs⟩ := hypothesis rfl
          exact ⟨first ++ front, last, (List.append_assoc _ _ _).symm, same, differs⟩

end Changes

namespace Block

theorem about (block : Block id transforms count record) : ∀ application ∈ record, application.id = id := by
  obtain ⟨front, last, changes, attempt, rfl⟩ := block
  intro application member
  rcases List.mem_append.1 member with earlier | later
  · exact changes.about application earlier
  · exact attempt.about application later

theorem changesOf_eq (block : Block id transforms count record) : changesOf id record = count := by
  obtain ⟨front, last, changes, attempt, rfl⟩ := block
  rw [changesOf_append, changes.changesOf_eq, attempt.changesOf_eq]
  rfl

theorem changesOf_of_ne (block : Block id transforms count record) (different : other ≠ id) :
    changesOf other record = 0 :=
  changesOf_eq_zero fun application member same => different (same.symm.trans (block.about application member))

/-- One more change comes before the others. -/
theorem more (block : Block id transforms count record) (attempt : Attempt id transforms true first) :
    Block id transforms (count + 1) (first ++ record) := by
  obtain ⟨front, last, changes, ending, rfl⟩ := block
  exact ⟨first ++ front, last, .more attempt changes, ending, (List.append_assoc _ _ _).symm⟩

/-- An attempt without a change is a block. -/
theorem of_attempt (attempt : Attempt id transforms false record) : Block id transforms 0 record :=
  ⟨[], record, .none, attempt, rfl⟩

end Block

theorem Along.append (first : Along registry tree events front) (second : Along registry tree later back) :
    Along registry tree (events ++ later) (front ++ back) := by
  induction first with
  | nil => exact second
  | cons block _ hypothesis =>
      rw [List.append_assoc]
      exact .cons block hypothesis

theorem Along.single {event : Event} (block : Block event.id (event.duties registry tree) count record) :
    Along registry tree [event] record := by
  rw [← List.append_nil record]
  exact .cons block .nil

/-! ## The frame of a tree -/

namespace Tree

/-- The trees have the same nodes and links. Attributes and the marks on the nodes may differ. -/
structure SameFrame (before after : Tree) : Prop where
  file : after.file = before.file
  size : after.size = before.size
  kind : ∀ id, after.kind id = before.kind id
  position : ∀ id, (after.node id).position = (before.node id).position
  children : ∀ id, after.children id = before.children id
  parent : ∀ id, after.parent id = before.parent id

variable {before middle after : Tree}

theorem SameFrame.refl (tree : Tree) : tree.SameFrame tree :=
  ⟨rfl, rfl, fun _ => rfl, fun _ => rfl, fun _ => rfl, fun _ => rfl⟩

theorem SameFrame.trans (first : before.SameFrame middle) (second : middle.SameFrame after) :
    before.SameFrame after where
  file := second.file.trans first.file
  size := second.size.trans first.size
  kind id := (second.kind id).trans (first.kind id)
  position id := (second.position id).trans (first.position id)
  children id := (second.children id).trans (first.children id)
  parent id := (second.parent id).trans (first.parent id)

theorem SameFrame.has (same : before.SameFrame after) (present : before.Has id) : after.Has id := by
  rwa [Has, same.size]

theorem SameShape.sameFrame (same : before.SameShape after) : before.SameFrame after :=
  ⟨same.file, same.size, same.kind, same.position, same.children, same.parent⟩

theorem sameFrame_attributes (tree : Tree) (id : NodeId) (attributes : List Attribute) :
    tree.SameFrame (tree.update id fun node => { node with attributes }) where
  file := rfl
  size := size_update _ _ _
  kind other := field_update tree id other Node.kind (by intro; rfl)
  position other := field_update tree id other Node.position (by intro; rfl)
  children other := field_update tree id other Node.children (by intro; rfl)
  parent other := field_update tree id other Node.parent (by intro; rfl)

theorem faultAt_sameFrame (same : before.SameFrame after) (cause : Cause) :
    after.faultAt id cause = before.faultAt id cause := by
  have described : (after.node id).describe = (before.node id).describe := congrArg Kind.describe (same.kind id)
  rw [faultAt, faultAt, same.file, same.position, described]

/-! ## Events -/

/-- A budget that reaches to the bottom of the tree is as good as a larger one. -/
theorem WellFormed.eventsWithin_succ (wellFormed : tree.WellFormed) {closed : NodeId → Bool} {budget depth : Nat}
    (grounded : tree.Depth id depth) (enough : tree.size < depth + budget) :
    tree.eventsWithin closed (budget + 1) id = tree.eventsWithin closed budget id := by
  induction budget generalizing id depth with
  | zero =>
      have bound := wellFormed.depth_le_size grounded
      omega
  | succ budget hypothesis =>
      have below : (tree.children id).flatMap (tree.eventsWithin closed (budget + 1)) =
          (tree.children id).flatMap (tree.eventsWithin closed budget) :=
        List.flatMap_congr fun child member =>
          hypothesis (.child ((wellFormed.linked id child).1 member) grounded) (by omega)
      rw [eventsWithin, below, eventsWithin]

/-- A node is entered, what is below each of its children comes up, and the node is left. -/
theorem WellFormed.events_eq (wellFormed : tree.WellFormed) (id : NodeId) :
    tree.events [] id = .enter id :: (tree.children id).flatMap (tree.events []) ++ [.leave id] := by
  obtain ⟨depth, grounded⟩ := wellFormed.grounded id
  have within : ∀ id, tree.events [] id = tree.eventsWithin (fun _ => false) tree.depthBound id := by
    intro id
    refine congrArg (tree.eventsWithin · tree.depthBound id) (funext fun other => ?_)
    cases (tree.node other).tag? <;> rfl
  have below : (tree.children id).flatMap (tree.events []) =
      (tree.children id).flatMap (tree.eventsWithin (fun _ => false) tree.size) := by
    refine List.flatMap_congr fun child member => ?_
    rw [within, depthBound]
    exact wellFormed.eventsWithin_succ (.child ((wellFormed.linked id child).1 member) grounded) (by omega)
  rw [below, within, depthBound, eventsWithin]
  rfl

end Tree

namespace Walk

theorem Accepted.sameFrame {after : Tree} (accepted : Accepted registry tree id) (frame : tree.SameFrame after) :
    Accepted registry after id where
  known := by
    rw [frame.kind, frame.file]
    exact accepted.known
  allowed tag parent := by
    rw [frame.kind, frame.kind, frame.file, frame.parent]
    exact accepted.allowed tag parent

/-- Where no entry has a renderer the transforms of a node for a phase are the ones of the event. -/
theorem transformsFor_eq_duties
    (unrendered : ∀ tag entry, registry.lookup? tag tree.file = some entry → entry.rules.renderer = none)
    {after : Tree} (frame : tree.SameFrame after) (event : Event) :
    transformsFor registry after event.id event.phase = event.duties registry tree := by
  cases tagged : (tree.kind event.id).tag? with
  | none =>
      rw [transformsFor_of_untagged (by rw [frame.kind, tagged]), Event.duties, tagged]
  | some tag =>
      have same : (after.kind event.id).tag? = some tag := by rw [frame.kind, tagged]
      rw [transformsFor_of_tag same, frame.file, Registry.transformsOf_eq_duties (unrendered tag), Event.duties, tagged]

/-- The part of the walk left the tree in its frame, and marked only some of the nodes. -/
structure Stays (touched : NodeId → Prop) (state : Progress) (context : Context) (after : Progress) (final : Context) :
    Prop where
  carried : after.carried = state.carried
  frame : context.tree.SameFrame final.tree
  states : ∀ other, ¬touched other → (final.tree.node other).state = (context.tree.node other).state

namespace Stays

variable {touched more : NodeId → Prop} {state between after : Progress} {context middle final : Context}

theorem refl (touched : NodeId → Prop) (state : Progress) (context : Context) : Stays touched state context state context :=
  ⟨rfl, .refl _, fun _ _ => rfl⟩

theorem trans (first : Stays touched state context between middle) (second : Stays touched between middle after final) :
    Stays touched state context after final where
  carried := second.carried.trans first.carried
  frame := first.frame.trans second.frame
  states other outside := (second.states other outside).trans (first.states other outside)

theorem mono (stays : Stays touched state context after final) (within : ∀ other, touched other → more other) :
    Stays more state context after final where
  carried := stays.carried
  frame := stays.frame
  states other outside := stays.states other fun among => outside (within other among)

end Stays

theorem OnlyMarked.stays {touched : NodeId → Prop} {state after : Progress} {context final : Context}
    (marked : OnlyMarked touched state context after final) : Stays touched state context after final :=
  ⟨marked.carried, marked.shape.sameFrame, marked.states⟩

end Walk

/-! ## Attempts of a walk -/

namespace Walk

theorem holds_setState_stays {halts : Halt → Prop} {state : Progress} {context : Context} (id : NodeId)
    (mark : WalkState) :
    Holds halts (setState id mark) state context fun _ after final => Stays (· = id) state context after final ∧
      (context.tree.Has id → (final.tree.node id).state = mark) :=
  (holds_setState_marks id mark).weaken fun _ _ _ ⟨marked, mark⟩ => ⟨marked.stays, mark⟩

/-- Where no node was made no count is handed on. -/
theorem holds_handOn_stays {halts : Halt → Prop} {state : Progress} {context : Context} {before : Nat}
    (same : before = context.tree.size) (passes : Nat) :
    Holds halts (handOn before passes) state context fun _ after final =>
      Stays (fun _ => False) state context after final ∧ final = context := by
  refine (holds_handOn before passes).weaken ?_
  rintro _ _ _ ⟨rfl, rfl⟩
  refine ⟨⟨?_, .refl _, fun _ _ => rfl⟩, rfl⟩
  rw [same, Progress.inherit, Nat.sub_self]
  rfl

end Walk

namespace Recorded

open Walk (Stays)

variable {bad : Halt → Context → List Application → Prop} {state : Progress} {context : Context}
variable {bound left : Nat}

/-- The transforms are tried, and the outcome tells how that ended. -/
def Tries (id : NodeId) (transforms : List Transform) (outcome : Outcome) (record : List Application) : Prop :=
  outcome = .unchanged ∧ Attempt id transforms false record ∨ outcome = .changed ∧ Attempt id transforms true record

theorem meets_apply {transform : Transform} (inPlace : transform.InPlace) (present : context.tree.Has id) :
    Meets (fun result after left record => Stays (fun _ => False) state context after left ∧
      record = [⟨transform, id, context⟩] ∧ Application.result ⟨transform, id, context⟩ = result ∧
      (result = .ok .unchanged ∨ result = .ok .changed)) bad (apply id transform state context) := by
  obtain ⟨outcome, attributes, diagnostics, notes, reported, does⟩ := inPlace id context present
  have ran : apply id transform state context = (((.ok (.ok outcome), state), { context with
      tree := context.tree.update id fun node => { node with attributes }, diagnostics, notes }),
      [⟨transform, id, context⟩]) := by
    unfold apply Walk.attempt
    rw [does]
  rw [ran]
  refine ⟨⟨rfl, Tree.sameFrame_attributes _ _ _, fun other _ => ?_⟩, rfl, congrArg Prod.fst does, ?_⟩
  · exact Tree.field_update _ _ other Node.state fun _ => rfl
  · rcases reported with rfl | rfl
    · exact .inl rfl
    · exact .inr rfl

theorem meets_applyFirst (inPlace : ∀ transform ∈ transforms, transform.InPlace) (present : context.tree.Has id) :
    Meets (fun outcome after left record => Stays (fun _ => False) state context after left ∧
      Tries id transforms outcome record) bad (applyFirst id transforms state context) := by
  induction transforms generalizing state context bad with
  | nil => exact ⟨.refl _ _ _, .inl ⟨rfl, .nil⟩⟩
  | cons transform transforms hypothesis =>
      unfold applyFirst
      refine meets_bind (meets_apply (inPlace transform List.mem_cons_self) present) ?_
      rintro _ between middle _ ⟨stays, rfl, result, rfl | rfl⟩
      · refine (hypothesis (fun other member => inPlace other (List.mem_cons_of_mem _ member))
          (stays.frame.has present)).weaken ?_ fun _ _ _ halted => halted
        rintro outcome after left record ⟨further, ⟨rfl, attempt⟩ | ⟨rfl, attempt⟩⟩
        · exact ⟨stays.trans further, .inl ⟨rfl, .unchanged result attempt⟩⟩
        · exact ⟨stays.trans further, .inr ⟨rfl, .unchanged result attempt⟩⟩
      · exact ⟨stays.trans ⟨rfl, .refl _, fun _ _ => rfl⟩, .inr ⟨rfl, .changed result⟩⟩

/-- The fault of a node that changes too often. -/
def overrun (tree : Tree) (bound : Nat) (id : NodeId) : Halt :=
  .fault (tree.faultAt id (.unsettled (tree.node id).describe bound))

theorem meets_unsettled {α : Type} {good : α → Progress → Context → List Application → Prop}
    (frame : tree.SameFrame context.tree) (halted : ∀ left, bad (overrun tree bound id) left []) :
    Meets good bad (quiet (Walk.unsettled bound id) state context) := by
  have described : (context.tree.node id).describe = (tree.node id).describe := congrArg Kind.describe (frame.kind id)
  have same : Halt.fault (context.tree.faultAt id (.unsettled (context.tree.node id).describe bound)) =
      overrun tree bound id := by
    rw [overrun, Tree.faultAt_sameFrame frame, described]
  change bad (Halt.fault _) _ []
  rw [same]
  exact halted _

/-! ## Children that were visited -/

/-- Children that were visited are passed over. The induction is on what is left of them. -/
theorem settles_passed {parent : NodeId} (before rest : List NodeId) (split : context.tree.children parent = before ++ rest)
    (seen : ∀ child ∈ rest, (context.tree.node child).state ≠ .unvisited) :
    Settles (fun fuel => visitChildren registry bound fuel parent before.length) state context
      (fun _ after left record => after = state ∧ left = context ∧ record = []) bad := by
  induction rest generalizing before with
  | nil =>
      refine Settles.step ?_
      simp only [visitChildren]
      refine settles_quiet_bind Walk.holds_tree ?_
      rintro _ _ _ ⟨rfl, rfl, rfl⟩
      rw [split, List.append_nil, List.getElem?_eq_none (Nat.le_refl _)]
      exact Meets.settles ⟨rfl, rfl, rfl⟩
  | cons child rest hypothesis =>
      refine Settles.step ?_
      simp only [visitChildren]
      refine settles_quiet_bind Walk.holds_tree ?_
      rintro _ _ _ ⟨rfl, rfl, rfl⟩
      have found : (before ++ child :: rest)[before.length]? = some child := by simp
      have passed := hypothesis (before ++ [child]) (by simp [split])
        fun later member => seen later (List.mem_cons_of_mem _ member)
      rw [split, found]
      simp only [beq_eq_false_iff_ne.2 (seen child List.mem_cons_self), Bool.false_eq_true, if_false]
      simpa using passed

/-! ## Entering and leaving -/

variable (inPlace : ∀ transform, registry.Declares transform → transform.InPlace)
variable (unrendered : ∀ tag entry, registry.lookup? tag tree.file = some entry → entry.rules.renderer = none)

include inPlace unrendered

theorem meets_runPhase (event : Event) (frame : tree.SameFrame context.tree) (present : tree.Has event.id) :
    Meets (fun ended after left record => Stays (fun _ => False) state context after left ∧
      ended.2 = left.tree.size ∧ Tries event.id (event.duties registry tree) ended.1 record) bad
      (runPhase registry event.id event.phase state context) := by
  have each : ∀ transform ∈ event.duties registry tree, transform.InPlace :=
    fun transform member => inPlace transform (Event.declares_of_mem_duties member)
  unfold runPhase
  refine meets_quiet_bind Walk.holds_tree ?_
  rintro _ _ _ ⟨rfl, rfl, rfl⟩
  rw [Walk.transformsFor_eq_duties unrendered frame event]
  refine meets_bind (meets_applyFirst each (frame.has present)) ?_
  rintro outcome after left record ⟨stays, tries⟩
  exact ⟨stays, stays.frame.size.symm, by simpa using tries⟩

theorem meets_enterOnce (frame : tree.SameFrame context.tree) (present : tree.Has id)
    (accepted : Walk.Accepted registry tree id) :
    Meets (fun ended after left record => Stays (· = id) state context after left ∧
      ended.2 = left.tree.size ∧ Tries id ((Event.enter id).duties registry tree) ended.1 record) bad
      (enterOnce registry id state context) := by
  unfold enterOnce
  refine meets_quiet_bind (Walk.holds_setState_stays id .entering) ?_
  rintro _ between middle ⟨marked, -⟩
  refine meets_quiet_bind (accepted.sameFrame (frame.trans marked.frame)).holds_checkTag ?_
  rintro _ after left checked
  have stays := marked.trans (checked.stays.mono fun _ impossible => impossible.elim)
  refine (meets_runPhase inPlace unrendered (.enter id) (frame.trans stays.frame) present).weaken ?_ fun _ _ _ halted => halted
  rintro ended final last record ⟨further, size, tries⟩
  exact ⟨stays.trans (further.mono fun _ impossible => impossible.elim), size, tries⟩

theorem meets_enter (frame : tree.SameFrame context.tree) (present : tree.Has id)
    (accepted : Walk.Accepted registry tree id) :
    Meets (fun entered after final record => Stays (· = id) state context after final ∧
      ∃ count ≤ left, entered = some (id, left - count) ∧ Block id ((Event.enter id).duties registry tree) count record)
      (fun halt _ record => halt = overrun tree bound id ∧ Changes id ((Event.enter id).duties registry tree) (left + 1) record)
      (enter registry bound left id state context) := by
  induction left generalizing state context with
  | zero =>
      unfold enter
      refine meets_bind (meets_enterOnce inPlace unrendered frame present accepted) ?_
      rintro ⟨_, size⟩ between middle record ⟨stays, -, ⟨rfl, attempt⟩ | ⟨rfl, attempt⟩⟩
      · exact ⟨stays, 0, Nat.le_refl _, rfl, by simpa using Block.of_attempt attempt⟩
      · exact meets_unsettled (frame.trans stays.frame) fun _ => ⟨rfl, .more attempt .none⟩
  | succ left hypothesis =>
      unfold enter
      refine meets_bind (meets_enterOnce inPlace unrendered frame present accepted) ?_
      rintro ⟨_, size⟩ between middle first ⟨stays, same, ⟨rfl, attempt⟩ | ⟨rfl, attempt⟩⟩
      · exact ⟨stays, 0, Nat.zero_le _, rfl, by simpa using Block.of_attempt attempt⟩
      · refine meets_quiet_bind (Walk.holds_handOn_stays same _) ?_
        rintro _ after _ ⟨handed, rfl⟩
        refine (hypothesis (frame.trans stays.frame)).weaken ?_ ?_
        · rintro entered final last record ⟨further, count, within, rfl, block⟩
          exact ⟨(stays.trans (handed.mono fun _ impossible => impossible.elim)).trans further, count + 1,
            Nat.succ_le_succ within, by simp, block.more attempt⟩
        · rintro halt last record ⟨rfl, changes⟩
          exact ⟨rfl, .more attempt changes⟩

theorem settles_leave (frame : tree.SameFrame context.tree) (present : tree.Has id)
    (seen : ∀ child ∈ tree.children id, (context.tree.node child).state ≠ .unvisited) :
    Settles (fun fuel => leave registry bound fuel id left) state context
      (fun _ after final record => Stays (· = id) state context after final ∧ (final.tree.node id).state = .settled ∧
        ∃ count ≤ left, Block id ((Event.leave id).duties registry tree) count record)
      (fun halt _ record =>
        halt = overrun tree bound id ∧ Changes id ((Event.leave id).duties registry tree) (left + 1) record) := by
  have never : ∀ {state : Progress} {context : Context} {after : Progress} {final : Context},
      Stays (fun _ => False) state context after final → Stays (· = id) state context after final :=
    fun stays => stays.mono fun _ impossible => impossible.elim
  induction left generalizing state context with
  | zero =>
      refine Settles.step ?_
      simp only [leave]
      refine (meets_runPhase inPlace unrendered (.leave id) frame present).settles.bind ?_
      rintro ⟨_, size⟩ between middle record ⟨stays, -, ⟨rfl, attempt⟩ | ⟨rfl, attempt⟩⟩
      · refine ((meets_quiet (Walk.holds_setState_stays id .settled)).weaken ?_ fun _ _ _ halted => halted).settles
        rintro _ after final _ ⟨rfl, marked, mark⟩
        exact ⟨(never stays).trans marked, mark (stays.frame.has (frame.has present)), 0, Nat.le_refl _,
          by simpa using Block.of_attempt attempt⟩
      · exact (meets_unsettled (frame.trans stays.frame) fun _ => ⟨rfl, .more attempt .none⟩).settles
  | succ left hypothesis =>
      refine Settles.step ?_
      simp only [leave]
      refine (meets_runPhase inPlace unrendered (.leave id) frame present).settles.bind ?_
      rintro ⟨_, size⟩ between middle first ⟨stays, same, ⟨rfl, attempt⟩ | ⟨rfl, attempt⟩⟩
      · refine ((meets_quiet (Walk.holds_setState_stays id .settled)).weaken ?_ fun _ _ _ halted => halted).settles
        rintro _ after final _ ⟨rfl, marked, mark⟩
        exact ⟨(never stays).trans marked, mark (stays.frame.has (frame.has present)), 0, Nat.zero_le _,
          by simpa using Block.of_attempt attempt⟩
      · refine settles_quiet_bind (Walk.holds_handOn_stays same _) ?_
        rintro _ after last ⟨handed, rfl⟩
        have still : ∀ child ∈ tree.children id, (last.tree.node child).state ≠ .unvisited := by
          intro child member
          rw [stays.states child fun impossible => impossible]
          exact seen child member
        have listed := (frame.trans stays.frame).children id
        refine (settles_passed [] (tree.children id) (by simpa using listed) still).bind ?_
        rintro _ _ _ _ ⟨rfl, rfl, rfl⟩
        refine (hypothesis (frame.trans stays.frame) still).weaken ?_ ?_
        · rintro _ last final record ⟨further, mark, count, within, block⟩
          exact ⟨(never (stays.trans handed)).trans further, mark, count + 1, Nat.succ_le_succ within, block.more attempt⟩
        · rintro halt last record ⟨rfl, changes⟩
          exact ⟨rfl, .more attempt changes⟩

end Recorded

/-! ## Whole visits -/

/-- The blocks of the events one behind the other, with no more changes of any node than are allowed. -/
structure Through (registry : Registry) (tree : Tree) (bound : Nat) (inside : NodeId → Prop) (events : List Event)
    (record : List Application) : Prop where
  along : Along registry tree events record
  bounded : ∀ other, changesOf other record ≤ bound
  about : ∀ application ∈ record, inside application.id

/-- The blocks of the first events, and attempts for the next one, the last of which is one change too many. -/
structure Stuck (registry : Registry) (tree : Tree) (bound : Nat) (inside : NodeId → Prop) (events : List Event)
    (halt : Halt) (record : List Application) : Prop where
  stops : ∃ front event back done last count, events = front ++ event :: back ∧ record = done ++ last ∧
    Along registry tree front done ∧ Changes event.id (event.duties registry tree) (count + 1) last ∧
    halt = Recorded.overrun tree bound event.id ∧ changesOf event.id record = bound + 1 ∧
    ∀ other, other ≠ event.id → changesOf other record ≤ bound
  about : ∀ application ∈ record, inside application.id

section

variable {inside within : NodeId → Prop} {halt : Halt} {bound : Nat}

/-- Of two records about different nodes, one at least has no changes of a node. -/
theorem changesOf_apart (first : ∀ application ∈ front, inside application.id)
    (second : ∀ application ∈ back, within application.id) (apart : ∀ id, inside id → ¬within id) (id : NodeId) :
    changesOf id front = 0 ∨ changesOf id back = 0 := by
  by_cases among : inside id
  · exact .inr (changesOf_eq_zero fun application member same => apart id among (same ▸ second application member))
  · exact .inl (changesOf_eq_zero fun application member same => among (same ▸ first application member))

theorem about_append (first : ∀ application ∈ front, inside application.id)
    (second : ∀ application ∈ back, within application.id) :
    ∀ application ∈ front ++ back, inside application.id ∨ within application.id := by
  intro application member
  rcases List.mem_append.1 member with earlier | later
  · exact .inl (first application earlier)
  · exact .inr (second application later)

theorem about_around (first : ∀ application ∈ front, application.id = id)
    (between : ∀ application ∈ record, inside application.id) (last : ∀ application ∈ back, application.id = id) :
    ∀ application ∈ front ++ (record ++ back), application.id = id ∨ inside application.id := by
  intro application member
  simp only [List.mem_append] at member
  rcases member with earlier | below | later
  · exact .inl (first application earlier)
  · exact .inr (between application below)
  · exact .inl (last application later)

namespace Through

theorem mono (through : Through registry tree bound inside events record) (wider : ∀ id, inside id → within id) :
    Through registry tree bound within events record :=
  ⟨through.along, through.bounded, fun application member => wider _ (through.about application member)⟩

theorem append (first : Through registry tree bound inside events front)
    (second : Through registry tree bound within later back) (apart : ∀ id, inside id → ¬within id) :
    Through registry tree bound (fun id => inside id ∨ within id) (events ++ later) (front ++ back) where
  along := first.along.append second.along
  bounded other := by
    have bounded := first.bounded other
    have others := second.bounded other
    rw [changesOf_append]
    rcases changesOf_apart first.about second.about apart other with none | none <;> omega
  about := about_append first.about second.about

/-- A block is gone through if it has no more changes than are allowed. -/
theorem of_block (event : Event) (block : Block event.id (event.duties registry tree) count record)
    (few : count ≤ bound) : Through registry tree bound (· = event.id) [event] record where
  along := .single block
  bounded other := by
    by_cases same : other = event.id
    · rw [same, block.changesOf_eq]
      exact few
    · rw [block.changesOf_of_ne same]
      exact Nat.zero_le _
  about := block.about

/-- The blocks for entering and leaving a node stand around what is gone through below it. -/
theorem around {more : Nat} (entering : Block id ((Event.enter id).duties registry tree) count front)
    (below : Through registry tree bound inside events record)
    (leaving : Block id ((Event.leave id).duties registry tree) more back) (apart : ¬inside id) (few : count + more ≤ bound) :
    Through registry tree bound (fun other => other = id ∨ inside other) ([Event.enter id] ++ (events ++ [Event.leave id]))
      (front ++ (record ++ back)) where
  along := .cons entering (below.along.append (.single leaving))
  bounded other := by
    have bounded := below.bounded other
    rw [changesOf_append, changesOf_append]
    by_cases same : other = id
    · have none : changesOf id record = 0 :=
        changesOf_eq_zero fun application member same => apart (same ▸ below.about application member)
      rw [same, entering.changesOf_eq, leaving.changesOf_eq, none]
      omega
    · rw [entering.changesOf_of_ne same, leaving.changesOf_of_ne same]
      omega
  about := about_around entering.about below.about leaving.about

end Through

namespace Stuck

theorem mono (stuck : Stuck registry tree bound inside events halt record) (wider : ∀ id, inside id → within id) :
    Stuck registry tree bound within events halt record :=
  ⟨stuck.stops, fun application member => wider _ (stuck.about application member)⟩

theorem extend (stuck : Stuck registry tree bound inside events halt record) (later : List Event) :
    Stuck registry tree bound inside (events ++ later) halt record := by
  obtain ⟨⟨before, event, rest, done, last, count, rfl, stops⟩, about⟩ := stuck
  exact ⟨⟨before, event, rest ++ later, done, last, count, by simp, stops⟩, about⟩

theorem of_changes (event : Event) (changes : Changes event.id (event.duties registry tree) (bound + 1) record) :
    Stuck registry tree bound (· = event.id) [event] (Recorded.overrun tree bound event.id) record := by
  refine ⟨⟨[], event, [], [], record, bound, rfl, rfl, .nil, changes, rfl, changes.changesOf_eq,
    fun other different => ?_⟩, changes.about⟩
  rw [changes.changesOf_of_ne different]
  exact Nat.zero_le _

/-- What is gone through before about other nodes does no harm. -/
theorem behind (second : Stuck registry tree bound within later halt back)
    (first : Through registry tree bound inside events front) (apart : ∀ id, inside id → ¬within id) :
    Stuck registry tree bound (fun id => inside id ∨ within id) (events ++ later) halt (front ++ back) := by
  obtain ⟨⟨before, event, rest, done, last, count, rfl, rfl, along, changes, rfl, excess, others⟩, about⟩ := second
  have untouched := changesOf_apart first.about about apart
  refine ⟨⟨events ++ before, event, rest, front ++ done, last, count, (List.append_assoc _ _ _).symm,
    (List.append_assoc _ _ _).symm, first.along.append along, changes, rfl, ?_, fun other different => ?_⟩,
    about_append first.about about⟩
  · rw [changesOf_append]
    rcases untouched event.id with none | none <;> omega
  · have bounded := first.bounded other
    have few := others other different
    rw [changesOf_append]
    rcases untouched other with none | none <;> omega

/-- A node that is left after it was gone through below it may change too often then. -/
theorem around {more : Nat} (entering : Block id ((Event.enter id).duties registry tree) count front)
    (below : Through registry tree bound inside events record)
    (leaving : Changes id ((Event.leave id).duties registry tree) (more + 1) back) (apart : ¬inside id)
    (full : count + more = bound) :
    Stuck registry tree bound (fun other => other = id ∨ inside other) ([Event.enter id] ++ (events ++ [Event.leave id]))
      (Recorded.overrun tree bound id) (front ++ (record ++ back)) := by
  have along : Along registry tree (.enter id :: events) (front ++ record) := .cons entering below.along
  refine ⟨⟨.enter id :: events, .leave id, [], front ++ record, back, more, rfl, (List.append_assoc _ _ _).symm, along,
    leaving, rfl, ?_, fun other different => ?_⟩,
    about_around entering.about below.about leaving.about⟩
  · have none : changesOf id record = 0 :=
      changesOf_eq_zero fun application member same => apart (same ▸ below.about application member)
    rw [changesOf_append, changesOf_append, Event.id_leave, entering.changesOf_eq, leaving.changesOf_eq, none]
    omega
  · have bounded := below.bounded other
    rw [changesOf_append, changesOf_append, entering.changesOf_of_ne different, leaving.changesOf_of_ne different]
    omega

end Stuck

end

namespace Recorded

open Walk (Stays)

variable {state : Progress} {context : Context} {bound : Nat}

/-- A visit of the node runs through what is below it, or gets stuck there. -/
def Visits (registry : Registry) (tree : Tree) (bound : Nat) (id : NodeId) : Prop :=
  ∀ {state : Progress} {context : Context}, state.carried = [] → tree.SameFrame context.tree →
    (∀ other, tree.OnPath id other → (context.tree.node other).state = .unvisited) →
    Settles (fun fuel => visit registry bound fuel id 0) state context
      (fun _ after final record => Stays (tree.OnPath id) state context after final ∧
        (final.tree.node id).state = .settled ∧
        Through registry tree bound (tree.OnPath id) (tree.events [] id) record)
      (fun halt _ record => Stuck registry tree bound (tree.OnPath id) (tree.events [] id) halt record)

/-- The nodes below some of the children of a node. -/
def Below (tree : Tree) (children : List NodeId) (id : NodeId) : Prop :=
  ∃ child ∈ children, tree.OnPath child id

theorem below_cons {child : NodeId} {children : List NodeId} :
    Below tree (child :: children) id ↔ tree.OnPath child id ∨ Below tree children id := by
  simp [Below]

/-- What is below a child is not below the children behind it. -/
theorem not_below_of_onPath {parent child : NodeId} {before rest : List NodeId} (wellFormed : tree.WellFormed)
    (split : tree.children parent = before ++ child :: rest) (under : tree.OnPath child id) : ¬Below tree rest id := by
  have linked : ∀ other ∈ child :: rest, tree.parent other = some parent := fun other member =>
    (wellFormed.linked parent other).1 (by rw [split]; exact List.mem_append_right _ member)
  have distinct : child ∉ rest := by
    have nodup := wellFormed.nodup parent
    rw [split] at nodup
    exact (List.nodup_cons.1 (List.nodup_append.1 nodup).2.1).1
  rintro ⟨other, member, below⟩
  refine distinct ?_
  rwa [wellFormed.eq_of_onPath_of_siblings (linked child List.mem_cons_self)
    (linked other (List.mem_cons_of_mem _ member)) under below]

/-- Children are visited one after the other. The induction is on what is left of them. -/
theorem settles_children {parent : NodeId} (wellFormed : tree.WellFormed) (before rest : List NodeId)
    (split : tree.children parent = before ++ rest) (visits : ∀ child ∈ rest, Visits registry tree bound child)
    (carried : state.carried = []) (frame : tree.SameFrame context.tree)
    (waits : ∀ other, Below tree rest other → (context.tree.node other).state = .unvisited) :
    Settles (fun fuel => visitChildren registry bound fuel parent before.length) state context
      (fun _ after final record => Stays (Below tree rest) state context after final ∧
        (∀ child ∈ rest, (final.tree.node child).state = .settled) ∧
        Through registry tree bound (Below tree rest) (rest.flatMap (tree.events [])) record)
      (fun halt _ record => Stuck registry tree bound (Below tree rest) (rest.flatMap (tree.events [])) halt record) := by
  induction rest generalizing before state context with
  | nil =>
      refine Settles.step ?_
      simp only [visitChildren]
      refine settles_quiet_bind Walk.holds_tree ?_
      rintro _ _ _ ⟨rfl, rfl, rfl⟩
      rw [frame.children, split, List.append_nil, List.getElem?_eq_none (Nat.le_refl _)]
      exact Meets.settles ⟨.refl _ _ _, fun _ none => absurd none List.not_mem_nil, .nil, fun _ => Nat.zero_le _,
        fun _ none => absurd none List.not_mem_nil⟩
  | cons child rest hypothesis =>
      have apart : ∀ id, tree.OnPath child id → ¬Below tree rest id := fun id => not_below_of_onPath wellFormed split
      have wide : ∀ id, tree.OnPath child id ∨ Below tree rest id → Below tree (child :: rest) id := fun id => below_cons.2
      have found : ∀ {current : Context}, tree.SameFrame current.tree →
          (current.tree.children parent)[before.length]? = some child := by
        intro current same
        rw [same.children, split]
        simp
      refine Settles.step ?_
      simp only [visitChildren]
      refine settles_quiet_bind Walk.holds_tree ?_
      rintro _ _ _ ⟨rfl, rfl, rfl⟩
      rw [found frame]
      simp only [waits child ⟨child, List.mem_cons_self, .self⟩, beq_self_eq_true, if_true]
      refine Settles.bind ((visits child List.mem_cons_self carried frame
        fun other under => waits other (wide other (.inl under))).weaken (fun _ _ _ _ holds => holds) ?_) ?_
      · intro halt _ record stuck
        rw [List.flatMap_cons]
        exact (stuck.extend _).mono fun id under => wide id (.inl under)
      · rintro _ between middle first ⟨stays, settled, through⟩
        -- The child has settled, so it is passed over.
        refine Settles.step ?_
        simp only [visitChildren]
        refine settles_quiet_bind Walk.holds_tree ?_
        rintro _ _ middle ⟨rfl, rfl, rfl⟩
        have after := frame.trans stays.frame
        have still : ∀ other, Below tree rest other → (middle.tree.node other).state = .unvisited := by
          intro other below
          rw [stays.states other fun under => apart other under below]
          exact waits other (wide other (.inr below))
        have next : before.length + 1 = (before ++ [child]).length := by simp
        rw [found after]
        simp only [settled, beq_eq_false_iff_ne.2 (show WalkState.settled ≠ .unvisited by decide), Bool.false_eq_true,
          if_false]
        rw [next]
        refine (hypothesis (before ++ [child]) (by simp [split])
          (fun other member => visits other (List.mem_cons_of_mem _ member)) (stays.carried.trans carried) after
          still).weaken ?_ ?_
        · rintro _ last final record ⟨further, others, more⟩
          refine ⟨(stays.mono fun id under => wide id (.inl under)).trans
            (further.mono fun id below => wide id (.inr below)), ?_, ?_⟩
          · intro other member
            rcases List.mem_cons.1 member with rfl | behind
            · rw [further.states other (apart other .self)]
              exact settled
            · exact others other behind
          · rw [List.flatMap_cons]
            exact (through.append more apart).mono wide
        · intro halt _ record stuck
          rw [List.flatMap_cons]
          exact (stuck.behind through apart).mono wide

theorem startOf_of_carried (carried : state.carried = []) (id : NodeId) : state.startOf id = 0 := by
  rw [Progress.startOf, carried]
  rfl

/-- A node is entered, its children are visited, and it is left. -/
theorem visits (inPlace : ∀ transform, registry.Declares transform → transform.InPlace)
    (unrendered : ∀ tag entry, registry.lookup? tag tree.file = some entry → entry.rules.renderer = none)
    (wellFormed : tree.WellFormed) (present : tree.Has id)
    (accepted : ∀ other, tree.OnPath id other → Walk.Accepted registry tree other) : Visits registry tree bound id := by
  induction id using wellFormed.below_induction with
  | step id hypothesis =>
      intro state context carried frame waits
      have apart : ∀ other, other = id → ¬Below tree (tree.children id) other := by
        rintro _ rfl ⟨child, member, below⟩
        obtain ⟨depth, grounded⟩ := wellFormed.grounded child
        exact Tree.not_onPath_parent grounded ((wellFormed.linked _ _).1 member) below
      have under : ∀ other, Below tree (tree.children id) other → tree.OnPath id other := fun other ⟨child, member, below⟩ =>
        (Tree.OnPath.step ((wellFormed.linked id child).1 member) .self).trans below
      have whole : ∀ other, other = id ∨ Below tree (tree.children id) other → tree.OnPath id other := by
        rintro other (rfl | below)
        · exact .self
        · exact under other below
      refine Settles.step ?_
      simp only [visit]
      refine settles_quiet_bind Walk.holds_progress ?_
      rintro _ _ _ ⟨rfl, rfl, rfl⟩
      rw [startOf_of_carried carried, Nat.max_self, Nat.sub_zero]
      refine settles_quiet_bind Walk.holds_modifyProgress ?_
      rintro _ _ _ ⟨rfl, rfl⟩
      have events : tree.events [] id =
          [Event.enter id] ++ ((tree.children id).flatMap (tree.events []) ++ [Event.leave id]) := wellFormed.events_eq id
      rw [events]
      refine Settles.bind ((meets_enter inPlace unrendered frame present (accepted id .self)).weaken
        (fun _ _ _ _ holds => holds) ?_).settles ?_
      · -- The node changes too often while it is entered.
        rintro halt _ record ⟨rfl, changes⟩
        exact ((Stuck.of_changes (.enter id) changes).extend _).mono fun other same => whole other (.inl same)
      · rintro _ between middle entering ⟨entered, count, few, rfl, block⟩
        dsimp only
        refine settles_quiet_bind (Walk.holds_setState_stays id .entered) ?_
        rintro _ after last ⟨marked, -⟩
        have stays := entered.trans marked
        have kids : ∀ other, Below tree (tree.children id) other → (last.tree.node other).state = .unvisited := by
          intro other below
          rw [stays.states other fun same => apart other same below]
          exact waits other (under other below)
        refine Settles.bind ((settles_children wellFormed [] (tree.children id) rfl
          (fun child member => hypothesis child member (wellFormed.has_child member) fun other below =>
            accepted other (under other ⟨child, member, below⟩)) (stays.carried.trans carried) (frame.trans stays.frame)
          kids).weaken (fun _ _ _ _ holds => holds) ?_) ?_
        · intro halt _ record stuck
          exact ((stuck.extend [.leave id]).behind (.of_block (.enter id) block few) apart).mono whole
        · rintro _ between middle inner ⟨visited, settled, through⟩
          refine settles_quiet_bind (Walk.holds_setState_stays id .exiting) ?_
          rintro _ after last ⟨marked, -⟩
          have seen : ∀ child ∈ tree.children id, (last.tree.node child).state ≠ .unvisited := by
            intro child member
            have different : child ≠ id := fun same => apart child same ⟨child, member, .self⟩
            rw [marked.states child different, settled child member]
            decide
          refine (settles_leave inPlace unrendered (((frame.trans stays.frame).trans visited.frame).trans marked.frame)
            present seen).weaken ?_ ?_
          · rintro _ _ _ leaving ⟨left, mark, more, within, last⟩
            have gone := ((stays.mono fun other same => whole other (.inl same)).trans
              (visited.mono fun other below => whole other (.inr below))).trans
              ((marked.trans left).mono fun other same => whole other (.inl same))
            refine ⟨⟨gone.carried, gone.frame, gone.states⟩, mark, ?_⟩
            exact (Through.around block through last (apart id rfl) (by omega)).mono whole
          · rintro halt _ leaving ⟨rfl, changes⟩
            exact (Stuck.around block through changes (apart id rfl) (by omega)).mono whole

theorem holds_reset {halts : Halt → Prop} (root : NodeId) :
    Walk.Holds halts (reset root) state context fun value after left => value = context ∧ after = state ∧
      context.tree.SameShape left.tree ∧ ∀ id ∈ context.tree.preorder root, (left.tree.node id).state = .unvisited := by
  unfold reset
  refine Walk.holds_context.bind ?_
  rintro _ _ _ ⟨rfl, rfl, rfl⟩
  refine (Walk.holds_markAll _).bind ?_
  rintro _ _ left ⟨rfl, -, shape, states⟩
  exact Walk.holds_pure ⟨rfl, rfl, shape, fun id member => by rw [states, if_pos member]⟩

theorem settles_start (inPlace : ∀ transform, registry.Declares transform → transform.InPlace)
    (unrendered : ∀ tag entry, registry.lookup? tag context.tree.file = some entry → entry.rules.renderer = none)
    (wellFormed : context.tree.WellFormed) (present : context.tree.Has id)
    (accepted : ∀ other, context.tree.OnPath id other → Walk.Accepted registry context.tree other) :
    Settles (fun fuel => start registry fuel id) {} context
      (fun _ _ _ record => Through registry context.tree context.options.maxTransformPasses (context.tree.OnPath id)
        (context.tree.events [] id) record)
      (fun halt _ record => Stuck registry context.tree context.options.maxTransformPasses (context.tree.OnPath id)
        (context.tree.events [] id) halt record) := by
  unfold start
  refine settles_quiet_bind (holds_reset id) ?_
  rintro _ _ left ⟨rfl, rfl, shape, unvisited⟩
  refine (visits inPlace unrendered wellFormed present accepted rfl shape.sameFrame fun other under =>
    unvisited other (wellFormed.mem_preorder under)).weaken ?_ fun _ _ _ halted => halted
  exact fun _ _ _ _ ⟨_, _, through⟩ => through

end Recorded

/--
The blocks of the first events stand behind each other, and after them attempts for the next event. The last of these
is the first change of any node that is one too many, and it is a change of the node.
-/
def Overruns (registry : Registry) (tree : Tree) (bound : Nat) (events : List Event) (id : NodeId)
    (record : List Application) : Prop :=
  ∃ front event back done last count, events = front ++ event :: back ∧ record = done ++ last ∧
    Along registry tree front done ∧ Changes event.id (event.duties registry tree) (count + 1) last ∧
    event.id = id ∧ changesOf id record = bound + 1 ∧ ∀ other, changesOf other record.dropLast ≤ bound

theorem Stuck.overruns {bound : Nat} {inside : NodeId → Prop} {halt : Halt}
    (stuck : Stuck registry tree bound inside events halt record) :
    ∃ id, halt = Recorded.overrun tree bound id ∧ Overruns registry tree bound events id record := by
  obtain ⟨⟨front, event, back, done, last, count, split, rfl, along, changes, rfl, excess, others⟩, -⟩ := stuck
  refine ⟨event.id, rfl, front, event, back, done, last, count, split, rfl, along, changes, rfl, excess, fun other => ?_⟩
  obtain ⟨before, change, rfl, same, differs⟩ := changes.ends
  have few : changesOf other (done ++ (before ++ [change])) = changesOf other (done ++ before) + changesOf other [change] := by
    rw [← List.append_assoc, changesOf_append]
  rw [← List.append_assoc, List.dropLast_concat]
  by_cases own : other = event.id
  · have one : changesOf other [change] = 1 := by simp [changesOf, own, same, differs]
    rw [own] at few one ⊢
    omega
  · have bounded := others other own
    omega

/--
Let transforms edit only the attributes of their nodes, let no tag have a renderer, and let all tags below the root be
known and allowed where they are. Then a walk applies the transforms in the order of a traversal: a block for entering
each node, the blocks of its children, and a block for leaving it, where a block is made of attempts up to a change, and
a last attempt without one. The walk succeeds if and only if no node is changed more often than is allowed, in both of
its blocks together. Otherwise it fails at the first node that is, with this change.
-/
theorem Context.walk_in_order {registry : Registry} {context : Context} {root : NodeId}
    (inPlace : ∀ transform, registry.Declares transform → transform.InPlace)
    (unrendered : ∀ tag entry, registry.lookup? tag context.tree.file = some entry → entry.rules.renderer = none)
    (wellFormed : context.tree.WellFormed) (present : context.tree.Has root)
    (accepted : ∀ id, context.tree.OnPath root id → Walk.Accepted registry context.tree id) :
    ∃ enough walked record,
      (∀ fuel, enough ≤ fuel → context.walkRecorded registry fuel root = (walked, record) ∧
        context.walk registry fuel root = walked) ∧
      (walked.1.isOk = true ↔ ∀ id, changesOf id record ≤ context.options.maxTransformPasses) ∧
      (walked.1.isOk = true → Along registry context.tree (context.tree.events [] root) record) ∧
      (walked.1.isOk = false → ∃ id, walked.1 = .error (.fault (context.tree.faultAt id
          (.unsettled (context.tree.node id).describe context.options.maxTransformPasses))) ∧
        Overruns registry context.tree context.options.maxTransformPasses (context.tree.events [] root) id record) := by
  obtain ⟨enough, ⟨⟨⟨result, state⟩, after⟩, record⟩, same, meets⟩ :=
    Recorded.settles_start inPlace unrendered wellFormed present accepted
  have runs : ∀ fuel, enough ≤ fuel →
      context.walkRecorded registry fuel root = ((result.map fun _ => state, after), record) := by
    intro fuel large
    have started : Recorded.start registry fuel root {} context = (((result, state), after), record) := same fuel large
    unfold walkRecorded
    rw [started]
  refine ⟨enough, (result.map fun _ => state, after), record, fun fuel large => ⟨runs fuel large, ?_⟩, ?_⟩
  · rw [← context.walkRecorded_fst registry fuel root, runs fuel large]
  · rcases result with halt | value
    · obtain ⟨id, rfl, overruns⟩ := Stuck.overruns meets
      have excess : changesOf id record = context.options.maxTransformPasses + 1 := by
        obtain ⟨_, _, _, _, _, _, -, -, -, -, -, excess, -⟩ := overruns
        exact excess
      refine ⟨⟨fun wrong => (by cases wrong), fun few => ?_⟩, fun wrong => (by cases wrong), fun _ => ⟨id, rfl, overruns⟩⟩
      have bounded := few id
      omega
    · have through : Through _ _ _ _ _ _ := meets
      exact ⟨⟨fun _ => through.bounded, fun _ => rfl⟩, fun _ => through.along, fun wrong => by cases wrong⟩

/-- A transform that gives its node an attribute, unless it has one with the name. -/
def Transform.tag (name : String) (phase : Phase) : Transform :=
  { name
    phase
    apply := fun id => do
      let given := ((← Edit.tree).node id).attributes
      let tagged := given.any fun other => other.name == name
      let attributes := if tagged then given else given ++ [{ name, value := default, position := {} }]
      Edit.modifyTree fun tree => tree.update id fun node => { node with attributes }
      return if tagged then .unchanged else .changed }

theorem Transform.inPlace_tag (name : String) (phase : Phase) : (Transform.tag name phase).InPlace := by
  intro id before _
  refine ⟨_, _, before.diagnostics, before.notes, ?_, rfl⟩
  split
  · exact .inl rfl
  · exact .inr rfl

/-- Own transforms come before those for all tags, and a node that is left may change once too often. -/
theorem Context.walk_in_order_tag :
    let tree : Tree := { file := "page", nodes := [
      { kind := .document, children := [⟨1⟩] }, { kind := .element "x", parent := some ⟨0⟩, children := [⟨2⟩] },
      { kind := .element "x", parent := some ⟨1⟩ }] }
    let registry : Registry := { registrations := [{ taglib := {
      id := "x", globals := [Transform.tag "all" .enter]
      entries := SortedMap.empty.insert "x" {
        rules := { name := "x" }, declared := [Transform.tag "own" .enter, Transform.tag "late" .leave] } } }] }
    let context := Context.start tree { maxTransformPasses := 2 } registry
    (∃ enough walked record,
      (∀ fuel, enough ≤ fuel → context.walkRecorded registry fuel ⟨0⟩ = (walked, record)) ∧
      (walked.1.isOk = true ↔ ∀ id, changesOf id record ≤ 2)) ∧
      ((context.walkRecorded registry 9 ⟨0⟩).2.map fun application => (application.transform.name, application.id.index)) =
        [("own", 1), ("own", 1), ("all", 1), ("own", 1), ("all", 1), ("own", 2), ("own", 2), ("all", 2), ("own", 2),
          ("all", 2), ("late", 2)] := by
  intro tree registry context
  have wellFormed : context.tree.WellFormed := Tree.Ordered.wellFormed (by decide)
  have declared : ∀ transform, registry.Declares transform → transform.InPlace := by
    rintro transform ⟨registration, member, declares⟩
    obtain rfl := List.mem_singleton.1 member
    have listed : transform = Transform.tag "all" .enter ∨ transform = Transform.tag "own" .enter ∨
        transform = Transform.tag "late" .leave := by
      simpa [SortedMap.insert, SortedMap.insertEntry, SortedMap.empty] using declares
    rcases listed with rfl | rfl | rfl
    · exact Transform.inPlace_tag _ _
    · exact Transform.inPlace_tag _ _
    · exact Transform.inPlace_tag _ _
  have plain : ∀ tag entry, registry.lookup? tag context.tree.file = some entry → entry.rules = { name := "x" } := by
    intro tag entry found
    simp only [Registry.lookup?, Registry.applicable, registry, Registration.appliesTo, List.filter_cons, if_true,
      List.filter_nil, List.reverse_singleton, List.mergeSort_singleton, List.findSome?_cons, List.findSome?_nil] at found
    simp only [SortedMap.find?, SortedMap.insert, SortedMap.insertEntry, SortedMap.empty, List.lookup_cons,
      List.lookup_nil] at found
    cases same : tag == "x" with
    | true =>
        rw [same] at found
        cases found
        rfl
    | false =>
        rw [same] at found
        cases found
  have accepted : ∀ id, context.tree.OnPath ⟨0⟩ id → Walk.Accepted registry context.tree id := by
    intro id _
    have named : ∀ id tag, (context.tree.kind id).tag? = some tag → tag = "x" := by
      intro id tag tagged
      have present : context.tree.Has id := Walk.has_of_tag? tagged
      have each : ∀ node ∈ context.tree.nodes, ∀ tag ∈ node.tag?, tag = "x" := by decide
      rw [Tree.kind, Tree.node, List.getD_eq_getElem _ _ present] at tagged
      exact each _ (List.getElem_mem present) tag tagged
    refine ⟨fun tag tagged => .inl ?_, fun tag parent above entry _ _ _ found => ?_⟩
    · rw [named id tag tagged]
      decide +kernel
    · rw [plain above entry found]
      rfl
  refine ⟨?_, by decide +kernel⟩
  obtain ⟨enough, walked, record, runs, succeeds, -, -⟩ := Context.walk_in_order declared
    (fun tag entry found => by rw [plain tag entry found]) wellFormed (show context.tree.Has ⟨0⟩ by decide) accepted
  exact ⟨enough, walked, record, fun fuel large => (runs fuel large).1, succeeds⟩

end HtmlTemplate
