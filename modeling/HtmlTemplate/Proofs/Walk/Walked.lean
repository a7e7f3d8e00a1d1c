import HtmlTemplate.Proofs.Transform
import HtmlTemplate.Proofs.Tree.Marks
import HtmlTemplate.Proofs.Tree.Relinking

/-!
# Trees in the middle of a walk

A transform that is applied to a node may edit the node and its siblings, and all that is below them; a change is local
if nothing else is edited. It is confined if besides the siblings before the node stay the first ones, and nodes that
have settled gain no children that have not.

While a walk is below a node, the nodes on the path to it are open. All others have either settled or not
been visited, and nodes that have settled have only children that have settled. Walking below a node
leaves the tree elsewhere as it is, and with it the first siblings of the node that is visited.
-/

namespace HtmlTemplate

/-! ## Confined changes -/

namespace Tree

/-- The other node is the node, one of its siblings, or below one of these. -/
def Around (tree : Tree) (id other : NodeId) : Prop :=
  ∃ top, (top = id ∨ ∃ parent, tree.parent id = some parent ∧ tree.parent top = some parent) ∧
    tree.OnPath top other

/-- The siblings before the node. -/
def preceding (tree : Tree) (id : NodeId) : List NodeId :=
  match tree.parent id with
  | some parent => (tree.children parent).takeWhile fun child => child != id
  | none => []

/-- What a transform did stays in the surroundings of its node, and is what it reports. -/
structure Local (before : Tree) (id : NodeId) (outcome : Outcome) (after : Tree) : Prop where
  /-- Elsewhere nodes keep their children, apart from the parent of the node. -/
  children : ∀ other, before.Has other → ¬before.Around id other → before.parent id ≠ some other →
    after.children other = before.children other
  /-- Elsewhere nodes keep their parents. -/
  parent : ∀ other, before.Has other → ¬before.Around id other → after.parent other = before.parent other
  /-- A node that changed is still in its place. -/
  changed : outcome = .changed → after.parent id = before.parent id
  /-- A node that takes the place of another one is a child of the same parent. -/
  replaced : ∀ next, outcome = .replaced next →
    after.parent next = before.parent id ∧ next ∉ before.preceding id
  /-- A node that was removed had a parent. -/
  removed : outcome = .removed → before.parent id ≠ none

/-- What a transform did is local, and leaves what the walk has done as it is. -/
structure Confined (before : Tree) (id : NodeId) (outcome : Outcome) (after : Tree) : Prop
    extends before.Local id outcome after where
  /-- The siblings before the node are still the first ones. -/
  preceding : ∀ parent, before.parent id = some parent → before.preceding id <+: after.children parent
  /-- Nodes that have settled gain only children that have settled. -/
  settled : ∀ other, before.Has other → (before.node other).state = .settled →
    ∀ child ∈ after.children other,
      child ∈ before.children other ∨ (after.node child).state = .settled

variable {before after : Tree} {id : NodeId} {outcome : Outcome}

/-- A change that keeps all links is confined. -/
theorem confined_of_links_eq (children : ∀ other, after.children other = before.children other)
    (parent : ∀ other, after.parent other = before.parent other) :
    before.Confined id .changed after where
  children other _ _ _ := children other
  parent other _ _ := parent other
  preceding top linked := by
    rw [children, Tree.preceding, linked]
    exact List.takeWhile_prefix _
  settled other _ _ child member := .inl (children other ▸ member)
  changed _ := parent id
  replaced next impossible := by cases impossible
  removed impossible := by cases impossible

/-! ## Paths that stay -/

/-- Nodes above a node elsewhere are elsewhere too, and the path to them stays. -/
theorem OnPath.of_outside {region : NodeId → Prop} (wellFormed : before.WellFormed)
    (closed : ∀ id parent, before.parent id = some parent → region parent → region id)
    (same : ∀ other, before.Has other → ¬region other → after.parent other = before.parent other)
    {top id : NodeId} (onPath : after.OnPath top id) (present : before.Has id) (outside : ¬region id) :
    before.OnPath top id ∧ before.Has top ∧ ¬region top := by
  induction onPath with
  | self => exact ⟨.self, present, outside⟩
  | @step id parent linked _ hypothesis =>
      rw [same id present outside] at linked
      obtain ⟨upper, hasTop, apart⟩ := hypothesis (wellFormed.has_parent linked)
        fun inside => outside (closed id parent linked inside)
      exact ⟨.step linked upper, hasTop, apart⟩

theorem OnPath.keep_outside {region : NodeId → Prop} (wellFormed : before.WellFormed)
    (closed : ∀ id parent, before.parent id = some parent → region parent → region id)
    (same : ∀ other, before.Has other → ¬region other → after.parent other = before.parent other)
    {top id : NodeId} (onPath : before.OnPath top id) (present : before.Has id) (outside : ¬region id) :
    after.OnPath top id := by
  induction onPath with
  | self => exact .self
  | @step id parent linked _ hypothesis =>
      have upper := hypothesis (wellFormed.has_parent linked)
        fun inside => outside (closed id parent linked inside)
      exact .step ((same id present outside).trans linked) upper

end Tree

/-- Every change that the transform makes is local. -/
def Transform.Local (transform : Transform) : Prop :=
  ∀ {id : NodeId} {before after : Context} {outcome : Outcome}, before.tree.WellFormed →
    before.tree.Has id → transform.Does id before outcome after → outcome ≠ .unchanged →
      before.tree.Local id outcome after.tree

/-- Every change that the transform makes is confined. -/
def Transform.Confined (transform : Transform) : Prop :=
  ∀ {id : NodeId} {before after : Context} {outcome : Outcome}, before.tree.WellFormed →
    before.tree.Has id → transform.Does id before outcome after → outcome ≠ .unchanged →
      before.tree.Confined id outcome after.tree

theorem Transform.confined_bindRenderer (renderer : String) : (Transform.bindRenderer renderer).Confined := by
  intro id before after outcome _ _ does reports
  rcases Transform.bindRenderer_does does with ⟨unchanged, -⟩ | ⟨rfl, tag, tree, -, made, rfl⟩
  · exact absurd unchanged reports
  · obtain ⟨-, -, rfl⟩ := Tree.setKind_eq_ok_iff.1 made
    refine Tree.confined_of_links_eq (fun other => ?_) fun other => ?_
    · exact Tree.field_update before.tree id other Node.children fun _ => rfl
    · exact Tree.field_update before.tree id other Node.parent fun _ => rfl

/-! ## Trees that are walked -/

namespace Walk

/-- A mark of a node that the walk has entered and not left yet. -/
def IsOpen (mark : WalkState) : Prop :=
  mark ≠ .unvisited ∧ mark ≠ .settled

/-- The nodes that come up while the children of a host are visited, or the root if there is no host. -/
def Under (root : NodeId) (tree : Tree) : Option NodeId → NodeId → Prop
  | none, id => tree.OnPath root id
  | some host, id => ∃ child, tree.parent child = some host ∧ tree.OnPath child id

/-- The walk is at the children of the host, or at the root if there is no host. -/
structure Walked (root : NodeId) (host : Option NodeId) (tree : Tree) : Prop where
  wellFormed : tree.WellFormed
  top : tree.parent root = none
  reached : ∀ parent, host = some parent → tree.OnPath root parent
  opened : ∀ parent, host = some parent → ∀ id, tree.OnPath id parent → IsOpen (tree.node id).state
  others : ∀ id, tree.OnPath root id → (∀ parent, host = some parent → ¬tree.OnPath id parent) →
    (tree.node id).state = .unvisited ∨ (tree.node id).state = .settled
  closed : ∀ id, tree.OnPath root id → (tree.node id).state = .settled →
    ∀ child ∈ tree.children id, (tree.node child).state = .settled

/-- What stays while the nodes under a host are visited, the first of its children included. -/
structure Held (root : NodeId) (host : Option NodeId) (front : List NodeId) (before after : Tree) : Prop where
  size_le : before.size ≤ after.size
  parent : ∀ id, before.Has id → ¬Under root before host id → after.parent id = before.parent id
  state : ∀ id, before.Has id → ¬Under root before host id →
    (after.node id).state = (before.node id).state
  children : ∀ id, before.Has id → ¬Under root before host id → host ≠ some id →
    after.children id = before.children id
  front : ∀ parent, host = some parent → ∀ id ∈ front, (after.node id).state = (before.node id).state

/-- The node is the next one to visit: a child of the host behind the first ones. -/
structure Next (host : Option NodeId) (front : List NodeId) (id : NodeId) (tree : Tree) : Prop where
  parent : tree.parent id = host
  behind : id ∉ front
  first : ∀ parent, host = some parent → front <+: tree.children parent

variable {root id : NodeId} {host : Option NodeId} {front : List NodeId} {tree middle before after : Tree}

/-! ## What is under a host -/

theorem Under.of_parent {parent : NodeId} (linked : tree.parent id = some parent)
    (under : Under root tree host parent) : Under root tree host id := by
  cases host with
  | none => exact .step linked under
  | some host =>
      obtain ⟨child, below, onPath⟩ := under
      exact ⟨child, below, .step linked onPath⟩

theorem Next.under (next : Next host front id tree) (reaches : tree.OnPath root id) :
    Under root tree host id := by
  cases host with
  | none => exact reaches
  | some host => exact ⟨id, next.parent, .self⟩

/-- The host and what is above it are not under the host. -/
theorem not_under_of_onPath (wellFormed : tree.WellFormed) {parent : NodeId}
    (above : tree.OnPath id parent) : ¬Under root tree (some parent) id := by
  rintro ⟨child, linked, onPath⟩
  obtain ⟨depth, grounded⟩ := wellFormed.grounded child
  exact Tree.not_onPath_parent grounded linked (onPath.trans above)

/-- What is not under a host stays so while other nodes keep their parents. -/
theorem not_under_of_kept (wellFormed : before.WellFormed)
    (kept : ∀ id, before.Has id → ¬Under root before host id → after.parent id = before.parent id)
    (present : before.Has id) (outside : ¬Under root before host id) : ¬Under root after host id := by
  intro under
  cases host with
  | none =>
      have earlier := Tree.OnPath.of_outside wellFormed (fun _ _ => Under.of_parent) kept under present outside
      exact outside earlier.1
  | some host =>
      obtain ⟨child, linked, onPath⟩ := under
      obtain ⟨below, hasChild, apart⟩ :=
        Tree.OnPath.of_outside wellFormed (fun _ _ => Under.of_parent) kept onPath present outside
      rw [kept child hasChild apart] at linked
      exact outside ⟨child, linked, below⟩

/-! ## What stays -/

theorem Held.refl (tree : Tree) : Held root host front tree tree :=
  ⟨Nat.le_refl _, fun _ _ _ => rfl, fun _ _ _ => rfl, fun _ _ _ _ => rfl, fun _ _ _ _ => rfl⟩

theorem Held.has (held : Held root host front before after) (present : before.Has id) : after.Has id :=
  Nat.lt_of_lt_of_le present held.size_le

theorem Held.trans (wellFormed : before.WellFormed) (first : Held root host front before middle)
    (second : Held root host front middle after) : Held root host front before after := by
  have outside : ∀ id, before.Has id → ¬Under root before host id → ¬Under root middle host id :=
    fun id => not_under_of_kept wellFormed first.parent
  refine ⟨Nat.le_trans first.size_le second.size_le, ?_, ?_, ?_, ?_⟩
  · intro id present apart
    rw [second.parent id (first.has present) (outside id present apart), first.parent id present apart]
  · intro id present apart
    rw [second.state id (first.has present) (outside id present apart), first.state id present apart]
  · intro id present apart other
    rw [second.children id (first.has present) (outside id present apart) other,
      first.children id present apart other]
  · intro parent hosted id member
    rw [second.front parent hosted id member, first.front parent hosted id member]

/-- The siblings before a node are not below it. -/
theorem Next.not_under_front (next : Next host front id tree) (wellFormed : tree.WellFormed) {parent other : NodeId}
    (hosted : host = some parent) (member : other ∈ front) :
    tree.Has other ∧ ¬Under root tree (some id) other := by
  subst hosted
  have linked := (wellFormed.linked parent other).1 ((next.first parent rfl).subset member)
  refine ⟨Tree.has_of_parent linked, ?_⟩
  rintro ⟨child, below, onPath⟩
  have above : tree.OnPath id other := (Tree.OnPath.step below .self).trans onPath
  have same := wellFormed.eq_of_onPath_of_siblings next.parent linked above .self
  exact next.behind (same ▸ member)

/-- What stays while the children of a node are visited stays while the node is visited. -/
theorem Held.narrow (held : Held root (some id) [] before after) (wellFormed : before.WellFormed)
    (next : Next host front id before) (reaches : before.OnPath root id) :
    Held root host front before after := by
  have under := next.under reaches
  have outside : ∀ other, ¬Under root before host other → ¬Under root before (some id) other := by
    rintro other apart ⟨child, linked, onPath⟩
    have below : before.OnPath id other := (Tree.OnPath.step linked .self).trans onPath
    refine apart ?_
    cases host with
    | none => exact under.trans below
    | some parent => exact ⟨id, next.parent, below⟩
  refine ⟨held.size_le, ?_, ?_, ?_, ?_⟩
  · exact fun other present apart => held.parent other present (outside other apart)
  · exact fun other present apart => held.state other present (outside other apart)
  · intro other present apart _
    refine held.children other present (outside other apart) ?_
    intro same
    exact apart (Option.some.inj same ▸ under)
  · intro parent hosted other member
    obtain ⟨present, apart⟩ := next.not_under_front wellFormed hosted member
    exact held.state other present apart

/-- A node is still the next one after its children were visited. -/
theorem Next.kept (next : Next host front id before) (wellFormed : before.WellFormed) (present : before.Has id)
    (held : Held root (some id) [] before after) : Next host front id after where
  parent := by
    rw [held.parent id present (not_under_of_onPath wellFormed .self), next.parent]
  behind := next.behind
  first parent hosted := by
    subst hosted
    have above : before.OnPath parent id := .step next.parent .self
    have different : some id ≠ some parent := by
      intro same
      obtain rfl := Option.some.inj same
      obtain ⟨depth, grounded⟩ := wellFormed.grounded id
      exact Tree.not_onPath_parent grounded next.parent .self
    rw [held.children parent (wellFormed.has_parent next.parent) (not_under_of_onPath wellFormed above) different]
    exact next.first parent rfl

/-! ## Marks -/

/-- Marks of nodes under the host do no harm to what stays, the first children apart. -/
theorem Held.mark (held : Held root host front before after) (under : Under root before host id)
    (behind : id ∉ front) (mark : WalkState) : Held root host front before (after.setState id mark) := by
  have shape := after.sameShape_setState id mark
  refine ⟨shape.size ▸ held.size_le, ?_, ?_, ?_, ?_⟩
  · intro other present apart
    rw [shape.parent, held.parent other present apart]
  · intro other present apart
    have different : other ≠ id := by
      rintro rfl
      exact apart under
    rw [Tree.state_setState_of_ne different, held.state other present apart]
  · intro other present apart notHost
    rw [shape.children, held.children other present apart notHost]
  · intro parent hosted other member
    have different : other ≠ id := by
      rintro rfl
      exact behind member
    rw [Tree.state_setState_of_ne different, held.front parent hosted other member]

/-- Trees of one shape with the same states are walked alike. -/
theorem Walked.of_sameShape (walked : Walked root host before) (shape : before.SameShape after)
    (states : ∀ id, (after.node id).state = (before.node id).state) : Walked root host after where
  wellFormed := shape.wellFormed walked.wellFormed
  top := (shape.parent root).trans walked.top
  reached parent hosted := shape.onPath (walked.reached parent hosted)
  opened parent hosted id above := by
    rw [states]
    exact walked.opened parent hosted id (shape.onPath_iff.1 above)
  others id reaches apart := by
    rw [states]
    refine walked.others id (shape.onPath_iff.1 reaches) fun parent hosted above => ?_
    exact apart parent hosted (shape.onPath above)
  closed id reaches settled child member := by
    rw [states] at settled ⊢
    rw [shape.children] at member
    exact walked.closed id (shape.onPath_iff.1 reaches) settled child member

theorem Next.of_sameShape (next : Next host front id before) (shape : before.SameShape after) :
    Next host front id after where
  parent := (shape.parent id).trans next.parent
  behind := next.behind
  first parent hosted := by
    rw [shape.children]
    exact next.first parent hosted

theorem held_of_sameShape (shape : before.SameShape after)
    (states : ∀ id, (after.node id).state = (before.node id).state) : Held root host front before after :=
  ⟨Nat.le_of_eq shape.size.symm, fun other _ _ => shape.parent other, fun other _ _ => states other,
    fun other _ _ _ => shape.children other, fun _ _ other _ => states other⟩

/-- An open mark takes the walk from a host to its child, or leaves it at the node. -/
theorem Walked.mark (walked : Walked root host tree) {mark : WalkState} (isOpen : IsOpen mark)
    (reaches : tree.OnPath root id) (present : tree.Has id)
    (above : ∀ other, other ≠ id →
      (tree.OnPath other id ↔ ∃ parent, host = some parent ∧ tree.OnPath other parent)) :
    Walked root (some id) (tree.setState id mark) := by
  have shape := tree.sameShape_setState id mark
  refine ⟨shape.wellFormed walked.wellFormed, (shape.parent root).trans walked.top, ?_, ?_, ?_, ?_⟩
  · intro parent hosted
    exact Option.some.inj hosted ▸ shape.onPath reaches
  · intro parent hosted other upper
    obtain rfl := Option.some.inj hosted
    by_cases same : other = id
    · rw [same, Tree.state_setState_self present]
      exact isOpen
    · obtain ⟨parent, hosted, upper⟩ := (above other same).1 (shape.onPath_iff.1 upper)
      rw [Tree.state_setState_of_ne same]
      exact walked.opened parent hosted other upper
  · intro other below apart
    have same : other ≠ id := by
      rintro rfl
      exact apart other rfl .self
    rw [Tree.state_setState_of_ne same]
    refine walked.others other (shape.onPath_iff.1 below) fun parent hosted upper => ?_
    exact apart id rfl (shape.onPath ((above other same).2 ⟨parent, hosted, upper⟩))
  · intro other below settled child member
    have same : other ≠ id := by
      rintro rfl
      rw [Tree.state_setState_self present] at settled
      exact isOpen.2 settled
    rw [Tree.state_setState_of_ne same] at settled
    rw [shape.children] at member
    have different : child ≠ id := by
      rintro rfl
      -- The parent of the node is open, so it has not settled.
      have linked := (walked.wellFormed.linked other child).1 member
      obtain ⟨parent, hosted, upper⟩ := (above other same).1 (.step linked .self)
      exact (walked.opened parent hosted other upper).2 settled
    rw [Tree.state_setState_of_ne different]
    exact walked.closed other (shape.onPath_iff.1 below) settled child member

theorem Walked.enter (walked : Walked root host tree) (next : Next host front id tree) {mark : WalkState}
    (isOpen : IsOpen mark) (reaches : tree.OnPath root id) (present : tree.Has id) :
    Walked root (some id) (tree.setState id mark) := by
  refine walked.mark isOpen reaches present fun other different => ?_
  rw [Tree.onPath_iff, next.parent]
  exact ⟨fun above => above.resolve_left different, .inr⟩

theorem Walked.remark (walked : Walked root (some id) tree) {mark : WalkState} (isOpen : IsOpen mark)
    (present : tree.Has id) : Walked root (some id) (tree.setState id mark) := by
  refine walked.mark isOpen (walked.reached id rfl) present fun other _ => ?_
  simp only [Option.some.injEq, exists_eq_left']

/-- A node whose children have settled settles too, which takes the walk back to its host. -/
theorem Walked.leave (walked : Walked root (some id) tree) (next : Next host front id tree)
    (present : tree.Has id) (settled : ∀ child ∈ tree.children id, (tree.node child).state = .settled) :
    Walked root host (tree.setState id .settled) := by
  have shape := tree.sameShape_setState id .settled
  have reaches := walked.reached id rfl
  have isOpen := walked.opened id rfl id .self
  have upper : ∀ parent, host = some parent → tree.parent id = some parent := by
    rintro parent rfl
    exact next.parent
  refine ⟨shape.wellFormed walked.wellFormed, (shape.parent root).trans walked.top, ?_, ?_, ?_, ?_⟩
  · intro parent hosted
    rcases Tree.onPath_iff.1 reaches with rfl | ⟨other, linked, above⟩
    · cases walked.top.symm.trans (upper parent hosted)
    · obtain rfl := Option.some.inj (linked.symm.trans (upper parent hosted))
      exact shape.onPath above
  · intro parent hosted other marked
    have above := shape.onPath_iff.1 marked
    have different : other ≠ id := by
      rintro rfl
      obtain ⟨depth, grounded⟩ := walked.wellFormed.grounded other
      exact Tree.not_onPath_parent grounded (upper parent hosted) above
    rw [Tree.state_setState_of_ne different]
    exact walked.opened id rfl other (.step (upper parent hosted) above)
  · intro other below apart
    by_cases same : other = id
    · rw [same, Tree.state_setState_self present]
      exact .inr rfl
    · rw [Tree.state_setState_of_ne same]
      refine walked.others other (shape.onPath_iff.1 below) fun parent hosted above => ?_
      obtain rfl := Option.some.inj hosted
      rcases Tree.onPath_iff.1 above with equal | ⟨parent, linked, above⟩
      · exact same equal
      · exact apart parent (next.parent.symm.trans linked) (shape.onPath above)
  · intro other reachesOther done child member
    rw [shape.children] at member
    have below := shape.onPath_iff.1 reachesOther
    have settledChild : (tree.node child).state = .settled := by
      by_cases same : other = id
      · exact settled child (same ▸ member)
      · rw [Tree.state_setState_of_ne same] at done
        exact walked.closed other below done child member
    have different : child ≠ id := by
      rintro rfl
      exact isOpen.2 settledChild
    rw [Tree.state_setState_of_ne different]
    exact settledChild

end Walk
end HtmlTemplate
