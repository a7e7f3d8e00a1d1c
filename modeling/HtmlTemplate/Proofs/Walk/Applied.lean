import HtmlTemplate.Proofs.Walk.Walked

/-!
# Confined changes during a walk

What a confined change of the node that is visited does to a tree in the middle of a walk: the walk is
still at the node if it stays, and at the children of its host again if another node takes its place or
none does.
-/

namespace HtmlTemplate
namespace Walk

/-- A confined change was made to the node that the walk is at. -/
structure Applied (root : NodeId) (host : Option NodeId) (front : List NodeId) (id : NodeId) (before : Tree)
    (outcome : Outcome) (after : Tree) : Prop where
  walked : Walked root (some id) before
  next : Next host front id before
  present : before.Has id
  sound : after.WellFormed
  grows : before.Grows after
  confined : before.Confined id outcome after

/-- The siblings before a node begin with the first children if the node is not among these. -/
theorem Next.isPrefix_preceding {host id : NodeId} {front : List NodeId} {tree : Tree}
    (next : Next (some host) front id tree) : front <+: tree.preceding id := by
  obtain ⟨rest, split⟩ := next.first host rfl
  rw [Tree.preceding, next.parent]
  dsimp only
  rw [← split, List.takeWhile_append_of_pos]
  · exact List.prefix_append _ _
  · intro other member
    rw [bne_iff_ne]
    rintro rfl
    exact next.behind member

namespace Applied

variable {root id other : NodeId} {host : Option NodeId} {front : List NodeId} {before after : Tree}
variable {outcome : Outcome}

/-! ## Where the change is -/

theorem reaches (applied : Applied root host front id before outcome after) : before.OnPath root id :=
  applied.walked.reached id rfl

theorem host_reached {parent : NodeId} (applied : Applied root (some parent) front id before outcome after) :
    before.OnPath root parent := by
  rcases Tree.onPath_iff.1 applied.reaches with rfl | ⟨upper, linked, above⟩
  · cases applied.walked.top.symm.trans applied.next.parent
  · obtain rfl := Option.some.inj (linked.symm.trans applied.next.parent)
    exact above

theorem under_of_around (applied : Applied root host front id before outcome after)
    (around : before.Around id other) : Under root before host other := by
  obtain ⟨top, rfl | ⟨parent, linked, sibling⟩, onPath⟩ := around
  · have under := applied.next.under applied.reaches
    cases host with
    | none => exact under.trans onPath
    | some host => exact ⟨top, applied.next.parent, onPath⟩
  · cases host with
    | none => cases applied.next.parent.symm.trans linked
    | some host =>
        obtain rfl := Option.some.inj (applied.next.parent.symm.trans linked)
        exact ⟨top, sibling, onPath⟩

/-- Nodes that are not under the host keep their parents. -/
theorem parent_eq (applied : Applied root host front id before outcome after) (present : before.Has other)
    (apart : ¬Under root before host other) : after.parent other = before.parent other :=
  applied.confined.parent other present fun around => apart (applied.under_of_around around)

/-- What was there is reached after the change only if it was reached before. -/
theorem reaches_of_reaches (applied : Applied root host front id before outcome after)
    (present : before.Has other) (onPath : after.OnPath root other) :
    before.OnPath root other := by
  by_cases under : Under root before host other
  · cases host with
    | none => exact under
    | some host =>
        obtain ⟨child, linked, below⟩ := under
        exact (Tree.OnPath.step linked applied.host_reached).trans below
  · exact (Tree.OnPath.of_outside applied.walked.wellFormed (fun _ _ => Under.of_parent)
      (fun _ => applied.parent_eq) onPath present under).1

/-! ## The host -/

/-- The nodes above the host are the same as before. -/
theorem above_host_iff {parent : NodeId} (applied : Applied root (some parent) front id before outcome after) :
    after.OnPath other parent ↔ before.OnPath other parent := by
  have wellFormed := applied.walked.wellFormed
  have present := wellFormed.has_parent applied.next.parent
  have apart : ¬Under root before (some parent) parent := not_under_of_onPath wellFormed .self
  constructor
  · intro onPath
    exact (Tree.OnPath.of_outside wellFormed (fun _ _ => Under.of_parent) (fun _ => applied.parent_eq)
      onPath present apart).1
  · intro onPath
    exact Tree.OnPath.keep_outside wellFormed (fun _ _ => Under.of_parent) (fun _ => applied.parent_eq)
      onPath present apart

/-- The nodes above the host are open. -/
theorem opened {parent : NodeId} (applied : Applied root (some parent) front id before outcome after)
    (above : after.OnPath other parent) : other ≠ id ∧ IsOpen (after.node other).state := by
  have earlier := applied.above_host_iff.1 above
  have wellFormed := applied.walked.wellFormed
  constructor
  · rintro rfl
    obtain ⟨depth, grounded⟩ := wellFormed.grounded other
    exact Tree.not_onPath_parent grounded applied.next.parent earlier
  · rw [applied.grows.state_of_has other
      (wellFormed.has_of_onPath earlier (wellFormed.has_parent applied.next.parent))]
    exact applied.walked.opened id rfl other (.step applied.next.parent earlier)

/-- The root stays the root. -/
theorem top {parent : NodeId} (applied : Applied root (some parent) front id before outcome after) :
    after.parent root = none := by
  have wellFormed := applied.walked.wellFormed
  have reached := applied.host_reached
  have present := wellFormed.has_of_onPath reached (wellFormed.has_parent applied.next.parent)
  rw [applied.parent_eq present (not_under_of_onPath wellFormed reached), applied.walked.top]

/-! ## States -/

/-- What is reached has been visited or not, unless it is the node or above it. -/
theorem others (applied : Applied root host front id before outcome after)
    (onPath : after.OnPath root other)
    (apart : ¬before.OnPath other id) :
    (after.node other).state = .unvisited ∨ (after.node other).state = .settled := by
  by_cases present : before.Has other
  · rw [applied.grows.state_of_has other present]
    refine applied.walked.others other (applied.reaches_of_reaches present onPath) ?_
    intro parent hosted
    exact Option.some.inj hosted ▸ apart
  · exact .inl (applied.grows.unvisited other present)

theorem closed (applied : Applied root host front id before outcome after)
    (onPath : after.OnPath root other)
    (settled : (after.node other).state = .settled) {child : NodeId} (member : child ∈ after.children other) :
    (after.node child).state = .settled := by
  have present : before.Has other := by
    by_contra absent
    rw [applied.grows.unvisited other absent] at settled
    cases settled
  rw [applied.grows.state_of_has other present] at settled
  rcases applied.confined.settled other present settled child member with old | done
  · rw [applied.grows.state_of_has child (applied.walked.wellFormed.has_child old)]
    exact applied.walked.closed other (applied.reaches_of_reaches present onPath) settled child old
  · exact done

/-- The node is still open. -/
theorem isOpen (applied : Applied root host front id before outcome after) :
    after.Has id ∧ IsOpen (after.node id).state := by
  refine ⟨applied.grows.has applied.present, ?_⟩
  rw [applied.grows.state_of_has id applied.present]
  exact applied.walked.opened id rfl id .self

/-! ## What stays -/

theorem front_prefix {parent : NodeId} (applied : Applied root (some parent) front id before outcome after) :
    front <+: after.children parent :=
  applied.next.isPrefix_preceding.trans (applied.confined.preceding parent applied.next.parent)

theorem held (applied : Applied root host front id before outcome after) :
    Held root host front before after := by
  refine ⟨applied.grows.size_le, fun _ => applied.parent_eq, fun other present _ =>
    applied.grows.state_of_has other present, ?_, ?_⟩
  · intro other present apart different
    refine applied.confined.children other present (fun around => apart (applied.under_of_around around)) ?_
    rwa [applied.next.parent]
  · intro parent hosted other member
    subst hosted
    have linked := (applied.walked.wellFormed.linked parent other).1
      ((applied.next.first parent rfl).subset member)
    exact applied.grows.state_of_has other (Tree.has_of_parent linked)

theorem held_setState (applied : Applied root host front id before outcome after) (mark : WalkState) :
    Held root host front before (after.setState id mark) :=
  applied.held.mark (applied.next.under applied.reaches) applied.next.behind mark

/-! ## The walk goes on -/

/-- The walk is still at a node that stays in its place. -/
theorem stays (applied : Applied root host front id before outcome after)
    (linked : after.parent id = before.parent id) :
    Walked root (some id) after ∧ Next host front id after := by
  have wellFormed := applied.walked.wellFormed
  -- Nodes on the path to the node are the node, and those above the host.
  have above : ∀ other, after.OnPath other id ↔ before.OnPath other id := by
    intro other
    rw [@Tree.onPath_iff after, @Tree.onPath_iff before, linked]
    cases host with
    | none => simp [applied.next.parent]
    | some host => simp [applied.next.parent, applied.above_host_iff]
  have top : after.parent root = none := by
    cases host with
    | none =>
        obtain rfl := Tree.onPath_of_root applied.next.parent applied.reaches
        rw [linked, applied.walked.top]
    | some host => exact applied.top
  refine ⟨⟨applied.sound, top, ?_, ?_, ?_, ?_⟩, ?_, applied.next.behind, ?_⟩
  · intro parent hosted
    exact Option.some.inj hosted ▸ (above root).2 applied.reaches
  · intro parent hosted other upper
    obtain rfl := Option.some.inj hosted
    have earlier := (above other).1 upper
    rw [applied.grows.state_of_has other (wellFormed.has_of_onPath earlier applied.present)]
    exact applied.walked.opened id rfl other earlier
  · intro other below apart
    exact applied.others below fun upper => apart id rfl ((above other).2 upper)
  · exact fun other below settled child member => applied.closed below settled member
  · rw [linked, applied.next.parent]
  · rintro parent rfl
    exact applied.front_prefix

/-- The walk is at the children of the host again when the node is put aside, or is not reached any more. -/
theorem goes {parent : NodeId} (applied : Applied root (some parent) front id before outcome after)
    {mark : WalkState} (aside : after.OnPath root id → mark = .unvisited) :
    Walked root (some parent) (after.setState id mark) := by
  have shape := after.sameShape_setState id mark
  refine ⟨shape.wellFormed applied.sound, (shape.parent root).trans applied.top, ?_, ?_, ?_, ?_⟩
  · intro other hosted
    obtain rfl := Option.some.inj hosted
    exact shape.onPath (applied.above_host_iff.2 applied.host_reached)
  · intro other hosted upper above
    obtain rfl := Option.some.inj hosted
    obtain ⟨different, isOpen⟩ := applied.opened (shape.onPath_iff.1 above)
    rwa [Tree.state_setState_of_ne different]
  · intro other marked apart
    have below := shape.onPath_iff.1 marked
    by_cases same : other = id
    · subst same
      rw [Tree.state_setState_self applied.isOpen.1, aside below]
      exact .inl rfl
    · rw [Tree.state_setState_of_ne same]
      refine applied.others below fun upper => ?_
      rcases Tree.onPath_iff.1 upper with equal | ⟨host, linked, above⟩
      · exact same equal
      · obtain rfl := Option.some.inj (linked.symm.trans applied.next.parent)
        exact apart host rfl (shape.onPath (applied.above_host_iff.2 above))
  · intro other marked settled child member
    rw [shape.children] at member
    have below := shape.onPath_iff.1 marked
    have different : other ≠ id := by
      rintro rfl
      rw [Tree.state_setState_self applied.isOpen.1, aside below] at settled
      cases settled
    rw [Tree.state_setState_of_ne different] at settled
    have done := applied.closed below settled member
    have kept : child ≠ id := by
      rintro rfl
      exact applied.isOpen.2.2 done
    rwa [Tree.state_setState_of_ne kept]

end Applied
end Walk
end HtmlTemplate
