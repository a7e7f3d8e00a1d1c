import HtmlTemplate.Proofs.Desugaring.Form
import HtmlTemplate.Proofs.Tree.Rewiring
import HtmlTemplate.Proofs.Walk.Walked

/-!
# What a rewriting spares

Rewriting the children of a node behind the first ones of them changes these children and what is below
them, and nothing else. What is shown elsewhere stays.
-/

namespace HtmlTemplate

namespace Tree

/-- The node is below a child of the host, or is one, and the child is none of the first ones. -/
def Beyond (tree : Tree) (host : NodeId) (front : List NodeId) (id : NodeId) : Prop :=
  ∃ top, tree.parent top = some host ∧ top ∉ front ∧ tree.OnPath top id

/-- Only nodes beyond the first children of the host differ, and which children the host has. -/
structure Spares (before : Tree) (host : NodeId) (front : List NodeId) (after : Tree) : Prop where
  size_le : before.size ≤ after.size
  owner : after.node host = { before.node host with children := after.children host }
  node : ∀ id, before.Has id → ¬before.Beyond host front id → id ≠ host → after.node id = before.node id

/-- The node and all that is below it are neither beyond the first children of the host nor the host. -/
def Clear (tree : Tree) (host : NodeId) (front : List NodeId) (id : NodeId) : Prop :=
  ∀ other, tree.OnPath id other → ¬tree.Beyond host front other ∧ other ≠ host

variable {tree before middle after : Tree} {host parent id other : NodeId} {front more : List NodeId}
variable {limit : Nat} {form : Form}

/-! ## Beyond the first children -/

theorem beyond_of_child (linked : tree.parent id = some host) (behind : id ∉ front) :
    tree.Beyond host front id :=
  ⟨id, linked, behind, .self⟩

theorem Beyond.step (linked : tree.parent id = some parent) (beyond : tree.Beyond host front parent) :
    tree.Beyond host front id := by
  obtain ⟨top, below, behind, onPath⟩ := beyond
  exact ⟨top, below, behind, .step linked onPath⟩

theorem Beyond.mono (beyond : tree.Beyond host more id) (subset : front ⊆ more) : tree.Beyond host front id := by
  obtain ⟨top, below, behind, onPath⟩ := beyond
  exact ⟨top, below, fun member => behind (subset member), onPath⟩

/-- What is beyond a node is beyond the first children of its parent, if the node is none of these. -/
theorem Beyond.narrow (beyond : tree.Beyond id [] other) (linked : tree.parent id = some host)
    (behind : id ∉ front) : tree.Beyond host front other := by
  obtain ⟨top, below, -, onPath⟩ := beyond
  exact ⟨id, linked, behind, (OnPath.step below .self).trans onPath⟩

/-- The host and what is above it are not beyond its children. -/
theorem WellFormed.not_beyond_of_onPath (wellFormed : tree.WellFormed) (above : tree.OnPath id host) :
    ¬tree.Beyond host front id := by
  rintro ⟨top, linked, -, onPath⟩
  obtain ⟨depth, grounded⟩ := wellFormed.grounded top
  exact not_onPath_parent grounded linked (onPath.trans above)

theorem WellFormed.ne_of_beyond (wellFormed : tree.WellFormed) (beyond : tree.Beyond host front id) :
    id ≠ host := by
  intro same
  rw [same] at beyond
  exact wellFormed.not_beyond_of_onPath .self beyond

theorem Beyond.has (beyond : tree.Beyond host front id) : tree.Has id := by
  obtain ⟨top, linked, -, onPath⟩ := beyond
  rcases onPath_iff.1 onPath with rfl | ⟨parent, upper, -⟩
  · exact has_of_parent linked
  · exact has_of_parent upper

/-! ## Composition -/

namespace Spares

theorem refl (tree : Tree) (host : NodeId) (front : List NodeId) : tree.Spares host front tree :=
  ⟨Nat.le_refl _, rfl, fun _ _ _ _ => rfl⟩

theorem has (spares : before.Spares host front after) (present : before.Has id) : after.Has id :=
  Nat.lt_of_lt_of_le present spares.size_le

theorem parent_eq (spares : before.Spares host front after) (present : before.Has id)
    (outside : ¬before.Beyond host front id) : after.parent id = before.parent id := by
  by_cases same : id = host
  · rw [same, Tree.parent, spares.owner, Tree.parent]
  · rw [Tree.parent, spares.node id present outside same, Tree.parent]

/-- Nodes that were there come from beyond the first children if they are beyond them now. -/
theorem beyond_of_beyond (spares : before.Spares host front after) (wellFormed : before.WellFormed)
    (present : before.Has id) (beyond : after.Beyond host front id) : before.Beyond host front id := by
  by_contra outside
  obtain ⟨top, linked, behind, onPath⟩ := beyond
  obtain ⟨-, hasTop, apart⟩ := OnPath.of_outside wellFormed (fun _ _ => Beyond.step)
    (fun _ => spares.parent_eq) onPath present outside
  rw [spares.parent_eq hasTop apart] at linked
  exact apart (beyond_of_child linked behind)

theorem trans (first : before.Spares host front middle) (wellFormed : before.WellFormed)
    (second : middle.Spares host front after) : before.Spares host front after where
  size_le := Nat.le_trans first.size_le second.size_le
  owner := by
    rw [second.owner, first.owner]
  node id present outside different := by
    have apart : ¬middle.Beyond host front id := fun beyond =>
      outside (first.beyond_of_beyond wellFormed present beyond)
    rw [second.node id (first.has present) apart different, first.node id present outside different]

theorem mono (spares : before.Spares host more after) (subset : front ⊆ more) :
    before.Spares host front after where
  size_le := spares.size_le
  owner := spares.owner
  node id present outside := spares.node id present fun beyond => outside (beyond.mono subset)

/-- What is changed below a node is changed beyond the first children of its parent. -/
theorem narrow (spares : before.Spares id [] after) (wellFormed : before.WellFormed)
    (linked : before.parent id = some host) (behind : id ∉ front) : before.Spares host front after := by
  have apart : host ≠ id := fun same => by
    subst same
    obtain ⟨depth, grounded⟩ := wellFormed.grounded host
    exact not_onPath_parent grounded linked .self
  have above : before.OnPath host id := .step linked .self
  have kept := spares.node host (wellFormed.has_parent linked) (wellFormed.not_beyond_of_onPath above) apart
  refine ⟨spares.size_le, ?_, ?_⟩
  · rw [Tree.children, kept]
  · intro other present outside different
    refine spares.node other present (fun beyond => outside (beyond.narrow linked behind)) ?_
    intro same
    exact outside (same ▸ beyond_of_child linked behind)

end Spares

/-- What is beyond the first children has a parent. -/
theorem Beyond.attached (beyond : tree.Beyond host front id) : tree.parent id ≠ none := by
  obtain ⟨top, linked, -, onPath⟩ := beyond
  rcases onPath_iff.1 onPath with rfl | ⟨parent, below, -⟩
  · rw [linked]
    exact Option.some_ne_none host
  · rw [below]
    exact Option.some_ne_none parent

/-- A change of a node beyond the first children spares the rest. -/
theorem WellFormed.spares_update (wellFormed : tree.WellFormed) (beyond : tree.Beyond host front id)
    (change : Node → Node) : tree.Spares host front (tree.update id change) := by
  have different := (wellFormed.ne_of_beyond beyond).symm
  refine ⟨Nat.le_of_eq (size_update _ _ _).symm, ?_, ?_⟩
  · rw [Tree.children, node_update_of_ne different]
  · intro other _ outside _
    rw [node_update_of_ne]
    intro same
    exact outside (same ▸ beyond)

/-! ## What is clear of a change -/

theorem OnPath.has (onPath : tree.OnPath id other) (present : tree.Has id) : tree.Has other := by
  rcases onPath_iff.1 onPath with same | ⟨parent, linked, -⟩
  · exact same ▸ present
  · exact has_of_parent linked

/-- The first children are clear of what is beyond them. -/
theorem WellFormed.clear_of_mem (wellFormed : tree.WellFormed) (linked : tree.parent id = some host)
    (member : id ∈ front) : tree.Clear host front id := by
  intro other onPath
  constructor
  · rintro ⟨top, sibling, behind, above⟩
    have same := wellFormed.eq_of_onPath_of_siblings linked sibling onPath above
    exact behind (same ▸ member)
  · intro same
    obtain ⟨depth, grounded⟩ := wellFormed.grounded id
    exact not_onPath_parent grounded linked (same ▸ onPath)

namespace Spares

theorem node_of_clear (spares : before.Spares host front after) (clear : before.Clear host front id)
    (present : before.Has id) (onPath : before.OnPath id other) :
    after.node other = before.node other :=
  spares.node other (onPath.has present) (clear other onPath).1 (clear other onPath).2

/-- The first children stay as they are. -/
theorem node_of_first (spares : before.Spares host front after) (wellFormed : before.WellFormed)
    (linked : before.parent id = some host) (first : id ∈ front) : after.node id = before.node id :=
  spares.node_of_clear (wellFormed.clear_of_mem linked first) (has_of_parent linked) .self

/-- What is shown clear of a change stays. -/
theorem shows (spares : before.Spares host front after) (wellFormed : before.WellFormed)
    (clear : before.Clear host front id) (present : before.Has id) (shown : before.Shows limit form id) :
    after.Shows limit form id := by
  have same := fun other (onPath : before.OnPath id other) => spares.node_of_clear clear present onPath
  refine shown.of_region (fun other => before.OnPath id other) ?_ ?_ ?_ ?_ .self
  · intro other onPath
    rw [Tree.kind, same other onPath, Tree.kind]
  · intro other onPath
    rw [same other onPath]
  · intro other onPath
    rw [Tree.children, same other onPath, Tree.children]
  · intro other onPath child member
    exact .step ((wellFormed.linked other child).1 member) onPath

/-- Below a node that is clear of a change there is what was there. -/
theorem onPath_of_clear (spares : before.Spares host front after) (wellFormed : before.WellFormed)
    (sound : after.WellFormed) (clear : before.Clear host front id) (present : before.Has id)
    (onPath : after.OnPath id other) : before.OnPath id other := by
  induction onPath with
  | self => exact .self
  | @step other parent linked _ hypothesis =>
      have member := (sound.linked parent other).2 linked
      rw [Tree.children, spares.node_of_clear clear present hypothesis] at member
      exact .step ((wellFormed.linked parent other).1 member) hypothesis

end Spares

end Tree

/-!
## Trees in the middle of an edit

While a control tag is turned into the construct that it stands for, nodes are made, taken out of their
lists and put into others. All of them are new or come from beyond the first children of one host, so the
rest of the tree is spared, and the siblings behind the tag go on showing what they showed.
-/

namespace Tree

/-- The node is a new one, or comes from beyond the first children of the host. -/
def Free (before : Tree) (host : NodeId) (front : List NodeId) (id : NodeId) : Prop :=
  before.Has id → before.Beyond host front id

/-- Edits of links have spared all but what is beyond the first children of the host, and made only nodes
that no tag is looked up for. -/
structure Worked (before : Tree) (host : NodeId) (front : List NodeId) (after : Tree) : Prop
    extends before.Spares host front after where
  reaches : before.Reaches after
  kind : ∀ id, before.Has id → after.kind id = before.kind id
  attributes : ∀ id, before.Has id → (after.node id).attributes = (before.node id).attributes
  untagged : ∀ id, ¬before.Has id → (after.kind id).tag? = none

/-- The siblings behind a node of the host show forms, in the middle of an edit. -/
structure Bench (before : Tree) (limit : Nat) (host : NodeId) (front : List NodeId) (forms : List Form)
    (id : NodeId) (row : List NodeId) (tree : Tree) : Prop where
  sound : before.WellFormed
  bounded : limit ≤ before.size
  present : before.Has host
  worked : before.Worked host front tree
  listed : tree.children host = front ++ id :: row
  others : List.Forall₂ (tree.Shows limit) forms row

/-- A node without a parent that shows a form, in the middle of an edit. -/
structure Stray (before : Tree) (limit : Nat) (host : NodeId) (front : List NodeId) (tree : Tree) (form : Form)
    (id : NodeId) : Prop where
  present : tree.Has id
  detached : tree.parent id = none
  shown : tree.Shows limit form id
  free : before.Free host front id

variable {tree before middle after : Tree} {host parent id other top : NodeId}
variable {front row owners moved : List NodeId} {limit : Nat} {form : Form} {forms : List Form}

/-! ### What edits of links show -/

theorem Extends.shows (extension : before.Extends after) (wellFormed : before.WellFormed) (present : before.Has id)
    (shown : before.Shows limit form id) : after.Shows limit form id := by
  refine shown.of_region (fun other => before.Has other) ?_ ?_ ?_ ?_ present
  · intro other present
    rw [Tree.kind, extension.node_of_has other present, Tree.kind]
  · intro other present
    rw [extension.node_of_has other present]
  · intro other present
    rw [Tree.children, extension.node_of_has other present, Tree.children]
  · exact fun other _ child member => wellFormed.has_child member

theorem Extends.shows_children (extension : before.Extends after) (wellFormed : before.WellFormed)
    (present : before.Has id) (shown : List.Forall₂ (before.Shows limit) forms (before.children id)) :
    List.Forall₂ (after.Shows limit) forms (after.children id) := by
  rw [Tree.children, extension.node_of_has id present]
  refine forall₂_imp_of_mem shown fun form _ child member shows => ?_
  exact extension.shows wellFormed (wellFormed.has_child member) shows

/-- What is shown by a node that is above no owner stays. -/
theorem Relinked.shows (relinked : before.Relinked owners moved after) (wellFormed : before.WellFormed)
    (apart : ∀ owner ∈ owners, ¬before.OnPath id owner) (shown : before.Shows limit form id) :
    after.Shows limit form id := by
  refine shown.of_region (fun other => before.OnPath id other) ?_ ?_ ?_ ?_ .self
  · exact fun other _ => relinked.kind other
  · exact fun other _ => relinked.attributes other
  · exact fun other onPath => relinked.children other fun member => apart other member onPath
  · exact fun other onPath child member => .step ((wellFormed.linked other child).1 member) onPath

/-- At most one node without a parent is above a node. -/
theorem eq_of_roots {first second : NodeId} (left : tree.parent first = none) (right : tree.parent second = none)
    (above : tree.OnPath first id) (upper : tree.OnPath second id) : first = second := by
  rcases above.comparable upper with onPath | onPath
  · exact onPath_of_root right onPath
  · exact (onPath_of_root left onPath).symm

/-! ### Free nodes -/

theorem Worked.refl (tree : Tree) (host : NodeId) (front : List NodeId) : tree.Worked host front tree where
  toSpares := .refl tree host front
  reaches := .refl
  kind _ _ := rfl
  attributes _ _ := rfl
  untagged id absent := by
    rw [kind_of_not_has absent]
    rfl

/-- A free node is not above the host. -/
theorem Worked.not_above (worked : before.Worked host front after) (sound : before.WellFormed)
    (present : before.Has host) (free : before.Free host front id) : ¬after.OnPath id host := by
  intro above
  obtain ⟨-, hasId, apart⟩ := OnPath.of_outside sound (fun _ _ => Beyond.step) (fun _ => worked.parent_eq) above
    present (sound.not_beyond_of_onPath .self)
  exact apart (free hasId)

theorem Worked.free_of_child (worked : before.Worked host front after) (sound : before.WellFormed)
    (linked : after.parent id = some parent) (free : before.Free host front parent) :
    before.Free host front id := by
  intro present
  by_contra outside
  rw [worked.parent_eq present outside] at linked
  exact outside (.step linked (free (sound.has_parent linked)))

theorem Worked.free_of_onPath (worked : before.Worked host front after) (sound : before.WellFormed)
    (free : before.Free host front top) (onPath : after.OnPath top id) : before.Free host front id := by
  induction onPath with
  | self => exact free
  | step linked _ hypothesis => exact worked.free_of_child sound linked hypothesis

theorem Worked.free_of_host (worked : before.Worked host front after)
    (linked : after.parent id = some host) (behind : id ∉ front) : before.Free host front id := by
  intro present
  by_contra outside
  rw [worked.parent_eq present outside] at linked
  exact outside (beyond_of_child linked behind)

/-! ### Steps of an edit -/

theorem Worked.grown (worked : before.Worked host front middle) (present : before.Has host)
    (reaches : middle.Reaches after) (extension : middle.Extends after)
    (untagged : ∀ id, ¬middle.Has id → (after.kind id).tag? = none) : before.Worked host front after where
  size_le := Nat.le_trans worked.size_le extension.size_le
  owner := by
    rw [Tree.children, extension.node_of_has host (worked.has present), worked.owner]
  node id hasId outside different := by
    rw [extension.node_of_has id (worked.has hasId), worked.node id hasId outside different]
  reaches := worked.reaches.trans reaches
  kind id hasId := by
    rw [Tree.kind, extension.node_of_has id (worked.has hasId), ← Tree.kind, worked.kind id hasId]
  attributes id hasId := by
    rw [extension.node_of_has id (worked.has hasId), worked.attributes id hasId]
  untagged id absent := by
    by_cases made : middle.Has id
    · rw [Tree.kind, extension.node_of_has id made, ← Tree.kind]
      exact worked.untagged id absent
    · exact untagged id made

theorem Worked.relinked (worked : before.Worked host front middle) (sound : before.WellFormed)
    (present : before.Has host) (reaches : middle.Reaches after) (relinked : middle.Relinked owners moved after)
    (owned : ∀ owner ∈ owners, owner = host ∨ before.Free host front owner)
    (freed : ∀ other ∈ moved, before.Free host front other) : before.Worked host front after where
  size_le := Nat.le_trans worked.size_le (Nat.le_of_eq relinked.size.symm)
  owner := by
    have outside : host ∉ moved := fun member => sound.not_beyond_of_onPath .self (freed host member present)
    rw [relinked.node host outside, worked.owner]
  node id hasId outside different := by
    have unmoved : id ∉ moved := fun member => outside (freed id member hasId)
    have unowned : id ∉ owners := by
      intro member
      rcases owned id member with same | free
      · exact different same
      · exact outside (free hasId)
    rw [relinked.node id unmoved, relinked.children id unowned, Tree.children,
      worked.node id hasId outside different]
  reaches := worked.reaches.trans reaches
  kind id hasId := (relinked.kind id).trans (worked.kind id hasId)
  attributes id hasId := (relinked.attributes id).trans (worked.attributes id hasId)
  untagged id absent := by
    rw [relinked.kind id]
    exact worked.untagged id absent

namespace Bench

theorem wellFormed (bench : Bench before limit host front forms id row tree) : tree.WellFormed :=
  bench.worked.reaches.wellFormed bench.sound

theorem mem_children (bench : Bench before limit host front forms id row tree) (member : other ∈ id :: row) :
    tree.parent other = some host ∧ other ∉ front := by
  have distinct := bench.wellFormed.nodup host
  rw [bench.listed] at distinct
  constructor
  · rw [← bench.wellFormed.linked, bench.listed]
    exact List.mem_append_right _ member
  · exact fun first => (List.disjoint_of_nodup_append distinct) first member

theorem free (bench : Bench before limit host front forms id row tree) (member : other ∈ id :: row) :
    before.Free host front other := by
  obtain ⟨linked, behind⟩ := bench.mem_children member
  exact bench.worked.free_of_host linked behind

theorem not_above (bench : Bench before limit host front forms id row tree) (free : before.Free host front other) :
    ¬tree.OnPath other host :=
  bench.worked.not_above bench.sound bench.present free

/-- What hangs below a free node without a parent is free, and the host is not above it. -/
theorem loose (bench : Bench before limit host front forms id row tree) (detached : tree.parent top = none)
    (free : before.Free host front top) (onPath : tree.OnPath top other) :
    before.Free host front other ∧ ¬tree.OnPath host other := by
  refine ⟨bench.worked.free_of_onPath bench.sound free onPath, fun above => ?_⟩
  rcases above.comparable onPath with upper | upper
  · have same := onPath_of_root detached upper
    exact bench.not_above free (same ▸ .self)
  · exact bench.not_above free upper

theorem grown (bench : Bench before limit host front forms id row tree) (reaches : tree.Reaches after)
    (extension : tree.Extends after) (untagged : ∀ id, ¬tree.Has id → (after.kind id).tag? = none) :
    Bench before limit host front forms id row after where
  sound := bench.sound
  bounded := bench.bounded
  present := bench.present
  worked := bench.worked.grown bench.present reaches extension untagged
  listed := by
    rw [Tree.children, extension.node_of_has host (bench.worked.has bench.present), ← Tree.children, bench.listed]
  others := by
    refine forall₂_imp_of_mem bench.others fun form _ other member shown => ?_
    have linked := (bench.mem_children (List.mem_cons_of_mem id member)).1
    exact extension.shows bench.wellFormed (has_of_parent linked) shown

/-- Edits of links below the node on the bench, or where its host is not above. -/
theorem relinked (bench : Bench before limit host front forms id row tree) (reaches : tree.Reaches after)
    (relinked : tree.Relinked owners moved after)
    (owned : ∀ owner ∈ owners, before.Free host front owner ∧ (tree.OnPath id owner ∨ ¬tree.OnPath host owner))
    (freed : ∀ other ∈ moved, before.Free host front other) :
    Bench before limit host front forms id row after where
  sound := bench.sound
  bounded := bench.bounded
  present := bench.present
  worked := bench.worked.relinked bench.sound bench.present reaches relinked
    (fun owner member => .inr (owned owner member).1) freed
  listed := by
    have outside : host ∉ owners := fun member =>
      bench.sound.not_beyond_of_onPath .self ((owned host member).1 bench.present)
    rw [relinked.children host outside, bench.listed]
  others := by
    have distinct := bench.wellFormed.nodup host
    rw [bench.listed] at distinct
    have apart := (List.nodup_cons.1 distinct.of_append_right).1
    refine forall₂_imp_of_mem bench.others fun form _ other member shown => ?_
    have linked := (bench.mem_children (List.mem_cons_of_mem id member)).1
    have sibling := (bench.mem_children List.mem_cons_self).1
    refine relinked.shows bench.wellFormed (fun owner among above => ?_) shown
    rcases (owned owner among).2 with below | outside
    · have same := bench.wellFormed.eq_of_onPath_of_siblings linked sibling above below
      exact apart (same ▸ member)
    · exact outside ((OnPath.step linked .self).trans above)

end Bench

/-! ### Nodes without parents -/

namespace Stray

theorem grown (stray : Stray before limit host front tree form id) (wellFormed : tree.WellFormed)
    (extension : tree.Extends after) : Stray before limit host front after form id where
  present := extension.has stray.present
  detached := by
    rw [Tree.parent, extension.node_of_has id stray.present, ← Tree.parent, stray.detached]
  shown := extension.shows wellFormed stray.present stray.shown
  free := stray.free

theorem relinked (stray : Stray before limit host front tree form id) (wellFormed : tree.WellFormed)
    (relinked : tree.Relinked owners moved after) (apart : ∀ owner ∈ owners, ¬tree.OnPath id owner)
    (unmoved : id ∉ moved) : Stray before limit host front after form id where
  present := relinked.has_iff.2 stray.present
  detached := by
    rw [relinked.parent_eq unmoved, stray.detached]
  shown := relinked.shows wellFormed apart stray.shown
  free := stray.free

end Stray

end Tree

end HtmlTemplate
