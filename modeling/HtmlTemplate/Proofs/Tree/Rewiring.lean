import HtmlTemplate.Proofs.Tree.Reach

/-!
# Links node by node

For each edit of links, which nodes it touches, and in which order children stand afterwards. All other
nodes are the same nodes, whatever they hold.
-/

namespace HtmlTemplate
namespace Tree

/-- Only the children of the owners and the parents of the nodes that moved differ. -/
structure Relinked (before : Tree) (owners moved : List NodeId) (after : Tree) : Prop where
  size : after.size = before.size
  kind : ∀ id, after.kind id = before.kind id
  attributes : ∀ id, (after.node id).attributes = (before.node id).attributes
  node : ∀ id, id ∉ moved → after.node id = { before.node id with children := after.children id }
  children : ∀ id, id ∉ owners → after.children id = before.children id

variable {tree before middle after : Tree} {parent child id : NodeId}
variable {owners more moved others ids : List NodeId}

theorem node_setParents_of_notMem (parent : Option NodeId) (outside : id ∉ ids) :
    (tree.setParents parent ids).node id = tree.node id := by
  unfold setParents
  induction ids generalizing tree with
  | nil => rfl
  | cons first ids hypothesis =>
      rw [List.foldl_cons, hypothesis (List.not_mem_of_not_mem_cons outside), setParent,
        node_update_of_ne (List.ne_of_not_mem_cons outside)]

namespace Relinked

theorem refl (before : Tree) (owners moved : List NodeId) : before.Relinked owners moved before :=
  ⟨rfl, fun _ => rfl, fun _ => rfl, fun _ _ => rfl, fun _ _ => rfl⟩

theorem trans (first : before.Relinked owners moved middle) (second : middle.Relinked owners moved after) :
    before.Relinked owners moved after where
  size := second.size.trans first.size
  kind id := (second.kind id).trans (first.kind id)
  attributes id := (second.attributes id).trans (first.attributes id)
  node id outside := by
    rw [second.node id outside, first.node id outside]
  children id outside := (second.children id outside).trans (first.children id outside)

theorem mono (relinked : before.Relinked owners moved after) (subset : owners ⊆ more) (within : moved ⊆ others) :
    before.Relinked more others after where
  size := relinked.size
  kind := relinked.kind
  attributes := relinked.attributes
  node id outside := relinked.node id fun member => outside (within member)
  children id outside := relinked.children id fun member => outside (subset member)

theorem has_iff (relinked : before.Relinked owners moved after) : after.Has id ↔ before.Has id := by
  rw [Has, Has, relinked.size]

/-- Nodes that were not moved have their parents. -/
theorem parent_eq (relinked : before.Relinked owners moved after) (outside : id ∉ moved) :
    after.parent id = before.parent id := by
  rw [Tree.parent, relinked.node id outside, Tree.parent]

/-- A path that no moved node is on stays as it is. -/
theorem onPath (relinked : before.Relinked owners moved after) {top : NodeId}
    (apart : ∀ other ∈ moved, ¬before.OnPath other id) (onPath : after.OnPath top id) : before.OnPath top id := by
  induction onPath with
  | self => exact .self
  | @step id parent linked _ hypothesis =>
      rw [relinked.parent_eq fun member => apart id member .self] at linked
      exact .step linked (hypothesis fun other member upper => apart other member (.step linked upper))

end Relinked

theorem relinked_setChildren (before : Tree) (member : id ∈ owners) (list : List NodeId) :
    before.Relinked owners moved (before.setChildren id list) where
  size := by simp
  kind id := by simp
  attributes id := by simp
  node other _ := by
    by_cases same : other = id
    · subst same
      by_cases present : before.Has other
      · rw [children_setChildren_self _ present, setChildren, node_update_self present]
      · rw [children, node_of_not_has (by simpa using present), node_of_not_has present]
    · rw [children_setChildren_of_ne _ same, setChildren, node_update_of_ne same]
      rfl
  children other outside := by
    refine children_setChildren_of_ne _ ?_
    rintro rfl
    exact outside member

theorem relinked_setParent (before : Tree) (parent : Option NodeId) (member : id ∈ moved) :
    before.Relinked owners moved (before.setParent parent id) where
  size := by simp
  kind id := by simp
  attributes id := by simp
  node other outside := by
    rw [children_setParent, setParent, node_update_of_ne]
    · rfl
    · rintro rfl
      exact outside member
  children other _ := by simp

theorem relinked_setParents (before : Tree) (parent : Option NodeId) (subset : ids ⊆ moved) :
    before.Relinked owners moved (before.setParents parent ids) := by
  unfold setParents
  induction ids generalizing before with
  | nil => exact .refl before owners moved
  | cons id ids hypothesis =>
      have first : before.Relinked owners moved (before.setParent parent id) :=
        relinked_setParent before parent (subset List.mem_cons_self)
      exact first.trans (hypothesis _ fun other member => subset (List.mem_cons_of_mem id member))

/-! ## Edits -/

/-- Appending a detached node succeeds, unless it is above its new parent. -/
theorem exists_append (wellFormed : tree.WellFormed) (hasParent : tree.Has parent) (hasChild : tree.Has child)
    (container : (tree.kind parent).isContainer = true) (detached : tree.parent child = none)
    (apart : ¬tree.OnPath child parent) :
    ∃ after, tree.append parent child = .ok after ∧ tree.Edited after ∧ tree.Relinked [parent] [child] after ∧
      after.children parent = tree.children parent ++ [child] := by
  have made := (append_eq_ok_iff wellFormed).2 ⟨container, detached, apart, rfl⟩
  refine ⟨_, made, .append hasParent hasChild made, ?_, ?_⟩
  · exact (relinked_setParent tree _ (List.mem_singleton_self child)).trans
      (relinked_setChildren _ (List.mem_singleton_self parent) _)
  · exact children_setChildren_self _ (by simpa using hasParent)

/-- In a list without repetitions an element stands behind the front that is before it. -/
theorem WellFormed.indexOf?_of_split (wellFormed : tree.WellFormed) {front rest : List NodeId}
    (listed : tree.children parent = front ++ child :: rest) :
    tree.indexOf? parent child = some front.length := by
  rw [wellFormed.indexOf?_eq_some_iff, listed, List.getElem?_append_right (Nat.le_refl _)]
  simp

/-- Taking a child from its parent leaves the others in order. -/
theorem exists_remove (wellFormed : tree.WellFormed) {front rest : List NodeId}
    (listed : tree.children parent = front ++ child :: rest) :
    ∃ after, tree.remove parent child = .ok after ∧ tree.Edited after ∧ tree.Relinked [parent] [child] after ∧
      after.children parent = front ++ rest ∧ after.parent child = none := by
  have member : child ∈ tree.children parent := by
    rw [listed]
    simp
  have linked := (wellFormed.linked parent child).1 member
  have removed := remove_eq_ok_iff.2 ⟨_, wellFormed.indexOf?_of_split listed, rfl⟩
  refine ⟨_, removed, .remove removed, ?_, ?_, ?_⟩
  · exact (relinked_setChildren tree (List.mem_singleton_self parent) _).trans
      (relinked_setParent _ none (List.mem_singleton_self child))
  · rw [children_setParent, children_setChildren_self _ (has_of_mem_children member), listed]
    simp [List.eraseIdx_append_of_length_le]
  · exact parent_setParent_self _ (by simpa using has_of_parent linked)

/-- Detaching a child is taking it from the parent that it says it has. -/
theorem exists_detach (wellFormed : tree.WellFormed) {front rest : List NodeId}
    (listed : tree.children parent = front ++ child :: rest) :
    ∃ after, tree.detach child = .ok after ∧ tree.Edited after ∧ tree.Relinked [parent] [child] after ∧
      after.children parent = front ++ rest ∧ after.parent child = none := by
  obtain ⟨after, removed, -, taken⟩ := exists_remove wellFormed listed
  have linked := (wellFormed.linked parent child).1 (by rw [listed]; simp)
  have made : tree.detach child = .ok after := by
    unfold detach
    rw [linked]
    exact removed
  exact ⟨after, made, .detach made, taken⟩

/-- Putting a detached node in the place of a child leaves the others in order. -/
theorem exists_replace (wellFormed : tree.WellFormed) {front rest : List NodeId} {new : NodeId}
    (listed : tree.children parent = front ++ child :: rest) (hasNew : tree.Has new)
    (detached : tree.parent new = none) (apart : ¬tree.OnPath new parent) :
    ∃ after, tree.replace parent child new = .ok after ∧ tree.Edited after ∧
      tree.Relinked [parent] [child, new] after ∧ after.children parent = front ++ new :: rest ∧
      after.parent child = none ∧ after.parent new = some parent := by
  have member : child ∈ tree.children parent := by
    rw [listed]
    simp
  have made := (replace_eq_ok_iff wellFormed).2
    ⟨_, wellFormed.indexOf?_of_split listed, detached, apart, rfl⟩
  have linked := (wellFormed.linked parent child).1 member
  have different : child ≠ new := by
    rintro rfl
    cases detached.symm.trans linked
  refine ⟨_, made, .replace hasNew made, ?_, ?_, ?_, ?_⟩
  · refine ((relinked_setChildren tree (List.mem_singleton_self parent) _).trans
      (relinked_setParent _ none ?_)).trans (relinked_setParent _ (some parent) ?_)
    · simp
    · simp
  · rw [children_setParent, children_setParent, children_setChildren_self _ (has_of_mem_children member), listed]
    simp
  · rw [parent_setParent_of_ne _ different]
    exact parent_setParent_self _ (by simpa using has_of_parent linked)
  · exact parent_setParent_self _ (by simpa using hasNew)

/-- Taking all children from a node. -/
theorem relinked_takeChildren (tree : Tree) (id : NodeId) :
    tree.Relinked [id] (tree.children id) (tree.takeChildren id).2 ∧ (tree.takeChildren id).2.children id = [] := by
  constructor
  · exact (relinked_setChildren tree (List.mem_singleton_self id) _).trans
      (relinked_setParents _ none fun _ member => member)
  · by_cases present : tree.Has id
    · rw [takeChildren, children_setParents, children_setChildren_self _ present]
    · rw [children, node_of_not_has]
      · rfl
      · simpa [takeChildren] using present

theorem WellFormed.parent_takeChildren (wellFormed : tree.WellFormed) (member : child ∈ tree.children id) :
    (tree.takeChildren id).2.parent child = none :=
  parent_setParents_of_mem none member (by simpa using wellFormed.has_child member)

/-! ## New nodes -/

/-- The node has a kind and links, and no attributes. -/
structure IsConstruct (tree : Tree) (id : NodeId) (kind : Kind) (kids : List NodeId) (parent : Option NodeId) :
    Prop where
  present : tree.Has id
  kind : tree.kind id = kind
  attributes : (tree.node id).attributes = []
  children : tree.children id = kids
  parent : tree.parent id = parent

namespace IsConstruct

variable {kind : Kind} {kids : List NodeId} {above : Option NodeId}

theorem grown (construct : before.IsConstruct id kind kids above) (extension : before.Extends after) :
    after.IsConstruct id kind kids above where
  present := extension.has construct.present
  kind := by rw [Tree.kind, extension.node_of_has id construct.present, ← Tree.kind, construct.kind]
  attributes := by rw [extension.node_of_has id construct.present, construct.attributes]
  children := by rw [Tree.children, extension.node_of_has id construct.present, ← Tree.children, construct.children]
  parent := by rw [Tree.parent, extension.node_of_has id construct.present, ← Tree.parent, construct.parent]

theorem relinked (construct : before.IsConstruct id kind kids above) (relinked : before.Relinked owners moved after)
    (unowned : id ∉ owners) (unmoved : id ∉ moved) : after.IsConstruct id kind kids above where
  present := relinked.has_iff.2 construct.present
  kind := (relinked.kind id).trans construct.kind
  attributes := (relinked.attributes id).trans construct.attributes
  children := (relinked.children id unowned).trans construct.children
  parent := (relinked.parent_eq unmoved).trans construct.parent

end IsConstruct

/-- Making a node that no tag is looked up for gives none to any other node. -/
theorem untagged_of_create {position : Position} {kind : Kind} {kids : List NodeId} {made : NodeId × Tree}
    (created : tree.create position kind [] kids = .ok made) (untagged : kind.tag? = none)
    (known : (tree.kind id).tag? = none) : (made.2.kind id).tag? = none := by
  obtain ⟨read, -, -, -, -, -, rfl⟩ := create_eq_ok_iff.1 created
  rw [kind_setParents]
  by_cases new : id = ⟨tree.size⟩
  · rw [new, Tree.kind, node_push_self, untagged]
  · rw [Tree.kind, node_push_of_ne new, ← Tree.kind, known]

/-- Making a node without attributes fails only for its kind and for children it cannot have. -/
theorem create_bare (tree : Tree) (position : Position) {kind : Kind} {kids : List NodeId} (passes : kind.check = .ok ())
    (container : kids ≠ [] → kind.isContainer = true) (distinct : kids.Nodup)
    (detached : ∀ child ∈ kids, tree.parent child = none) :
    tree.create position kind [] kids = .ok (⟨tree.size⟩,
      (tree.push { kind, attributes := [], children := kids, position }).2.setParents (some ⟨tree.size⟩) kids) :=
  create_eq_ok_iff.2 ⟨[], passes, List.mapM_nil, container, distinct, detached, rfl⟩

/-- Making a node without children leaves all others as they are. -/
theorem exists_create (tree : Tree) (position : Position) {kind : Kind} (passes : kind.check = .ok ()) :
    ∃ after, tree.create position kind [] [] = .ok (⟨tree.size⟩, after) ∧ tree.Edited after ∧
      tree.Extends after ∧ after.IsConstruct ⟨tree.size⟩ kind [] none := by
  have made := tree.create_bare position passes (fun empty => absurd rfl empty) List.nodup_nil
    fun _ impossible => absurd impossible List.not_mem_nil
  refine ⟨_, made, .create (fun _ impossible => absurd impossible List.not_mem_nil) made, extends_create made, ?_⟩
  have node : ((tree.push { kind, attributes := [], children := [], position }).2.setParents
      (some ⟨tree.size⟩) []).node ⟨tree.size⟩ = { kind, position } := node_push_self tree _
  constructor
  · rw [Has, size_setParents, size_push]
    exact Nat.lt_succ_self _
  · rw [Tree.kind, node]
  · rw [node]
  · rw [Tree.children, node]
  · rw [Tree.parent, node]

/-- Making a node around a construct leaves all nodes as they are that were there before the construct. -/
theorem exists_create_around (position : Position) {kind inner : Kind} {kid : NodeId}
    (passes : kind.check = .ok ()) (container : kind.isContainer = true)
    (construct : tree.IsConstruct kid inner [] none) :
    ∃ after, tree.create position kind [] [kid] = .ok (⟨tree.size⟩, after) ∧ tree.Edited after ∧
      after.IsConstruct ⟨tree.size⟩ kind [kid] none ∧
      after.IsConstruct kid inner [] (some ⟨tree.size⟩) ∧
      ∀ earlier : Tree, earlier.Extends tree → ¬earlier.Has kid → earlier.Extends after := by
  have detached : ∀ child ∈ [kid], tree.parent child = none := by
    intro child member
    rw [List.mem_singleton.1 member, construct.parent]
  have present : ∀ child ∈ [kid], tree.Has child := by
    intro child member
    rw [List.mem_singleton.1 member]
    exact construct.present
  have made := tree.create_bare position passes (fun _ => container) (List.nodup_singleton kid) detached
  have different : kid ≠ ⟨tree.size⟩ := ne_size_of_has construct.present
  refine ⟨_, made, .create present made, ?_, ?_, ?_⟩
  · have node : ((tree.push { kind, attributes := [], children := [kid], position }).2.setParents
        (some ⟨tree.size⟩) [kid]).node ⟨tree.size⟩ = { kind, children := [kid], position } := by
      rw [node_setParents_of_notMem, node_push_self]
      exact fun member => different (List.mem_singleton.1 member).symm
    constructor
    · rw [Has, size_setParents, size_push]
      exact Nat.lt_succ_self _
    · rw [Tree.kind, node]
    · rw [node]
    · rw [Tree.children, node]
    · rw [Tree.parent, node]
  · constructor
    · rw [has_setParents, has_push]
      exact .inl construct.present
    · rw [kind_setParents, Tree.kind, node_push_of_ne different, ← Tree.kind, construct.kind]
    · rw [attributes_setParents, node_push_of_ne different, construct.attributes]
    · rw [children_setParents, Tree.children, node_push_of_ne different, ← Tree.children, construct.children]
    · refine parent_setParents_of_mem _ (List.mem_singleton_self kid) ?_
      rw [has_push]
      exact .inl construct.present
  · intro earlier extension absent
    exact (extension.trans (extends_push tree rfl)).update absent fun _ => rfl

end Tree
end HtmlTemplate
