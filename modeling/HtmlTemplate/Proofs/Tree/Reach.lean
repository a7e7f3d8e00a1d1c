import HtmlTemplate.Proofs.Tree.Copy
import Mathlib.Data.List.Perm.Basic
import Mathlib.Logic.Relation

/-!
# Trees that edits reach

One edit that is not refused leads from a tree to the next; a tree is reached from another one by any
number of edits. Edits keep trees well formed. They give numbers out in order and never take a node out
of the list, and they leave it to the walk to say how far it has come with a node.
-/

namespace HtmlTemplate
namespace Tree

/-- One edit leads from the tree to the other one. The nodes that an edit attaches have to be there. -/
inductive Edited (before : Tree) : Tree → Prop
  | create {position : Position} {kind : Kind} {attributes : List (String × String)}
      {children : List NodeId} {made : NodeId × Tree} :
      (∀ child ∈ children, before.Has child) →
      before.create position kind attributes children = .ok made → Edited before made.2
  | clone (id : NodeId) (deep : Bool) : Edited before (before.clone id deep).2
  | append {parent child : NodeId} {after : Tree} : before.Has parent → before.Has child →
      before.append parent child = .ok after → Edited before after
  | insertBefore {parent child reference : NodeId} {after : Tree} : before.Has child →
      before.insertBefore parent child reference = .ok after → Edited before after
  | remove {parent child : NodeId} {after : Tree} :
      before.remove parent child = .ok after → Edited before after
  | replace {parent old new : NodeId} {after : Tree} : before.Has new →
      before.replace parent old new = .ok after → Edited before after
  | detach {id : NodeId} {after : Tree} : before.detach id = .ok after → Edited before after
  | takeChildren (id : NodeId) : Edited before (before.takeChildren id).2
  | setKind {id : NodeId} {kind : Kind} {after : Tree} :
      before.setKind id kind = .ok after → Edited before after
  | setAttribute {id : NodeId} {name raw : String} {after : Tree} :
      before.setAttribute id name raw = .ok after → Edited before after
  | removeAttribute (id : NodeId) (name : String) : Edited before (before.removeAttribute id name).2
  | setPosition (id : NodeId) (position : Position) : Edited before (before.setPosition id position)
  | setPreserve (id : NodeId) (preserve : Bool) : Edited before (before.setPreserve id preserve)

/-- Edits lead from the tree to the other one. -/
def Reaches (before after : Tree) : Prop :=
  Relation.ReflTransGen Edited before after

/-! ## Links after each edit -/

variable {tree next : Tree}

/-- A parent adopts a child that is listed somewhere among its children. -/
theorem adopts_setChildren {parent child : NodeId} {children : List NodeId} (hasParent : tree.Has parent)
    (hasChild : tree.Has child) (listed : children.Perm ([child] ++ tree.children parent)) :
    tree.Adopts parent [child] ((tree.setParent (some parent) child).setChildren parent children) := by
  constructor
  · simp
  · intro id member
    obtain rfl := List.mem_singleton.1 member
    rw [parent_setChildren, parent_setParent_self _ hasChild]
  · intro id outside
    rw [parent_setChildren, parent_setParent_of_ne _ (List.ne_of_not_mem_cons outside)]
  · rw [children_setChildren_self _ (by simpa using hasParent)]
    exact listed
  · intro id different
    rw [children_setChildren_of_ne _ different, children_setParent]

theorem adopts_append (wellFormed : tree.WellFormed) {parent child : NodeId} (hasParent : tree.Has parent)
    (hasChild : tree.Has child) (made : tree.append parent child = .ok next) :
    tree.Adopts parent [child] next := by
  obtain ⟨-, -, -, rfl⟩ := (append_eq_ok_iff wellFormed).1 made
  exact adopts_setChildren hasParent hasChild List.perm_append_comm

theorem adopts_insertBefore (wellFormed : tree.WellFormed) {parent child reference : NodeId}
    (hasChild : tree.Has child) (made : tree.insertBefore parent child reference = .ok next) :
    tree.Adopts parent [child] next := by
  obtain ⟨index, found, -, -, rfl⟩ := (insertBefore_eq_ok_iff wellFormed).1 made
  have hasParent := has_of_mem_children (mem_of_indexOf? found)
  obtain ⟨inside, -⟩ := List.getElem?_eq_some_iff.1 (getElem?_of_indexOf? found)
  exact adopts_setChildren hasParent hasChild (List.perm_insertIdx _ _ (Nat.le_of_lt inside))

theorem releases_remove (wellFormed : tree.WellFormed) {parent child : NodeId}
    (made : tree.remove parent child = .ok next) : tree.Releases parent [child] next := by
  obtain ⟨index, found, rfl⟩ := remove_eq_ok_iff.1 made
  have member := mem_of_indexOf? found
  obtain ⟨inside, equal⟩ := List.getElem?_eq_some_iff.1 (getElem?_of_indexOf? found)
  have hasChild := wellFormed.has_child member
  constructor
  · simp
  · intro id member
    obtain rfl := List.mem_singleton.1 member
    exact parent_setParent_self _ (by simpa using hasChild)
  · intro id outside
    rw [parent_setParent_of_ne _ (List.ne_of_not_mem_cons outside), parent_setChildren]
  · rw [children_setParent, children_setChildren_self _ (has_of_mem_children member)]
    have := (List.getElem_cons_eraseIdx_perm inside).symm
    rwa [equal] at this
  · intro id different
    rw [children_setParent, children_setChildren_of_ne _ different]

/-- Taking a child away and putting a node in its place, one after the other. -/
theorem releases_adopts_replace (wellFormed : tree.WellFormed) {parent old new : NodeId}
    (hasNew : tree.Has new) (made : tree.replace parent old new = .ok next) :
    ∃ middle : Tree, tree.remove parent old = .ok middle ∧ tree.Releases parent [old] middle ∧
      middle.Adopts parent [new] next ∧ tree.parent new = none ∧ ¬tree.OnPath new parent ∧ new ≠ old ∧
        old ∈ tree.children parent := by
  obtain ⟨index, found, detached, apart, rfl⟩ := (replace_eq_ok_iff wellFormed).1 made
  have member := mem_of_indexOf? found
  have hasParent := has_of_mem_children member
  obtain ⟨inside, -⟩ := List.getElem?_eq_some_iff.1 (getElem?_of_indexOf? found)
  have different : new ≠ old := by
    rintro rfl
    rw [wellFormed.linked, detached] at member
    cases member
  have removed := remove_eq_ok_iff.2 ⟨index, found, rfl⟩
  refine ⟨_, removed, releases_remove wellFormed removed, ?_, detached, apart, different, member⟩
  constructor
  · simp
  · intro id member
    obtain rfl := List.mem_singleton.1 member
    exact parent_setParent_self _ (by simpa using hasNew)
  · intro id outside
    rw [parent_setParent_of_ne _ (List.ne_of_not_mem_cons outside)]
    by_cases same : id = old
    · subst same
      rw [parent_setParent_self _ (by simpa using wellFormed.has_child member),
        parent_setParent_self _ (by simpa using wellFormed.has_child member)]
    · rw [parent_setParent_of_ne _ same, parent_setParent_of_ne _ same, parent_setChildren,
        parent_setChildren]
  · rw [children_setParent, children_setParent, children_setParent,
      children_setChildren_self _ hasParent, children_setChildren_self _ hasParent]
    exact List.set_perm_cons_eraseIdx inside new
  · intro id apart
    rw [children_setParent, children_setParent, children_setParent, children_setChildren_of_ne _ apart,
      children_setChildren_of_ne _ apart]

theorem releases_takeChildren (wellFormed : tree.WellFormed) (id : NodeId) :
    tree.Releases id (tree.children id) (tree.takeChildren id).2 := by
  constructor
  · simp [takeChildren]
  · intro child member
    exact parent_setParents_of_mem _ member (by simpa using wellFormed.has_child member)
  · intro child outside
    exact (parent_setParents_of_notMem _ outside).trans (parent_setChildren _ _ _ _)
  · have emptied : (tree.takeChildren id).2.children id = [] := by
      rw [takeChildren, children_setParents]
      by_cases present : tree.Has id
      · exact children_setChildren_self _ present
      · rw [children, node_of_not_has (by simpa using present)]
        rfl
    rw [emptied, List.append_nil]
  · intro other different
    exact (children_setParents _ _ _ _).trans (children_setChildren_of_ne _ different)

/-- A new node adopts its children: the node without them was there one step earlier. -/
theorem adopts_create {position : Position} {kind : Kind} {attributes : List Attribute}
    {children : List NodeId} (present : ∀ child ∈ children, tree.Has child) :
    (tree.push { kind, attributes, position }).2.Adopts ⟨tree.size⟩ children
      ((tree.push { kind, attributes, children, position }).2.setParents (some ⟨tree.size⟩) children) := by
  have same : ∀ id, id ≠ ⟨tree.size⟩ →
      (tree.push { kind, attributes, children, position }).2.node id =
        (tree.push { kind, attributes, position }).2.node id := fun id different =>
    (node_push_of_ne different).trans (node_push_of_ne different).symm
  constructor
  · intro id
    rw [kind_setParents]
    by_cases fresh : id = ⟨tree.size⟩
    · subst fresh
      rw [Tree.kind, Tree.kind, node_push_self, node_push_self]
    · rw [Tree.kind, same id fresh, Tree.kind]
  · intro id member
    exact parent_setParents_of_mem _ member ((has_push _).2 (.inl (present id member)))
  · intro id outside
    rw [parent_setParents_of_notMem _ outside, parent_push rfl, parent_push rfl]
  · rw [children_setParents, Tree.children, Tree.children, node_push_self, node_push_self, List.append_nil]
  · intro id different
    rw [children_setParents, Tree.children, same id different, Tree.children]

/-! ## Well-formed trees -/

/-- Changes of what a node holds keep the links, and so the tree well formed. -/
theorem WellFormed.update (wellFormed : tree.WellFormed) (id : NodeId) {change : Node → Node}
    (children_eq : ∀ node, (change node).children = node.children)
    (parent_eq : ∀ node, (change node).parent = node.parent)
    (container : tree.children id ≠ [] → (change (tree.node id)).kind.isContainer = true) :
    (tree.update id change).WellFormed := by
  have children_same : ∀ other, (tree.update id change).children other = tree.children other := fun other =>
    field_update tree id other Node.children children_eq
  have parent_same : ∀ other, (tree.update id change).parent other = tree.parent other := fun other =>
    field_update tree id other Node.parent parent_eq
  refine ⟨fun parent child => ?_, fun other => ?_, fun other => ?_, fun other nonempty => ?_⟩
  · rw [children_same, parent_same, wellFormed.linked]
  · rw [children_same]
    exact wellFormed.nodup other
  · obtain ⟨depth, grounded⟩ := wellFormed.grounded other
    refine ⟨depth, ?_⟩
    induction grounded with
    | root root => exact .root ((parent_same _).trans root)
    | child linked _ hypothesis => exact .child ((parent_same _).trans linked) hypothesis
  · rw [children_same] at nonempty
    by_cases same : other = id
    · subst same
      have present : tree.Has other := by
        by_contra absent
        rw [Tree.children, node_of_not_has absent] at nonempty
        exact nonempty rfl
      rw [kind, node_update_self present]
      exact container nonempty
    · rw [kind, node_update_of_ne same]
      exact wellFormed.contained other nonempty

theorem Edited.wellFormed (edited : tree.Edited next) (wellFormed : tree.WellFormed) : next.WellFormed := by
  cases edited with
  | create present made =>
      obtain ⟨read, -, -, container, distinct, detached, rfl⟩ := create_eq_ok_iff.1 made
      refine WellFormed.adopts ?_ (adopts_create present) distinct ?_ ?_ ?_
      · exact wellFormed.push rfl rfl
      · intro child member
        rw [parent_push rfl, detached child member]
      · intro child member onPath
        have fresh := onPath_of_root (by rw [Tree.parent, node_push_self]) onPath
        exact ne_size_of_has (present child member) fresh
      · rw [kind, node_push_self]
        exact container
  | clone id deep => exact wellFormed.clone id deep
  | append hasParent hasChild made =>
      obtain ⟨container, detached, apart, -⟩ := (append_eq_ok_iff wellFormed).1 made
      exact wellFormed.adopts (adopts_append wellFormed hasParent hasChild made) (List.nodup_singleton _)
        (by simpa using detached) (by simpa using apart) fun _ => container
  | insertBefore hasChild made =>
      obtain ⟨index, found, detached, apart, -⟩ := (insertBefore_eq_ok_iff wellFormed).1 made
      exact wellFormed.adopts (adopts_insertBefore wellFormed hasChild made) (List.nodup_singleton _)
        (by simpa using detached) (by simpa using apart)
        fun _ => wellFormed.contained _ (List.ne_nil_of_mem (mem_of_indexOf? found))
  | remove made => exact wellFormed.releases (releases_remove wellFormed made)
  | replace hasNew made =>
      obtain ⟨middle, -, releases, adopts, detached, apart, different, member⟩ :=
        releases_adopts_replace wellFormed hasNew made
      refine (wellFormed.releases releases).adopts adopts (List.nodup_singleton _) ?_ ?_ ?_
      · intro id inside
        obtain rfl := List.mem_singleton.1 inside
        rw [releases.parent_of_notMem _ (by simpa using different), detached]
      · intro id inside onPath
        obtain rfl := List.mem_singleton.1 inside
        exact apart (releases.onPath onPath)
      · intro _
        rw [releases.kind]
        exact wellFormed.contained _ (List.ne_nil_of_mem member)
  | detach made =>
      unfold Tree.detach at made
      split at made
      · exact wellFormed.releases (releases_remove wellFormed made)
      · obtain rfl := Except.ok.inj made
        exact wellFormed
  | takeChildren id => exact wellFormed.releases (releases_takeChildren wellFormed id)
  | setKind made =>
      obtain ⟨-, container, rfl⟩ := setKind_eq_ok_iff.1 made
      exact wellFormed.update _ (fun _ => rfl) (fun _ => rfl) container
  | setAttribute made =>
      obtain ⟨value, -, rfl⟩ := setAttribute_eq_ok_iff.1 made
      exact wellFormed.update _ (fun _ => rfl) (fun _ => rfl) (wellFormed.contained _)
  | removeAttribute id name =>
      exact wellFormed.update _ (fun _ => rfl) (fun _ => rfl) (wellFormed.contained _)
  | setPosition id position =>
      exact wellFormed.update _ (fun _ => rfl) (fun _ => rfl) (wellFormed.contained _)
  | setPreserve id preserve =>
      exact wellFormed.update _ (fun _ => rfl) (fun _ => rfl) (wellFormed.contained _)

theorem Reaches.wellFormed (reaches : tree.Reaches next) (wellFormed : tree.WellFormed) :
    next.WellFormed := by
  induction reaches with
  | refl => exact wellFormed
  | tail _ edited hypothesis => exact edited.wellFormed hypothesis

/-- A tree without links is well formed. -/
theorem wellFormed_of_unlinked (unlinked : ∀ node ∈ tree.nodes, node.children = [] ∧ node.parent = none) :
    tree.WellFormed := by
  have links : ∀ id, tree.children id = [] ∧ tree.parent id = none := by
    intro id
    rw [children, Tree.parent]
    by_cases present : tree.Has id
    · refine unlinked _ ?_
      rw [node, List.getD_eq_getElem _ _ present]
      exact List.getElem_mem present
    · rw [node_of_not_has present]
      exact ⟨rfl, rfl⟩
  refine ⟨fun parent child => ?_, fun id => ?_, fun id => ⟨0, .root (links id).2⟩, fun id nonempty => ?_⟩
  · rw [(links parent).1, (links child).2]
    simp
  · rw [(links id).1]
    exact List.nodup_nil
  · exact absurd (links id).1 nonempty

/-! ## Numbers and states -/

/-- The later tree has at least the nodes of the earlier one, at the same states, and new nodes are unvisited. -/
structure Grows (before after : Tree) : Prop where
  file : after.file = before.file
  size_le : before.size ≤ after.size
  state_of_has : ∀ id, before.Has id → (after.node id).state = (before.node id).state
  unvisited : ∀ id, ¬before.Has id → (after.node id).state = .unvisited

theorem Extends.grows (extension : tree.Extends next) : tree.Grows next where
  file := extension.file
  size_le := extension.size_le
  state_of_has id present := by rw [extension.node_of_has id present]
  unvisited := extension.unvisited

theorem Grows.refl (tree : Tree) : tree.Grows tree :=
  (Extends.refl tree).grows

theorem Grows.has (grows : tree.Grows next) {id : NodeId} (present : tree.Has id) : next.Has id :=
  Nat.lt_of_lt_of_le present grows.size_le

theorem Grows.trans {first second third : Tree} (left : first.Grows second) (right : second.Grows third) :
    first.Grows third where
  file := right.file.trans left.file
  size_le := Nat.le_trans left.size_le right.size_le
  state_of_has id present :=
    (right.state_of_has id (left.has present)).trans (left.state_of_has id present)
  unvisited id absent := by
    by_cases present : second.Has id
    · rw [right.state_of_has id present]
      exact left.unvisited id absent
    · exact right.unvisited id present

/-- A change that keeps the number of nodes and all states. -/
theorem grows_of_states_eq (file : next.file = tree.file) (size : next.size = tree.size)
    (states : ∀ id, (next.node id).state = (tree.node id).state) : tree.Grows next where
  file := file
  size_le := Nat.le_of_eq size.symm
  state_of_has id _ := states id
  unvisited id absent := (states id).trans (state_of_not_has absent)

theorem grows_update (tree : Tree) (id : NodeId) {change : Node → Node}
    (keeps : ∀ node, (change node).state = node.state) : tree.Grows (tree.update id change) :=
  grows_of_states_eq rfl (size_update _ _ _) fun other => field_update tree id other Node.state keeps

/-- A new node gets the next number. -/
theorem create_numbers {position : Position} {kind : Kind} {attributes : List (String × String)}
    {children : List NodeId} {made : NodeId × Tree}
    (created : tree.create position kind attributes children = .ok made) :
    made.1 = ⟨tree.size⟩ ∧ made.2.size = tree.size + 1 ∧ made.2.kind made.1 = kind := by
  obtain ⟨read, -, -, -, -, -, rfl⟩ := create_eq_ok_iff.1 created
  refine ⟨rfl, ?_, ?_⟩
  · rw [size_setParents, size_push]
  · rw [kind_setParents, Tree.kind, node_push_self]

/-- A new node without children leaves all others as they are. -/
theorem extends_create {position : Position} {kind : Kind} {attributes : List (String × String)}
    {made : NodeId × Tree} (created : tree.create position kind attributes [] = .ok made) :
    tree.Extends made.2 := by
  obtain ⟨read, -, -, -, -, -, rfl⟩ := create_eq_ok_iff.1 created
  exact extends_push tree rfl

theorem has_of_create {position : Position} {kind : Kind} {attributes : List (String × String)}
    {children : List NodeId} {made : NodeId × Tree}
    (created : tree.create position kind attributes children = .ok made) : made.2.Has made.1 := by
  obtain ⟨number, size, -⟩ := create_numbers created
  rw [Has, number, size]
  exact Nat.lt_succ_self _

/-- A copy gets the next number, and what is below it the numbers after that. -/
theorem clone_numbers (id : NodeId) (deep : Bool) :
    (tree.clone id deep).1 = ⟨tree.size⟩ ∧ (tree.clone id deep).2.Has ⟨tree.size⟩ :=
  ⟨cloneWithin_fst _ _ _, (extends_cloneWithin _ id tree).2⟩

theorem has_of_clone (id : NodeId) (deep : Bool) : (tree.clone id deep).2.Has (tree.clone id deep).1 := by
  obtain ⟨number, present⟩ : (tree.clone id deep).1 = ⟨tree.size⟩ ∧ _ := clone_numbers id deep
  rwa [number]

theorem Edited.grows (edited : tree.Edited next) (wellFormed : tree.WellFormed) : tree.Grows next := by
  cases edited with
  | @create position kind attributes children made present created =>
      obtain ⟨read, -, -, -, -, -, rfl⟩ := create_eq_ok_iff.1 created
      have pushed : tree.Grows (tree.push { kind, attributes := read, children, position }).2 :=
        (extends_push tree rfl).grows
      exact pushed.trans (grows_of_states_eq (by simp) (by simp) fun id => state_setParents _ _ _ _)
  | clone id deep => exact (extends_cloneWithin _ id tree).1.grows
  | append hasParent hasChild made =>
      obtain ⟨-, -, -, rfl⟩ := (append_eq_ok_iff wellFormed).1 made
      exact grows_of_states_eq (by simp) (by simp) (by simp)
  | insertBefore hasChild made =>
      obtain ⟨index, -, -, -, rfl⟩ := (insertBefore_eq_ok_iff wellFormed).1 made
      exact grows_of_states_eq (by simp) (by simp) (by simp)
  | remove made =>
      obtain ⟨index, -, rfl⟩ := remove_eq_ok_iff.1 made
      exact grows_of_states_eq (by simp) (by simp) (by simp)
  | replace hasNew made =>
      obtain ⟨index, -, -, -, rfl⟩ := (replace_eq_ok_iff wellFormed).1 made
      exact grows_of_states_eq (by simp) (by simp) (by simp)
  | detach made =>
      unfold Tree.detach at made
      split at made
      · obtain ⟨index, -, rfl⟩ := remove_eq_ok_iff.1 made
        exact grows_of_states_eq (by simp) (by simp) (by simp)
      · obtain rfl := Except.ok.inj made
        exact .refl tree
  | takeChildren id =>
      exact grows_of_states_eq (by simp [Tree.takeChildren]) (by simp [Tree.takeChildren])
        (by simp [Tree.takeChildren])
  | setKind made =>
      obtain ⟨-, -, rfl⟩ := setKind_eq_ok_iff.1 made
      exact grows_update tree _ fun _ => rfl
  | setAttribute made =>
      obtain ⟨value, -, rfl⟩ := setAttribute_eq_ok_iff.1 made
      exact grows_update tree _ fun _ => rfl
  | removeAttribute id name => exact grows_update tree _ fun _ => rfl
  | setPosition id position => exact grows_update tree _ fun _ => rfl
  | setPreserve id preserve => exact grows_update tree _ fun _ => rfl

theorem Reaches.grows (reaches : tree.Reaches next) (wellFormed : tree.WellFormed) : tree.Grows next := by
  induction reaches with
  | refl => exact .refl tree
  | tail reached edited hypothesis =>
      exact hypothesis.trans (edited.grows (Reaches.wellFormed reached wellFormed))

end Tree
end HtmlTemplate
