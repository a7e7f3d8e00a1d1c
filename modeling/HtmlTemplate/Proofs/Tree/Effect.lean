import HtmlTemplate.Proofs.Tree.Reach

/-!
# What edits change

An edit is refused, or it changes just what its name says. For every edit that can be refused this module gives
the exact condition under which it is not, and then the whole tree after it: the links that are other ones now, the
kind or the attributes of one node, or the node that is new. Everything else in the tree is as it was.
-/

namespace HtmlTemplate

/-- The result is not refused exactly under the condition, and then it is as described. -/
structure IsExact {α : Type} (result : Except Fault α) (condition : Prop) (effect : α → Prop) : Prop where
  succeeds : (∃ value, result = .ok value) ↔ condition
  gives : ∀ value, result = .ok value → effect value

/-- All items of a list are worked on, one after the other, until one is refused. -/
theorem mapM_eq_ok_iff {ε α β : Type} {work : α → Except ε β} {items : List α} {values : List β} :
    items.mapM work = .ok values ↔ List.Forall₂ (fun item value => work item = .ok value) items values := by
  induction items generalizing values with
  | nil =>
      rw [List.mapM_nil, List.forall₂_nil_left_iff]
      exact ⟨fun same => (Except.ok.inj same).symm, congrArg Except.ok ∘ Eq.symm⟩
  | cons item items hypothesis =>
      simp only [List.mapM_cons, bind_eq_ok_iff, hypothesis, List.forall₂_cons_left_iff]
      constructor
      · rintro ⟨value, done, others, rest, same⟩
        exact ⟨value, others, done, rest, (Except.ok.inj same).symm⟩
      · rintro ⟨value, others, done, rest, rfl⟩
        exact ⟨value, done, others, rest, rfl⟩

theorem exists_mapM_eq_ok_iff {ε α β : Type} {work : α → Except ε β} {items : List α} :
    (∃ values, items.mapM work = .ok values) ↔ ∀ item ∈ items, ∃ value, work item = .ok value := by
  simp only [mapM_eq_ok_iff]
  induction items with
  | nil => simp
  | cons item items hypothesis =>
      rw [List.forall_mem_cons, ← hypothesis]
      simp only [List.forall₂_cons_left_iff]
      exact ⟨fun ⟨_, value, others, done, rest, _⟩ => ⟨⟨value, done⟩, others, rest⟩,
        fun ⟨⟨value, done⟩, others, rest⟩ => ⟨_, value, others, done, rest, rfl⟩⟩

namespace Attribute

/-- The name and the source of a value are those of the attribute, and may be. -/
structure IsRead (position : Position) (given : String × String) (read : Attribute) : Prop where
  allowed : isAttributeName given.1 = true
  name : read.name = given.1
  value : Value.parse given.2 = .ok read.value
  position : read.position = position

theorem parse_eq_ok_iff {position : Position} {given : String × String} {read : Attribute} :
    parse given.1 given.2 position = .ok read ↔ IsRead position given read := by
  unfold parse
  constructor
  · intro parsed
    split at parsed
    · next allowed =>
        split at parsed
        · next value source =>
            obtain rfl := Except.ok.inj parsed
            exact ⟨allowed, rfl, source, rfl⟩
        · cases parsed
    · cases parsed
  · rintro ⟨allowed, name, value, rfl⟩
    rw [if_pos allowed, value, ← name]

/-- Attributes that are read keep the names that are given. -/
theorem names_eq_of_isRead {position : Position} {given : List (String × String)} {read : List Attribute}
    (isRead : List.Forall₂ (IsRead position) given read) : read.map name = given.map Prod.fst := by
  have names : List.Forall₂ (· = ·) (read.map name) (given.map Prod.fst) :=
    List.rel_map (R := flip (IsRead position)) (fun _ _ single => single.name) isRead.flip
  rwa [List.forall₂_eq_eq_eq] at names

theorem exists_isRead_iff (position : Position) (given : String × String) :
    (∃ read, IsRead position given read) ↔
      isAttributeName given.1 = true ∧ ∃ value, Value.parse given.2 = .ok value :=
  ⟨fun ⟨read, allowed, _, value, _⟩ => ⟨allowed, read.value, value⟩,
    fun ⟨allowed, value, source⟩ => ⟨{ name := given.1, value, position }, allowed, rfl, source, rfl⟩⟩

end Attribute

namespace Tree

/-- The later tree has the nodes of the earlier one with these parents and children. All else they hold is the same. -/
structure WithLinks (before : Tree) (parents : NodeId → Option NodeId) (children : NodeId → List NodeId)
    (after : Tree) : Prop where
  file : after.file = before.file
  size : after.size = before.size
  node : ∀ id, after.node id = { before.node id with parent := parents id, children := children id }

/-- The later tree has the nodes of the earlier one but for one of them. -/
structure WithNode (before : Tree) (id : NodeId) (node : Node) (after : Tree) : Prop where
  file : after.file = before.file
  size : after.size = before.size
  node : after.node = Function.update before.node id node

/-- The later tree has one node more, which is the parent of the children. -/
structure WithParent (before : Tree) (new : Node) (children : List NodeId) (after : Tree) : Prop where
  file : after.file = before.file
  size : after.size = before.size + 1
  new : after.node ⟨before.size⟩ = new
  adopted : ∀ id ∈ children, after.node id = { before.node id with parent := some ⟨before.size⟩ }
  others : ∀ id ∉ children, id ≠ ⟨before.size⟩ → after.node id = before.node id

variable {tree before middle after : Tree} {parents others : NodeId → Option NodeId}
  {children lists : NodeId → List NodeId} {parent child id : NodeId}

/-! ## Links -/

namespace WithLinks

theorem parent_eq (links : before.WithLinks parents children after) : after.parent = parents := by
  funext id
  rw [Tree.parent, links.node]

theorem children_eq (links : before.WithLinks parents children after) : after.children = children := by
  funext id
  rw [Tree.children, links.node]

theorem refl (tree : Tree) : tree.WithLinks tree.parent tree.children tree :=
  ⟨rfl, rfl, fun _ => rfl⟩

theorem trans (first : before.WithLinks parents children middle) (second : middle.WithLinks others lists after) :
    before.WithLinks others lists after where
  file := second.file.trans first.file
  size := second.size.trans first.size
  node id := by rw [second.node, first.node]

/-- A node with the parent and the children it had is the node it was. -/
theorem node_eq (links : before.WithLinks parents children after) (parent : parents id = before.parent id)
    (below : children id = before.children id) : after.node id = before.node id := by
  rw [links.node, parent, below, Tree.parent, Tree.children]

end WithLinks

theorem withLinks_setParent (present : tree.Has id) (parent : Option NodeId) :
    tree.WithLinks (Function.update tree.parent id parent) tree.children (tree.setParent parent id) where
  file := rfl
  size := size_setParent _ _ _
  node other := by
    by_cases same : other = id
    · subst same
      rw [setParent, node_update_self present, Function.update_self, Tree.children]
    · rw [setParent, node_update_of_ne same, Function.update_of_ne same, Tree.parent, Tree.children]

theorem withLinks_setChildren (present : tree.Has id) (list : List NodeId) :
    tree.WithLinks tree.parent (Function.update tree.children id list) (tree.setChildren id list) where
  file := rfl
  size := size_setChildren _ _ _
  node other := by
    by_cases same : other = id
    · subst same
      rw [setChildren, node_update_self present, Function.update_self, Tree.parent]
    · rw [setChildren, node_update_of_ne same, Function.update_of_ne same, Tree.parent, Tree.children]

/-- Links that are set behind others. -/
theorem WithLinks.setParent (links : before.WithLinks parents children after) (present : before.Has id)
    (parent : Option NodeId) :
    before.WithLinks (Function.update parents id parent) children (after.setParent parent id) := by
  have known : after.Has id := by rwa [Has, links.size]
  have next := withLinks_setParent known parent
  rw [links.parent_eq, links.children_eq] at next
  exact links.trans next

theorem WithLinks.setChildren (links : before.WithLinks parents children after) (present : before.Has id)
    (list : List NodeId) :
    before.WithLinks parents (Function.update children id list) (after.setChildren id list) := by
  have known : after.Has id := by rwa [Has, links.size]
  have next := withLinks_setChildren known list
  rw [links.parent_eq, links.children_eq] at next
  exact links.trans next

theorem WithLinks.setParents (links : before.WithLinks parents children after) {ids : List NodeId}
    (present : ∀ id ∈ ids, before.Has id) (parent : Option NodeId) :
    before.WithLinks (fun id => if id ∈ ids then parent else parents id) children (after.setParents parent ids) := by
  induction ids generalizing after parents with
  | nil =>
      simp only [List.not_mem_nil, if_false]
      exact links
  | cons first ids hypothesis =>
      have step := hypothesis (links.setParent (present first List.mem_cons_self) parent) fun id member =>
        present id (List.mem_cons_of_mem _ member)
      have same : (fun id => if id ∈ ids then parent else Function.update parents first parent id) =
          fun id => if id ∈ first :: ids then parent else parents id := by
        funext id
        by_cases equal : id = first <;> simp [equal]
      rwa [same] at step

/-! ## Edits of links -/

/-- Appending needs a container, and a node without a parent that is neither the container nor above it. -/
theorem WellFormed.isExact_append (wellFormed : tree.WellFormed) (hasParent : tree.Has parent)
    (hasChild : tree.Has child) :
    IsExact (tree.append parent child)
      ((tree.kind parent).isContainer = true ∧ tree.parent child = none ∧ ¬tree.OnPath child parent)
      (tree.WithLinks (Function.update tree.parent child (some parent))
        (Function.update tree.children parent (tree.children parent ++ [child]))) where
  succeeds := by
    simp [append_eq_ok_iff wellFormed]
  gives after made := by
    obtain ⟨-, -, -, rfl⟩ := (append_eq_ok_iff wellFormed).1 made
    exact (withLinks_setParent hasChild _).setChildren hasParent _

/-- A child stands behind the front that is before it, where it is looked for. -/
theorem exists_split_of_indexOf? {index : Nat} (found : tree.indexOf? parent child = some index) :
    ∃ front rest, tree.children parent = front ++ child :: rest ∧ front.length = index := by
  obtain ⟨inside, equal⟩ := List.getElem?_eq_some_iff.1 (getElem?_of_indexOf? found)
  refine ⟨(tree.children parent).take index, (tree.children parent).drop (index + 1), ?_, ?_⟩
  · rw [← equal, List.getElem_cons_drop, List.take_append_drop]
  · exact List.length_take_of_le (Nat.le_of_lt inside)

/-- Inserting needs a child to insert before, and a node without a parent that is neither the parent nor above it. -/
theorem WellFormed.isExact_insertBefore (wellFormed : tree.WellFormed) (hasChild : tree.Has child)
    (reference : NodeId) :
    IsExact (tree.insertBefore parent child reference)
      (reference ∈ tree.children parent ∧ tree.parent child = none ∧ ¬tree.OnPath child parent) fun after =>
        ∃ front rest, tree.children parent = front ++ reference :: rest ∧
          tree.WithLinks (Function.update tree.parent child (some parent))
            (Function.update tree.children parent (front ++ child :: reference :: rest)) after where
  succeeds := by
    rw [← indexOf?_isSome_iff]
    simp only [insertBefore_eq_ok_iff wellFormed]
    exact ⟨fun ⟨_, index, found, detached, apart, _⟩ => ⟨⟨index, found⟩, detached, apart⟩,
      fun ⟨⟨index, found⟩, detached, apart⟩ => ⟨_, index, found, detached, apart, rfl⟩⟩
  gives after made := by
    obtain ⟨index, found, -, -, rfl⟩ := (insertBefore_eq_ok_iff wellFormed).1 made
    obtain ⟨front, rest, listed, rfl⟩ := exists_split_of_indexOf? found
    have inserted : (front ++ reference :: rest).insertIdx front.length child = front ++ child :: reference :: rest :=
      List.modifyTailIdx_add (List.cons child) 0 front (reference :: rest)
    rw [listed, inserted]
    have hasParent := has_of_mem_children (mem_of_indexOf? found)
    exact ⟨front, rest, rfl, (withLinks_setParent hasChild _).setChildren hasParent _⟩

/-- Only children are removed. -/
theorem WellFormed.isExact_remove (wellFormed : tree.WellFormed) (parent child : NodeId) :
    IsExact (tree.remove parent child) (child ∈ tree.children parent) fun after =>
      ∃ front rest, tree.children parent = front ++ child :: rest ∧
        tree.WithLinks (Function.update tree.parent child none)
          (Function.update tree.children parent (front ++ rest)) after where
  succeeds := by
    rw [← indexOf?_isSome_iff]
    simp only [remove_eq_ok_iff]
    exact ⟨fun ⟨_, index, found, _⟩ => ⟨index, found⟩, fun ⟨index, found⟩ => ⟨_, index, found, rfl⟩⟩
  gives after made := by
    obtain ⟨index, found, rfl⟩ := remove_eq_ok_iff.1 made
    obtain ⟨front, rest, listed, rfl⟩ := exists_split_of_indexOf? found
    have removed : (front ++ child :: rest).eraseIdx front.length = front ++ rest := by
      simp [List.eraseIdx_append_of_length_le]
    have member := mem_of_indexOf? found
    rw [listed, removed]
    exact ⟨front, rest, rfl,
      (withLinks_setChildren (has_of_mem_children member) _).setParent (wellFormed.has_child member) _⟩

/-- Replacing needs a child to replace, and a node without a parent that is neither the parent nor above it. -/
theorem WellFormed.isExact_replace (wellFormed : tree.WellFormed) (parent old : NodeId) {new : NodeId}
    (hasNew : tree.Has new) :
    IsExact (tree.replace parent old new)
      (old ∈ tree.children parent ∧ tree.parent new = none ∧ ¬tree.OnPath new parent) fun after =>
        ∃ front rest, tree.children parent = front ++ old :: rest ∧
          tree.WithLinks (Function.update (Function.update tree.parent old none) new (some parent))
            (Function.update tree.children parent (front ++ new :: rest)) after where
  succeeds := by
    rw [← indexOf?_isSome_iff]
    simp only [replace_eq_ok_iff wellFormed]
    exact ⟨fun ⟨_, index, found, detached, apart, _⟩ => ⟨⟨index, found⟩, detached, apart⟩,
      fun ⟨⟨index, found⟩, detached, apart⟩ => ⟨_, index, found, detached, apart, rfl⟩⟩
  gives after made := by
    obtain ⟨index, found, -, -, rfl⟩ := (replace_eq_ok_iff wellFormed).1 made
    obtain ⟨front, rest, listed, rfl⟩ := exists_split_of_indexOf? found
    have replaced : (front ++ old :: rest).set front.length new = front ++ new :: rest := by
      simp
    have member := mem_of_indexOf? found
    rw [listed, replaced]
    have links := withLinks_setChildren (has_of_mem_children member) (front ++ new :: rest)
    exact ⟨front, rest, rfl, (links.setParent (wellFormed.has_child member) none).setParent hasNew _⟩

/-- Taking the children from a node leaves it without any, and them without a parent. -/
theorem WellFormed.withLinks_takeChildren (wellFormed : tree.WellFormed) (present : tree.Has id) :
    tree.WithLinks (fun other => if other ∈ tree.children id then none else tree.parent other)
      (Function.update tree.children id []) (tree.takeChildren id).2 :=
  (withLinks_setChildren present []).setParents (fun _ member => wellFormed.has_child member) none

/-! ## Edits of one node -/

theorem withNode_update (present : tree.Has id) (change : Node → Node) :
    tree.WithNode id (change (tree.node id)) (tree.update id change) where
  file := rfl
  size := size_update _ _ _
  node := by
    funext other
    by_cases same : other = id
    · subst same
      rw [node_update_self present, Function.update_self]
    · rw [node_update_of_ne same, Function.update_of_ne same]

/-- A node becomes one of a kind that passes the check, and that may have children if the node has some. -/
theorem isExact_setKind (present : tree.Has id) (kind : Kind) :
    IsExact (tree.setKind id kind)
      (kind.check = .ok () ∧ (tree.children id ≠ [] → kind.isContainer = true))
      (tree.WithNode id { tree.node id with kind }) where
  succeeds := by
    simp [setKind_eq_ok_iff]
  gives after made := by
    obtain ⟨-, -, rfl⟩ := setKind_eq_ok_iff.1 made
    exact withNode_update present fun node => { node with kind }

theorem readAttribute_eq_ok_iff {position : Position} {given : String × String} {read : Attribute} :
    tree.readAttribute position given.1 given.2 = .ok read ↔ Attribute.IsRead position given read := by
  rw [readAttribute, mapError_eq_ok_iff, Attribute.parse_eq_ok_iff]

/-- An attribute is set if its name may be one, and its value can be read. -/
theorem isExact_setAttribute (present : tree.Has id) (name raw : String) :
    IsExact (tree.setAttribute id name raw)
      (isAttributeName name = true ∧ ∃ value, Value.parse raw = .ok value) fun after =>
        ∃ read, Attribute.IsRead (tree.node id).position (name, raw) read ∧
          tree.WithNode id { tree.node id with attributes := putAttribute read (tree.node id).attributes } after where
  succeeds := by
    refine Iff.trans ?_ (Attribute.exists_isRead_iff (tree.node id).position (name, raw))
    simp only [setAttribute_eq_ok_iff]
    exact ⟨fun ⟨_, read, done, _⟩ => ⟨read, readAttribute_eq_ok_iff.1 done⟩,
      fun ⟨read, done⟩ => ⟨_, read, readAttribute_eq_ok_iff.2 done, rfl⟩⟩
  gives after made := by
    obtain ⟨read, done, rfl⟩ := setAttribute_eq_ok_iff.1 made
    exact ⟨read, readAttribute_eq_ok_iff.1 done,
      withNode_update present fun node => { node with attributes := putAttribute read node.attributes }⟩

/-! ## New nodes -/

/-- A node is made of a kind that passes the check and of attributes that can be read. It has children only if its
kind may have some, and each of them once and without a parent so far. -/
theorem isExact_create (position : Position) (kind : Kind) (attributes : List (String × String)) {list : List NodeId}
    (present : ∀ child ∈ list, tree.Has child) :
    IsExact (tree.create position kind attributes list)
      (kind.check = .ok () ∧
        (∀ given ∈ attributes, isAttributeName given.1 = true ∧ ∃ value, Value.parse given.2 = .ok value) ∧
        (list ≠ [] → kind.isContainer = true) ∧ list.Nodup ∧ ∀ child ∈ list, tree.parent child = none) fun made =>
      made.1 = ⟨tree.size⟩ ∧ ∃ read, List.Forall₂ (Attribute.IsRead position) attributes read ∧
        tree.WithParent { kind, attributes := read, children := list, position } list made.2 where
  succeeds := by
    simp only [← Attribute.exists_isRead_iff position, ← @readAttribute_eq_ok_iff tree position,
      ← exists_mapM_eq_ok_iff, create_eq_ok_iff]
    exact ⟨fun ⟨_, read, checked, done, rest⟩ => ⟨checked, ⟨read, done⟩, rest.1, rest.2.1, rest.2.2.1⟩,
      fun ⟨checked, ⟨read, done⟩, rest⟩ => ⟨_, read, checked, done, rest.1, rest.2.1, rest.2.2, rfl⟩⟩
  gives made created := by
    obtain ⟨read, -, done, -, -, -, rfl⟩ := create_eq_ok_iff.1 created
    have apart : (⟨tree.size⟩ : NodeId) ∉ list := fun member => ne_size_of_has (present _ member) rfl
    have attributesRead := mapM_eq_ok_iff.1 done
    simp only [readAttribute_eq_ok_iff] at attributesRead
    have links := (WithLinks.refl (tree.push { kind, attributes := read, children := list, position }).2).setParents
      (fun child member => (has_push _).2 (.inl (present child member))) (some ⟨tree.size⟩)
    refine ⟨rfl, read, attributesRead, ?_, ?_, ?_, fun id member => ?_, fun id outside different => ?_⟩
    · rw [file_setParents, file_push]
    · rw [size_setParents, size_push]
    · rw [links.node_eq (if_neg apart) rfl, node_push_self]
    · rw [links.node, if_pos member, Tree.children, node_push_of_has _ (present id member)]
    · rw [links.node_eq (if_neg outside) rfl, node_push_of_ne different]

end Tree
end HtmlTemplate
