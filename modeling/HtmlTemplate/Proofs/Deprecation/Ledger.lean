import HtmlTemplate.Proofs.Placement.Demand

/-!
# A ledger of older names

Elements with an older name of a control tag are due a warning. A walk warns about them in two places: when it renames
one, and when an `<if>` makes a branch of one. This module keeps the books of both. At any time the elements that are
due a warning are those that were told and those that still have the older name and a place in the tree, and no element
is both. While nodes are moved, those that are held count as having a place.
-/

namespace HtmlTemplate

open HtmlTemplate.Tree

/-! ## Older names -/

namespace Control

/-- The older names of control tags, each with the name that took its place. -/
def olderNames : List (String × String) :=
  [("c-if", "if"), ("c-else-if", "else-if"), ("c-else", "else"), ("c-for", "for")]

/-- The entries of the core taglib with older names are those of the older names. -/
theorem deprecated_of_entryOf (tag : String) :
    (entryOf tag).bind (fun entry => entry.rules.deprecated) =
      (olderNames.lookup tag).map fun new => "use <" ++ new ++ "> instead" := by
  by_cases older : tag ∈ olderNames.map Prod.fst
  · simp only [olderNames, List.map_cons, List.map_nil, List.mem_cons, List.not_mem_nil, or_false] at older
    rcases older with rfl | rfl | rfl | rfl <;> rfl
  · have none : olderNames.lookup tag = none := by
      refine List.lookup_eq_none_iff.2 fun pair member => ?_
      have apart : tag ≠ pair.1 := fun same => older (same ▸ List.mem_map_of_mem member)
      simpa using apart
    rw [none]
    cases found : entryOf tag with
    | none => rfl
    | some entry =>
        obtain ⟨known, rfl⟩ := mem_entries_of_entryOf found
        simp only [entries, List.mem_cons, List.not_mem_nil, or_false] at known
        rcases known with rfl | rfl | rfl | rfl | rfl | rfl | rfl | rfl | rfl <;>
          first | rfl | exact absurd (by decide) older

end Control

namespace Tree

variable {tree after : Tree} {id : NodeId}

/-- The warning that is due for a node: its tag is the older name of a control tag. -/
def deprecation? (tree : Tree) (id : NodeId) : Option Diagnostic :=
  match tree.kind id with
  | .element tag =>
      (Control.olderNames.lookup tag).map fun new =>
        Diagnostic.warning Diagnostic.deprecatedTagCode
          ("<" ++ tag ++ "> is deprecated: use <" ++ new ++ "> instead")
          tree.file (tree.node id).position (some ("<" ++ tag ++ ">"))
  | _ => none

theorem deprecation?_of_element {tag : String} (element : tree.kind id = .element tag) :
    tree.deprecation? id = ((Control.entryOf tag).bind fun entry => entry.rules.deprecated).map
      (Walk.deprecation tree id tag) := by
  have message : ∀ new : String, "<" ++ tag ++ "> is deprecated: use <" ++ new ++ "> instead" =
      "<" ++ tag ++ "> is deprecated: " ++ ("use <" ++ new ++ "> instead") := by
    intro new
    rw [show "> is deprecated: use <" = "> is deprecated: " ++ "use <" by decide]
    simp only [String.append_assoc]
  rw [deprecation?, element, Control.deprecated_of_entryOf, Option.map_map]
  exact congrArg (Option.map · _) (funext fun new => by rw [message]; rfl)

theorem deprecation?_of_untagged (untagged : (tree.kind id).tag? = none) : tree.deprecation? id = none := by
  unfold deprecation?
  split
  · next tag element =>
      rw [element] at untagged
      cases untagged
  · rfl

theorem exists_element_of_deprecation? (older : (tree.deprecation? id).isSome = true) :
    ∃ tag, tree.kind id = .element tag := by
  unfold deprecation? at older
  split at older
  · next tag element => exact ⟨tag, element⟩
  · cases older

theorem has_of_deprecation? (older : (tree.deprecation? id).isSome = true) : tree.Has id := by
  obtain ⟨tag, element⟩ := exists_element_of_deprecation? older
  exact Walk.has_of_element element

theorem code_of_deprecation? {warning : Diagnostic} (due : tree.deprecation? id = some warning) :
    warning.code = Diagnostic.deprecatedTagCode ∧ warning.severity = .warning := by
  unfold deprecation? at due
  split at due
  · obtain ⟨new, -, rfl⟩ := Option.map_eq_some_iff.1 due
    exact ⟨rfl, rfl⟩
  · cases due

theorem deprecation?_congr (file : after.file = tree.file) (kind : after.kind id = tree.kind id)
    (position : (after.node id).position = (tree.node id).position) : after.deprecation? id = tree.deprecation? id := by
  rw [deprecation?, deprecation?, kind, file, position]

theorem SameShape.deprecation? (shape : tree.SameShape after) (id : NodeId) :
    after.deprecation? id = tree.deprecation? id :=
  deprecation?_congr shape.file (shape.kind id) (shape.position id)

@[simp] theorem deprecation?_setParent (tree : Tree) (parent : Option NodeId) (id other : NodeId) :
    (tree.setParent parent id).deprecation? other = tree.deprecation? other :=
  deprecation?_congr (file_setParent _ _ _) (kind_setParent _ _ _ _) (position_setParent _ _ _ _)

@[simp] theorem deprecation?_setParents (tree : Tree) (parent : Option NodeId) (ids : List NodeId) (other : NodeId) :
    (tree.setParents parent ids).deprecation? other = tree.deprecation? other :=
  deprecation?_congr (file_setParents _ _ _) (kind_setParents _ _ _ _) (position_setParents _ _ _ _)

@[simp] theorem deprecation?_setChildren (tree : Tree) (id other : NodeId) (list : List NodeId) :
    (tree.setChildren id list).deprecation? other = tree.deprecation? other :=
  deprecation?_congr (file_setChildren _ _ _) (kind_setChildren _ _ _ _) (position_setChildren _ _ _ _)

/-- A node that is made one of another kind keeps its links, and the other nodes stay as they are. -/
theorem setKind_spec {kind : Kind} (made : tree.setKind id kind = .ok after) (present : tree.Has id) :
    after.file = tree.file ∧ after.kind id = kind ∧ (∀ other, other ≠ id → after.node other = tree.node other) ∧
      ∀ other, (after.Has other ↔ tree.Has other) ∧ after.children other = tree.children other ∧
        after.parent other = tree.parent other := by
  obtain ⟨-, -, rfl⟩ := setKind_eq_ok_iff.1 made
  refine ⟨rfl, ?_, fun other different => node_update_of_ne different _, fun other => ⟨has_update _ _ _ _, ?_, ?_⟩⟩
  · rw [Tree.kind, node_update_self present]
  · exact field_update tree id other Node.children fun _ => rfl
  · exact field_update tree id other Node.parent fun _ => rfl

/-- Nothing that the node holds may hold anything. -/
def Hollow (tree : Tree) (id : NodeId) : Prop :=
  ∀ child ∈ tree.children id, (tree.kind child).isContainer = false

/-- The node has a place: it is held, or another node has it. -/
def Keeps (tree : Tree) (held : List NodeId) (id : NodeId) : Prop :=
  id ∈ held ∨ tree.parent id ≠ none

/-- Nodes stay, and stay what they are. -/
def Stays (before after : Tree) : Prop :=
  ∀ id, before.Has id → after.Has id ∧ after.kind id = before.kind id

theorem stays_refl (tree : Tree) : tree.Stays tree :=
  fun _ present => ⟨present, rfl⟩

theorem Stays.trans {before middle after : Tree} (first : before.Stays middle) (second : middle.Stays after) :
    before.Stays after := by
  intro id present
  obtain ⟨there, kind⟩ := first id present
  exact ⟨(second id there).1, (second id there).2.trans kind⟩

theorem Stays.isContainer {tag : String} (stays : tree.Stays after) (element : tree.kind id = .element tag) :
    (after.kind id).isContainer = true := by
  rw [(stays id (Walk.has_of_element element)).2, element]
  rfl

end Tree

/-! ## The ledger -/

variable {root id parent : NodeId} {first tree after : Tree} {held idle told now ids : List NodeId}

/--
The books of a walk over the tree that was first, up to now. Those told are due a warning, and were warned about once;
of the others that are due one, each has its older name still and a place, and the others that have such a name are
none. Those held hang loose, and what hangs loose else holds nothing of note, and neither do those that are idle.
-/
structure Ledger (root : NodeId) (first : Tree) (held idle told : List NodeId) (tree : Tree) : Prop where
  wellFormed : tree.WellFormed
  plain : ∀ id tag, (tree.kind id).tag? = some tag → tree.kind id = .element tag
  same : ∀ id warning, tree.deprecation? id = some warning → first.deprecation? id = some warning
  balance : ∀ id, (first.deprecation? id).isSome = true →
    (id ∉ told ↔ (tree.deprecation? id).isSome = true ∧ tree.Keeps held id)
  due : ∀ id ∈ told, (first.deprecation? id).isSome = true
  once : told.Nodup
  distinct : held.Nodup
  loose : ∀ id ∈ held, tree.Has id ∧ tree.parent id = none
  hollow : ∀ id, id ≠ root → id ∉ held → tree.parent id = none → tree.Hollow id
  idle : ∀ id ∈ idle, tree.Has id ∧ tree.Hollow id

namespace Ledger

/-! ### What the books say -/

theorem due_of_isSome (ledger : Ledger root first held idle told tree) (older : (tree.deprecation? id).isSome = true) :
    (first.deprecation? id).isSome = true := by
  obtain ⟨warning, due⟩ := Option.isSome_iff_exists.1 older
  rw [ledger.same id warning due]
  rfl

/-- An element with an older name and a place was not told. -/
theorem untold (ledger : Ledger root first held idle told tree) (older : (tree.deprecation? id).isSome = true)
    (keeps : tree.Keeps held id) : id ∉ told :=
  (ledger.balance id (ledger.due_of_isSome older)).2 ⟨older, keeps⟩

/-- Nothing is due any more for nodes without older names. -/
theorem told_of_none (ledger : Ledger root first held idle told tree) (modern : tree.deprecation? id = none)
    (due : (first.deprecation? id).isSome = true) : id ∈ told := by
  by_contra untold
  obtain ⟨older, -⟩ := (ledger.balance id due).1 untold
  rw [modern] at older
  cases older

/-- For a node that was told, if it was due, nothing more is due. -/
theorem none_of_told (ledger : Ledger root first held idle told tree) (keeps : tree.Keeps held id)
    (settled : (first.deprecation? id).isSome = true → id ∈ told) : tree.deprecation? id = none := by
  rw [← Option.not_isSome_iff_eq_none]
  exact fun older => ledger.untold older keeps (settled (ledger.due_of_isSome older))

/-- A node that has a container in it has a place, unless it is the root. -/
theorem keeps_of_child (ledger : Ledger root first held idle told tree) (linked : tree.parent id = some parent)
    (container : (tree.kind id).isContainer = true) : parent = root ∨ tree.Keeps held parent := by
  by_contra none
  obtain ⟨other, unkept⟩ := not_or.1 none
  obtain ⟨unheld, detached⟩ := not_or.1 unkept
  have hollow := ledger.hollow parent other unheld (not_not.1 detached) id ((ledger.wellFormed.linked parent id).2 linked)
  rw [container] at hollow
  cases hollow

theorem not_idle_of_child (ledger : Ledger root first held idle told tree) (linked : tree.parent id = some parent)
    (container : (tree.kind id).isContainer = true) : parent ∉ idle := by
  intro member
  have hollow := (ledger.idle parent member).2 id ((ledger.wellFormed.linked parent id).2 linked)
  rw [container] at hollow
  cases hollow

/-! ### Other views -/

theorem perm (ledger : Ledger root first held idle told tree) (perm : held.Perm now) :
    Ledger root first now idle told tree where
  wellFormed := ledger.wellFormed
  plain := ledger.plain
  same := ledger.same
  balance id due := by
    rw [ledger.balance id due, Keeps, Keeps, perm.mem_iff]
  due := ledger.due
  once := ledger.once
  distinct := perm.nodup_iff.1 ledger.distinct
  loose id member := ledger.loose id (perm.mem_iff.2 member)
  hollow id other unheld := ledger.hollow id other fun member => unheld (perm.mem_iff.1 member)
  idle := ledger.idle

theorem rest (ledger : Ledger root first held idle told tree) (present : tree.Has id) (hollow : tree.Hollow id) :
    Ledger root first held (id :: idle) told tree :=
  { ledger with idle := List.forall_mem_cons.2 ⟨⟨present, hollow⟩, ledger.idle⟩ }

theorem forget (ledger : Ledger root first held idle told tree) (subset : ids ⊆ idle) :
    Ledger root first held ids told tree :=
  { ledger with idle := fun id member => ledger.idle id (subset member) }

/-- Changes of what the books do not read keep them. -/
theorem sameLinks (ledger : Ledger root first held idle told tree) (size : after.size = tree.size)
    (same : ∀ id, after.deprecation? id = tree.deprecation? id) (kind : ∀ id, after.kind id = tree.kind id)
    (children : ∀ id, after.children id = tree.children id) (parents : ∀ id, after.parent id = tree.parent id)
    (wellFormed : after.WellFormed) : Ledger root first held idle told after where
  wellFormed := wellFormed
  plain id := by
    rw [kind]
    exact ledger.plain id
  same id := by
    rw [same]
    exact ledger.same id
  balance id due := by
    rw [ledger.balance id due, same, Keeps, Keeps, parents]
  due := ledger.due
  once := ledger.once
  distinct := ledger.distinct
  loose id := by
    rw [Has, size, parents]
    exact ledger.loose id
  hollow id := by
    rw [parents, Hollow, children, funext kind]
    exact ledger.hollow id
  idle id := by
    rw [Has, size, Hollow, children, funext kind]
    exact ledger.idle id

theorem sameShape (ledger : Ledger root first held idle told tree) (shape : tree.SameShape after) :
    Ledger root first held idle told after :=
  ledger.sameLinks shape.size shape.deprecation? shape.kind shape.children shape.parent (shape.wellFormed ledger.wellFormed)

/-! ### Steps -/

/-- Nodes that were held are given to a node that has a place. -/
theorem adopt (ledger : Ledger root first (ids ++ held) idle told tree) (adopts : tree.Adopts parent ids after)
    (wellFormed : after.WellFormed) (stays : tree.Stays after)
    (same : ∀ id, after.deprecation? id = tree.deprecation? id) (hosts : parent = root ∨ tree.Keeps held parent)
    (apart : parent ∉ idle) : Ledger root first held idle told after := by
  have unmoved : ∀ id ∈ held, id ∉ ids := fun id member among =>
    List.disjoint_of_nodup_append ledger.distinct among member
  refine ⟨wellFormed, fun id => ?_, fun id => ?_, fun id due => ?_, ledger.due, ledger.once,
    ledger.distinct.of_append_right, fun id member => ?_, fun id other unheld detached => ?_, fun id member => ?_⟩
  · rw [adopts.kind]
    exact ledger.plain id
  · rw [same]
    exact ledger.same id
  · rw [ledger.balance id due, same, Keeps, Keeps, List.mem_append]
    by_cases moved : id ∈ ids
    · simp [moved, adopts.parent_of_mem id moved]
    · simp [moved, adopts.parent_of_notMem id moved]
  · obtain ⟨present, detached⟩ := ledger.loose id (List.mem_append_right ids member)
    exact ⟨(stays id present).1, (adopts.parent_of_notMem id (unmoved id member)).trans detached⟩
  · have kept : id ∉ ids := by
      intro moved
      rw [adopts.parent_of_mem id moved] at detached
      cases detached
    rw [adopts.parent_of_notMem id kept] at detached
    have different : id ≠ parent := by
      rintro rfl
      exact hosts.elim other fun keeps => keeps.elim unheld fun attached => attached detached
    rw [Hollow, adopts.children_of_ne id different, funext adopts.kind]
    exact ledger.hollow id other (by simp [kept, unheld]) detached
  · obtain ⟨present, hollow⟩ := ledger.idle id member
    refine ⟨(stays id present).1, ?_⟩
    rw [Hollow, adopts.children_of_ne id fun equal => apart (equal ▸ member), funext adopts.kind]
    exact hollow

/-- Nodes that are taken from another one are held. -/
theorem release (ledger : Ledger root first held idle told tree) (releases : tree.Releases parent ids after)
    (stays : tree.Stays after) (same : ∀ id, after.deprecation? id = tree.deprecation? id) :
    Ledger root first (ids ++ held) idle told after := by
  have linked : ∀ id ∈ ids, tree.parent id = some parent := fun id member =>
    (ledger.wellFormed.linked parent id).1 (releases.children_self.mem_iff.2 (List.mem_append_left _ member))
  have unheld : ∀ id ∈ ids, id ∉ held := fun id member among => by
    cases (linked id member).symm.trans (ledger.loose id among).2
  have hollows : ∀ id, tree.Hollow id → after.Hollow id := by
    intro id hollow child member
    rw [releases.kind]
    exact hollow child ((releases.mem_children ledger.wellFormed id child).1 member).2
  refine ⟨ledger.wellFormed.releases releases, fun id => ?_, fun id => ?_, fun id due => ?_, ledger.due, ledger.once, ?_,
    fun id member => ?_, fun id other outside detached => ?_, fun id member => ?_⟩
  · rw [releases.kind]
    exact ledger.plain id
  · rw [same]
    exact ledger.same id
  · rw [ledger.balance id due, same, Keeps, Keeps, List.mem_append]
    by_cases moved : id ∈ ids
    · simp [moved, linked id moved]
    · simp [moved, releases.parent_of_notMem id moved]
  · refine List.Nodup.append ?_ ledger.distinct unheld
    exact (releases.children_self.nodup_iff.1 (ledger.wellFormed.nodup parent)).of_append_left
  · rcases List.mem_append.1 member with moved | kept
    · exact ⟨(stays id (has_of_parent (linked id moved))).1, releases.parent_of_mem id moved⟩
    · obtain ⟨present, detached⟩ := ledger.loose id kept
      have unmoved : id ∉ ids := fun moved => unheld id moved kept
      exact ⟨(stays id present).1, (releases.parent_of_notMem id unmoved).trans detached⟩
  · rw [List.mem_append, not_or] at outside
    rw [releases.parent_of_notMem id outside.1] at detached
    exact hollows id (ledger.hollow id other outside.2 detached)
  · obtain ⟨present, hollow⟩ := ledger.idle id member
    exact ⟨(stays id present).1, hollows id hollow⟩

/-- A new node that no tag is looked up for is held. -/
theorem push (ledger : Ledger root first held idle told tree) {kind : Kind} (untagged : kind.tag? = none)
    (attributes : List Attribute) (position : Position) :
    Ledger root first (⟨tree.size⟩ :: held) idle told (tree.push { kind, attributes, position }).2 := by
  have fresh : ∀ {id}, tree.Has id → id ≠ ⟨tree.size⟩ := ne_size_of_has
  have kinds : ∀ id, id ≠ ⟨tree.size⟩ → (tree.push { kind, attributes, position }).2.kind id = tree.kind id :=
    fun id old => congrArg Node.kind (node_push_of_ne old)
  have new : (tree.push { kind, attributes, position }).2.kind ⟨tree.size⟩ = kind := by
    rw [Tree.kind, node_push_self]
  have same : ∀ id, (tree.push { kind, attributes, position }).2.deprecation? id = tree.deprecation? id := by
    intro id
    by_cases old : id = ⟨tree.size⟩
    · rw [old, deprecation?_of_untagged (by rw [new, untagged]), deprecation?_of_untagged]
      rw [kind_of_not_has not_has_size]
      rfl
    · exact deprecation?_congr (file_push _ _) (kinds id old) (congrArg Node.position (node_push_of_ne old))
  have children : ∀ id, (tree.push { kind, attributes, position }).2.children id = tree.children id := children_push rfl
  have parents : ∀ id, (tree.push { kind, attributes, position }).2.parent id = tree.parent id := parent_push rfl
  have hollows : ∀ id, tree.Hollow id → (tree.push { kind, attributes, position }).2.Hollow id := by
    intro id hollow child member
    rw [children] at member
    rw [kinds child (fresh (ledger.wellFormed.has_child member))]
    exact hollow child member
  refine ⟨ledger.wellFormed.push rfl rfl, fun id tag tagged => ?_, fun id => ?_, fun id due => ?_, ledger.due, ledger.once, ?_,
    fun id member => ?_, fun id other outside detached => ?_, fun id member => ?_⟩
  · by_cases old : id = ⟨tree.size⟩
    · rw [old, new, untagged] at tagged
      cases tagged
    · rw [kinds id old] at tagged ⊢
      exact ledger.plain id tag tagged
  · rw [same]
    exact ledger.same id
  · rw [ledger.balance id due, same]
    refine and_congr_right fun older => ?_
    rw [Keeps, Keeps, parents, List.mem_cons, or_iff_right (fresh (has_of_deprecation? older))]
  · exact List.nodup_cons.2 ⟨fun member => fresh (ledger.loose _ member).1 rfl, ledger.distinct⟩
  · rcases List.mem_cons.1 member with rfl | member
    · refine ⟨(has_push _).2 (.inr rfl), ?_⟩
      rw [Tree.parent, node_push_self]
    · obtain ⟨present, detached⟩ := ledger.loose id member
      exact ⟨(has_push _).2 (.inl present), (parents id).trans detached⟩
  · rw [parents] at detached
    exact hollows id (ledger.hollow id other (fun member => outside (List.mem_cons_of_mem _ member)) detached)
  · obtain ⟨present, hollow⟩ := ledger.idle id member
    exact ⟨(has_push _).2 (.inl present), hollows id hollow⟩

/-- What hangs loose without being held may be a node that is let go of, which holds nothing of note either. -/
theorem hollow_of_detached (ledger : Ledger root first (id :: held) idle told tree) (hollow : tree.Hollow id) (other : NodeId)
    (apart : other ≠ root) (unheld : other ∉ held) (detached : tree.parent other = none) : tree.Hollow other := by
  by_cases same : other = id
  · rw [same]
    exact hollow
  · exact ledger.hollow other apart (by simp [same, unheld]) detached

/-- A node that is held is let go of when nothing more is due for it. -/
theorem drop (ledger : Ledger root first (id :: held) idle told tree) (hollow : tree.Hollow id)
    (modern : tree.deprecation? id = none) : Ledger root first held idle told tree := by
  refine { ledger with
    balance := fun other due => ?_, distinct := (List.nodup_cons.1 ledger.distinct).2,
    loose := fun other member => ledger.loose other (List.mem_cons_of_mem id member),
    hollow := ledger.hollow_of_detached hollow }
  rw [ledger.balance other due]
  refine and_congr_right fun older => ?_
  have different : other ≠ id := by
    rintro rfl
    rw [modern] at older
    cases older
  rw [Keeps, Keeps, List.mem_cons, or_iff_right different]

/-- Text has nothing in it and is due no warning. -/
theorem dropText (ledger : Ledger root first (id :: held) idle told tree) {value : String}
    (text : tree.kind id = .text value) : Ledger root first held idle told tree := by
  refine ledger.drop (fun child member => ?_) (deprecation?_of_untagged (by rw [text]; rfl))
  have container := ledger.wellFormed.contained id (List.ne_nil_of_mem member)
  rw [text] at container
  cases container

/-- A node with an older name that is told may be let go of. -/
theorem dropTold (ledger : Ledger root first (id :: held) idle told tree) (hollow : tree.Hollow id)
    (older : (tree.deprecation? id).isSome = true) : Ledger root first held idle (told ++ [id]) tree := by
  have due := ledger.due_of_isSome older
  have keeps : tree.Keeps (id :: held) id := .inl List.mem_cons_self
  obtain ⟨unheld, distinct⟩ := List.nodup_cons.1 ledger.distinct
  refine { ledger with
    balance := fun other otherDue => ?_, distinct,
    due := fun other member => ?_,
    once := List.nodup_append_comm.1 (List.nodup_cons.2 ⟨ledger.untold older keeps, ledger.once⟩),
    loose := fun other member => ledger.loose other (List.mem_cons_of_mem id member),
    hollow := ledger.hollow_of_detached hollow }
  · by_cases same : other = id
    · subst same
      have detached := (ledger.loose other List.mem_cons_self).2
      simp [Keeps, unheld, detached]
    · have before := ledger.balance other otherDue
      rw [Keeps, List.mem_cons, or_iff_right same] at before
      rw [List.mem_append, List.mem_singleton, or_iff_left same, before, Keeps]
  · rcases List.mem_append.1 member with before | last
    · exact ledger.due other before
    · rw [List.mem_singleton.1 last]
      exact due

/-- Letting go of a node tells what is due for it. -/
theorem close (ledger : Ledger root first (id :: held) idle told tree) (hollow : tree.Hollow id) :
    ∃ more, more.filterMap first.deprecation? = (tree.deprecation? id).toList ∧
      Ledger root first held idle (told ++ more) tree := by
  cases due : tree.deprecation? id with
  | none =>
      refine ⟨[], rfl, ?_⟩
      rw [List.append_nil]
      exact ledger.drop hollow due
  | some warning =>
      refine ⟨[id], ?_, ledger.dropTold hollow (by rw [due]; rfl)⟩
      simp [ledger.same id warning due]

/-- A node in its place gets a name that is not older, and is told. -/
theorem rename {new : String} (ledger : Ledger root first held idle told tree)
    (older : (tree.deprecation? id).isSome = true) (keeps : tree.Keeps held id)
    (modern : Control.olderNames.lookup new = none) (made : tree.setKind id (.element new) = .ok after) :
    Ledger root first held idle (told ++ [id]) after := by
  have wellFormed := (Edited.setKind made).wellFormed ledger.wellFormed
  obtain ⟨tag, element⟩ := exists_element_of_deprecation? older
  obtain ⟨file, changed, node, links⟩ := setKind_spec made (has_of_deprecation? older)
  have gone : after.deprecation? id = none := by
    rw [deprecation?, changed]
    simp [modern]
  have same : ∀ other, other ≠ id → after.deprecation? other = tree.deprecation? other := fun other different =>
    deprecation?_congr file (congrArg Node.kind (node other different)) (congrArg Node.position (node other different))
  have hollows : ∀ other, tree.Hollow other → after.Hollow other := by
    intro other hollow child member
    rw [(links other).2.1] at member
    by_cases equal : child = id
    · have container := hollow child member
      rw [equal, element] at container
      cases container
    · rw [Tree.kind, node child equal]
      exact hollow child member
  refine ⟨wellFormed, fun other name tagged => ?_, fun other warning due => ?_, fun other due => ?_, fun other member => ?_,
    List.nodup_append_comm.1 (List.nodup_cons.2 ⟨ledger.untold older keeps, ledger.once⟩), ledger.distinct,
    fun other member => ?_, fun other apart unheld detached => ?_, fun other member => ?_⟩
  · by_cases equal : other = id
    · rw [equal, changed] at tagged ⊢
      rw [← Option.some.inj tagged]
    · rw [Tree.kind, node other equal] at tagged ⊢
      exact ledger.plain other name tagged
  · by_cases equal : other = id
    · rw [equal, gone] at due
      cases due
    · rw [same other equal] at due
      exact ledger.same other warning due
  · by_cases equal : other = id
    · rw [equal, gone]
      simp
    · rw [List.mem_append, List.mem_singleton, or_iff_left equal, ledger.balance other due, same other equal, Keeps, Keeps,
        (links other).2.2]
  · rcases List.mem_append.1 member with before | last
    · exact ledger.due other before
    · rw [List.mem_singleton.1 last]
      exact ledger.due_of_isSome older
  · obtain ⟨there, detached⟩ := ledger.loose other member
    exact ⟨(links other).1.2 there, (links other).2.2.trans detached⟩
  · rw [(links other).2.2] at detached
    exact hollows other (ledger.hollow other apart unheld detached)
  · obtain ⟨there, hollow⟩ := ledger.idle other member
    exact ⟨(links other).1.2 there, hollows other hollow⟩

end Ledger

end HtmlTemplate
