import HtmlTemplate.Proofs.Tree.Effect
import HtmlTemplate.Proofs.Tree.Marks

/-!
# Sequences of edits

An edit as data: what is done, and to which nodes. The marks of the walk are among them. Edits are run one after the
other on a tree, and those that are refused leave it as it is. A node is touched only by edits of the node itself, of
its parent and of its children.
-/

namespace HtmlTemplate
namespace Tree

/-- An edit and the nodes that it is applied to. -/
inductive Edit
  | create (position : Position) (kind : Kind) (attributes : List (String × String)) (children : List NodeId)
  | clone (id : NodeId) (deep : Bool)
  | append (parent child : NodeId)
  | insertBefore (parent child reference : NodeId)
  | remove (parent child : NodeId)
  | replace (parent old new : NodeId)
  | detach (id : NodeId)
  | takeChildren (id : NodeId)
  | setKind (id : NodeId) (kind : Kind)
  | setAttribute (id : NodeId) (name raw : String)
  | removeAttribute (id : NodeId) (name : String)
  | setPosition (id : NodeId) (position : Position)
  | setPreserve (id : NodeId) (preserve : Bool)
  | setState (id : NodeId) (state : WalkState)

namespace Edit

/-- The nodes that the edit is applied to. -/
def operands : Edit → List NodeId
  | create _ _ _ children => children
  | clone id _ => [id]
  | append parent child => [parent, child]
  | insertBefore parent child reference => [parent, child, reference]
  | remove parent child => [parent, child]
  | replace parent old new => [parent, old, new]
  | detach id => [id]
  | takeChildren id => [id]
  | setKind id _ => [id]
  | setAttribute id _ _ => [id]
  | removeAttribute id _ => [id]
  | setPosition id _ => [id]
  | setPreserve id _ => [id]
  | setState id _ => [id]

/-- What the edit makes of a tree. -/
def apply (tree : Tree) : Edit → Except Fault Tree
  | create position kind attributes children => (tree.create position kind attributes children).map Prod.snd
  | clone id deep => .ok (tree.clone id deep).2
  | append parent child => tree.append parent child
  | insertBefore parent child reference => tree.insertBefore parent child reference
  | remove parent child => tree.remove parent child
  | replace parent old new => tree.replace parent old new
  | detach id => tree.detach id
  | takeChildren id => .ok (tree.takeChildren id).2
  | setKind id kind => tree.setKind id kind
  | setAttribute id name raw => tree.setAttribute id name raw
  | removeAttribute id name => .ok (tree.removeAttribute id name).2
  | setPosition id position => .ok (tree.setPosition id position)
  | setPreserve id preserve => .ok (tree.setPreserve id preserve)
  | setState id state => .ok (tree.setState id state)

/-- The tree after the edit. It is the same if the edit is refused, or meant for a node that was not made. -/
def run (tree : Tree) (edit : Edit) : Tree :=
  if ∀ id ∈ edit.operands, tree.Has id then
    match edit.apply tree with
    | .ok after => after
    | .error _ => tree
  else tree

end Edit

/-- The tree after edits, one after the other. -/
def afterEdits (tree : Tree) (edits : List Edit) : Tree :=
  edits.foldl Edit.run tree

variable {tree after : Tree} {edit : Edit} {id : NodeId}

/-! ## Edits lead from tree to tree -/

theorem Edit.exists_created {position : Position} {kind : Kind} {attributes : List (String × String)}
    {children : List NodeId} (made : (create position kind attributes children).apply tree = .ok after) :
    ∃ id, tree.create position kind attributes children = .ok (id, after) := by
  rw [apply] at made
  cases created : tree.create position kind attributes children with
  | error fault =>
      rw [created] at made
      cases made
  | ok result =>
      rw [created] at made
      cases made
      exact ⟨result.1, rfl⟩

/-- An edit that is not refused leads to the next tree, and one that only marks a node leaves the shape of the tree. -/
theorem Edit.edited (present : ∀ id ∈ edit.operands, tree.Has id) (made : edit.apply tree = .ok after) :
    tree.Edited after ∨ tree.SameShape after := by
  cases edit with
  | create position kind attributes children =>
      obtain ⟨id, created⟩ := exists_created made
      exact .inl (.create present created)
  | clone id deep =>
      cases made
      exact .inl (.clone id deep)
  | append parent child =>
      exact .inl (.append (present parent (by simp [operands])) (present child (by simp [operands])) made)
  | insertBefore parent child reference => exact .inl (.insertBefore (present child (by simp [operands])) made)
  | remove parent child => exact .inl (.remove made)
  | replace parent old new => exact .inl (.replace (present new (by simp [operands])) made)
  | detach id => exact .inl (.detach made)
  | takeChildren id =>
      cases made
      exact .inl (.takeChildren id)
  | setKind id kind => exact .inl (.setKind made)
  | setAttribute id name raw => exact .inl (.setAttribute made)
  | removeAttribute id name =>
      cases made
      exact .inl (.removeAttribute id name)
  | setPosition id position =>
      cases made
      exact .inl (.setPosition id position)
  | setPreserve id preserve =>
      cases made
      exact .inl (.setPreserve id preserve)
  | setState id state =>
      cases made
      exact .inr (sameShape_setState tree id state)

/-- What holds of a tree holds after an edit, if it holds of what the edit makes when it is not refused. -/
theorem Edit.run_induction {motive : Tree → Prop} (tree : Tree) (edit : Edit) (start : motive tree)
    (step : ∀ after, (∀ id ∈ edit.operands, tree.Has id) → edit.apply tree = .ok after → motive after) :
    motive (edit.run tree) := by
  unfold run
  split
  · next present =>
      split
      · next after made => exact step after present made
      · exact start
  · exact start

theorem Edit.wellFormed_run (edit : Edit) (wellFormed : tree.WellFormed) : (edit.run tree).WellFormed := by
  refine edit.run_induction tree wellFormed fun after present made => ?_
  rcases edit.edited present made with edited | same
  · exact edited.wellFormed wellFormed
  · exact same.wellFormed wellFormed

theorem Edit.has_run (edit : Edit) (wellFormed : tree.WellFormed) (known : tree.Has id) : (edit.run tree).Has id := by
  refine edit.run_induction tree (motive := fun after => after.Has id) known fun after present made => ?_
  rcases edit.edited present made with edited | same
  · exact (edited.grows wellFormed).has known
  · exact same.has_iff.2 known

theorem WellFormed.afterEdits (wellFormed : tree.WellFormed) (edits : List Edit) :
    (tree.afterEdits edits).WellFormed := by
  induction edits generalizing tree with
  | nil => exact wellFormed
  | cons edit edits hypothesis => exact hypothesis (edit.wellFormed_run wellFormed)

/-- What edits make from nothing is well formed. -/
theorem wellFormed_afterEdits (file : String) (edits : List Edit) :
    (({ file } : Tree).afterEdits edits).WellFormed :=
  WellFormed.afterEdits (wellFormed_of_unlinked fun _ member => absurd member List.not_mem_nil) edits

/-! ## What edits do -/

/-- After the edit nodes hold what some node held before, or what the edit brings with it and was checked. -/
inductive Edit.Leaves (tree : Tree) : Edit → Kind → List Attribute → Prop
  | kept {edit : Edit} (id : NodeId) : Leaves tree edit (tree.kind id) (tree.node id).attributes
  | made {position : Position} {kind : Kind} {given : List (String × String)} {children : List NodeId}
      {read : List Attribute} : kind.check = .ok () → List.Forall₂ (Attribute.IsRead position) given read →
      Leaves tree (.create position kind given children) kind read
  | turned {id : NodeId} {kind : Kind} : kind.check = .ok () →
      Leaves tree (.setKind id kind) kind (tree.node id).attributes
  | put {id : NodeId} {name raw : String} {read : Attribute} :
      Attribute.IsRead (tree.node id).position (name, raw) read →
      Leaves tree (.setAttribute id name raw) (tree.kind id) (putAttribute read (tree.node id).attributes)
  | taken {id : NodeId} {name : String} :
      Leaves tree (.removeAttribute id name) (tree.kind id)
        ((tree.node id).attributes.eraseP fun candidate => candidate.name == name)

/-- The node, its parent and its children are all out of reach. -/
structure Aloof (tree : Tree) (reach : NodeId → Prop) (id : NodeId) : Prop where
  self : ¬reach id
  parent : ∀ parent, tree.parent id = some parent → ¬reach parent
  children : ∀ child ∈ tree.children id, ¬reach child

/-- All that an edit does: it changes links next to the nodes that it is applied to, or what one of them holds, or it
makes a node more that adopts some of them, or it copies nodes. -/
inductive Edit.Effect (tree : Tree) (edit : Edit) (after : Tree) : Prop
  | links {parents : NodeId → Option NodeId} {children : NodeId → List NodeId} :
      tree.WithLinks parents children after →
      (∀ id, tree.Aloof (· ∈ edit.operands) id → parents id = tree.parent id ∧ children id = tree.children id) →
      Effect tree edit after
  | contents {id : NodeId} {node : Node} : id ∈ edit.operands → tree.WithNode id node after →
      edit.Leaves tree node.kind node.attributes → Effect tree edit after
  | made {new : Node} {children : List NodeId} : children ⊆ edit.operands → tree.WithParent new children after →
      edit.Leaves tree new.kind new.attributes → Effect tree edit after
  | copied : tree.Extends after → tree.Repeats after → Effect tree edit after

theorem Edit.effect_apply (wellFormed : tree.WellFormed) (present : ∀ id ∈ edit.operands, tree.Has id)
    (made : edit.apply tree = .ok after) : edit.Effect tree after := by
  -- a node that is aloof is none of the operands
  have apart : ∀ {id}, tree.Aloof (· ∈ edit.operands) id → ∀ operand ∈ edit.operands, id ≠ operand := by
    rintro id aloof operand member rfl
    exact aloof.self member
  cases edit with
  | create position kind attributes children =>
      obtain ⟨new, created⟩ := exists_created made
      have isExact := isExact_create position kind attributes present
      obtain ⟨checked, -⟩ := isExact.succeeds.1 ⟨_, created⟩
      obtain ⟨-, read, attributesRead, joined⟩ := isExact.gives _ created
      exact .made (List.Subset.refl children) joined (.made checked attributesRead)
  | clone source deep =>
      cases made
      exact .copied (extends_cloneWithin _ source tree).1 (repeats_cloneWithin _ source tree)
  | append parent child =>
      simp only [operands, List.forall_mem_cons] at apart present
      refine .links ((wellFormed.isExact_append present.1 present.2.1).gives after made) fun id aloof => ?_
      obtain ⟨notParent, notChild, -⟩ := apart aloof
      exact ⟨Function.update_of_ne notChild _ _, Function.update_of_ne notParent _ _⟩
  | insertBefore parent child reference =>
      simp only [operands, List.forall_mem_cons] at apart present
      obtain ⟨_, _, -, links⟩ := (wellFormed.isExact_insertBefore present.2.1 reference).gives after made
      refine .links links fun id aloof => ?_
      obtain ⟨notParent, notChild, -⟩ := apart aloof
      exact ⟨Function.update_of_ne notChild _ _, Function.update_of_ne notParent _ _⟩
  | remove parent child =>
      simp only [operands, List.forall_mem_cons] at apart
      obtain ⟨_, _, -, links⟩ := (wellFormed.isExact_remove parent child).gives after made
      refine .links links fun id aloof => ?_
      obtain ⟨notParent, notChild, -⟩ := apart aloof
      exact ⟨Function.update_of_ne notChild _ _, Function.update_of_ne notParent _ _⟩
  | replace parent old new =>
      simp only [operands, List.forall_mem_cons] at apart present
      obtain ⟨_, _, -, links⟩ := (wellFormed.isExact_replace parent old present.2.2.1).gives after made
      refine .links links fun id aloof => ?_
      obtain ⟨notParent, notOld, notNew, -⟩ := apart aloof
      refine ⟨?_, Function.update_of_ne notParent _ _⟩
      rw [Function.update_of_ne notNew, Function.update_of_ne notOld]
  | detach child =>
      rw [apply, Tree.detach] at made
      split at made
      · next parent linked =>
          obtain ⟨_, _, -, links⟩ := (wellFormed.isExact_remove parent child).gives after made
          refine .links links fun id aloof => ⟨Function.update_of_ne (apart aloof child List.mem_cons_self) _ _, ?_⟩
          refine Function.update_of_ne ?_ _ _
          rintro rfl
          exact aloof.children child ((wellFormed.linked id child).2 linked) List.mem_cons_self
      · cases made
        exact .links (.refl tree) fun _ _ => ⟨rfl, rfl⟩
  | takeChildren parent =>
      cases made
      refine .links (wellFormed.withLinks_takeChildren (present parent List.mem_cons_self)) fun id aloof =>
        ⟨if_neg fun member => ?_, Function.update_of_ne (apart aloof parent List.mem_cons_self) _ _⟩
      exact aloof.parent parent ((wellFormed.linked parent id).1 member) List.mem_cons_self
  | setKind target kind =>
      have isExact := isExact_setKind (present target List.mem_cons_self) kind
      exact .contents List.mem_cons_self (isExact.gives after made) (.turned (isExact.succeeds.1 ⟨after, made⟩).1)
  | setAttribute target name raw =>
      obtain ⟨read, isRead, changed⟩ := (isExact_setAttribute (present target List.mem_cons_self) name raw).gives after made
      exact .contents List.mem_cons_self changed (.put isRead)
  | removeAttribute target name =>
      cases made
      exact .contents List.mem_cons_self (withNode_update (present target List.mem_cons_self) _) .taken
  | setPosition target position =>
      cases made
      exact .contents List.mem_cons_self (withNode_update (present target List.mem_cons_self) _) (.kept target)
  | setPreserve target preserve =>
      cases made
      exact .contents List.mem_cons_self (withNode_update (present target List.mem_cons_self) _) (.kept target)
  | setState target state =>
      cases made
      exact .contents List.mem_cons_self (withNode_update (present target List.mem_cons_self) _) (.kept target)

/-! ## What edits leave alone -/

variable {reach : NodeId → Prop}

theorem Aloof.mono {within : NodeId → Prop} (aloof : tree.Aloof reach id) (subset : ∀ id, within id → reach id) :
    tree.Aloof within id where
  self inside := aloof.self (subset id inside)
  parent other linked inside := aloof.parent other linked (subset other inside)
  children other listed inside := aloof.children other listed (subset other inside)

/-- Nodes that are aloof from the operands of an edit stay as they are. -/
theorem Edit.Effect.node_eq (effect : edit.Effect tree after) (known : tree.Has id)
    (aloof : tree.Aloof (· ∈ edit.operands) id) : after.node id = tree.node id := by
  cases effect with
  | links links keeps => exact links.node_eq (keeps id aloof).1 (keeps id aloof).2
  | contents operand changed _ =>
      rw [changed.node, Function.update_of_ne]
      rintro rfl
      exact aloof.self operand
  | made subset joined _ => exact joined.others id (fun member => aloof.self (subset member)) (ne_size_of_has known)
  | copied extension _ => exact extension.node_of_has id known

/-- Nodes that are out of reach of all edits stay as they are. -/
theorem WellFormed.node_afterEdits (wellFormed : tree.WellFormed) {edits : List Edit}
    (within : ∀ edit ∈ edits, ∀ id ∈ edit.operands, reach id) (known : tree.Has id) (aloof : tree.Aloof reach id) :
    (tree.afterEdits edits).node id = tree.node id := by
  induction edits generalizing tree with
  | nil => rfl
  | cons edit edits hypothesis =>
      obtain ⟨first, rest⟩ := List.forall_mem_cons.1 within
      have same : (edit.run tree).node id = tree.node id :=
        edit.run_induction tree (motive := fun after => after.node id = tree.node id) rfl fun after present made =>
          (edit.effect_apply wellFormed present made).node_eq known (aloof.mono first)
      have kept : (edit.run tree).Aloof reach id := by
        refine ⟨aloof.self, ?_, ?_⟩
        · rw [Tree.parent, same]
          exact aloof.parent
        · rw [Tree.children, same]
          exact aloof.children
      exact (hypothesis (edit.wellFormed_run wellFormed) rest (edit.has_run wellFormed known) kept).trans same

end Tree
end HtmlTemplate
