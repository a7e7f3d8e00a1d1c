import HtmlTemplate.Lowering
import HtmlTemplate.Proofs.Tree.Marks
import HtmlTemplate.Proofs.Tree.Rewiring

/-!
# Nodes in their places

Documents stand nowhere below other nodes, and branches stand in conditionals only, which hold nothing else
and have no branch behind one without a test. A tree whose nodes all stand in their places is lowered without
a fault.
-/

namespace HtmlTemplate

/-! ## What stands below a node -/

namespace Kind

/-- Nodes of the kind stand outside of conditionals, and below other nodes. -/
def isContent : Kind → Bool
  | document => false
  | branch _ => false
  | _ => true

/-- The kinds are those of branches, of which only the last one may have no test. -/
inductive AreBranches : List Kind → Prop
  | nil : AreBranches []
  | last (test : Option String) : AreBranches [branch test]
  | tested (test : String) {rest : List Kind} : AreBranches rest → AreBranches (branch (some test) :: rest)

/-- Nodes of these kinds may stand below a node of the kind, in this order. -/
def Takes (kind : Kind) (below : List Kind) : Prop :=
  if kind = conditional then AreBranches below else ∀ other ∈ below, other.isContent = true

variable {kind : Kind} {below : List Kind}

theorem takes_nil (kind : Kind) : kind.Takes [] := by
  unfold Takes
  split
  · exact .nil
  · exact fun _ member => absurd member List.not_mem_nil

theorem takes_iff_of_ne (other : kind ≠ conditional) :
    kind.Takes below ↔ ∀ other ∈ below, other.isContent = true := by
  rw [Takes, if_neg other]

theorem takes_conditional_iff : conditional.Takes below ↔ AreBranches below := by
  rw [Takes, if_pos rfl]

theorem AreBranches.exists_test (are : AreBranches below) (member : kind ∈ below) : ∃ test, kind = branch test := by
  induction are with
  | nil => exact absurd member List.not_mem_nil
  | last test => exact ⟨test, List.mem_singleton.1 member⟩
  | tested test _ hypothesis =>
      rcases List.mem_cons.1 member with same | member
      · exact ⟨some test, same⟩
      · exact hypothesis member

/-- A branch more is taken behind branches with tests. -/
theorem areBranches_append (open' : ∀ other ∈ below, ∃ test, other = branch (some test)) (test : Option String) :
    AreBranches (below ++ [branch test]) := by
  induction below with
  | nil => exact .last test
  | cons first below hypothesis =>
      obtain ⟨own, rfl⟩ := open' first List.mem_cons_self
      exact .tested own (hypothesis fun other member => open' other (List.mem_cons_of_mem _ member))

end Kind

namespace Tree

variable {tree before after : Tree} {id parent child other : NodeId} {owners moved : List NodeId}

/-- Below every node of the tree stand nodes that it takes. -/
def WellPlaced (tree : Tree) : Prop :=
  ∀ id, (tree.kind id).Takes ((tree.children id).map tree.kind)

theorem SameShape.wellPlaced (shape : before.SameShape after) (placed : before.WellPlaced) : after.WellPlaced := by
  intro id
  have kinds : after.kind = before.kind := funext shape.kind
  rw [shape.children, kinds]
  exact placed id

/-- Edits of links keep nodes in their places if the owners take what they have afterwards. -/
theorem Relinked.wellPlaced (relinked : before.Relinked owners moved after) (placed : before.WellPlaced)
    (takes : ∀ owner ∈ owners, (before.kind owner).Takes ((after.children owner).map before.kind)) :
    after.WellPlaced := by
  intro id
  have kinds : after.kind = before.kind := funext relinked.kind
  rw [kinds]
  by_cases owner : id ∈ owners
  · exact takes id owner
  · rw [relinked.children id owner]
    exact placed id

/-- A node that is listed under a conditional is a branch. -/
theorem WellPlaced.ne_conditional (placed : tree.WellPlaced) (member : child ∈ tree.children parent)
    (content : (tree.kind child).isContent = true) : tree.kind parent ≠ .conditional := by
  intro conditional
  have takes := placed parent
  rw [conditional, Kind.takes_conditional_iff] at takes
  obtain ⟨test, isBranch⟩ := takes.exists_test (List.mem_map_of_mem member)
  rw [isBranch] at content
  cases content

theorem WellPlaced.isContent (placed : tree.WellPlaced) (other : tree.kind parent ≠ .conditional)
    (member : child ∈ tree.children parent) : (tree.kind child).isContent = true :=
  (Kind.takes_iff_of_ne other).1 (placed parent) _ (List.mem_map_of_mem member)

/-- A new node leaves nodes in their places if it takes its children. -/
theorem WellPlaced.create {position : Position} {kind : Kind} {attributes : List (String × String)}
    {kids : List NodeId} {made : NodeId × Tree} (placed : tree.WellPlaced) (wellFormed : tree.WellFormed)
    (created : tree.create position kind attributes kids = .ok made) (present : ∀ kid ∈ kids, tree.Has kid)
    (takes : kind.Takes (kids.map tree.kind)) : made.2.WellPlaced := by
  obtain ⟨read, -, -, -, -, -, rfl⟩ := create_eq_ok_iff.1 created
  intro id
  have kinds : ∀ kid, tree.Has kid → ((tree.push { kind, attributes := read, children := kids, position }).2.setParents
      (some ⟨tree.size⟩) kids).kind kid = tree.kind kid := by
    intro kid has
    rw [kind_setParents, Tree.kind, node_push_of_has _ has, Tree.kind]
  by_cases new : id = ⟨tree.size⟩
  · rw [new, kind_setParents, children_setParents, Tree.kind, Tree.children, node_push_self,
      List.map_congr_left fun kid member => kinds kid (present kid member)]
    exact takes
  · have kept := List.map_congr_left fun kid (member : kid ∈ tree.children id) =>
      kinds kid (wellFormed.has_child member)
    rw [kind_setParents, children_setParents, Tree.kind, Tree.children, node_push_of_ne new]
    change (tree.kind id).Takes ((tree.children id).map _)
    rw [kept]
    exact placed id

/-- A tree as templates are read to, and as the walk over it keeps it. -/
structure IsTemplate (root : NodeId) (tree : Tree) : Prop where
  wellFormed : tree.WellFormed
  placed : tree.WellPlaced
  present : tree.Has root
  document : tree.kind root = .document
  top : tree.parent root = none
  /-- No tag has been bound to a renderer. -/
  plain : ∀ id tag, (tree.kind id).tag? = some tag → tree.kind id = .element tag

end Tree

/-! ## Lowering -/

namespace Lowering

variable {α β : Type} {tree : Tree} {choices : Preservation}

/-- The part of the lowering does not fail, whatever names are in scope. -/
def Succeeds (work : Lowering α) : Prop :=
  ∀ scope, ∃ value after, work scope = .ok (value, after)

theorem Succeeds.bind {first : Lowering α} {next : α → Lowering β} (begins : Succeeds first)
    (goesOn : ∀ value, Succeeds (next value)) : Succeeds (first >>= next) := by
  intro scope
  obtain ⟨value, between, began⟩ := begins scope
  obtain ⟨result, after, ended⟩ := goesOn value between
  refine ⟨result, after, ?_⟩
  change (first scope >>= fun pair => next pair.1 pair.2) = _
  rw [began]
  exact ended

theorem succeeds_pure (value : α) : Succeeds (pure value) :=
  fun scope => ⟨value, scope, rfl⟩

theorem succeeds_resolve (code : String) : Succeeds (resolve code) :=
  fun scope => ⟨_, scope, rfl⟩

theorem succeeds_declare (name : String) : Succeeds (declare name) :=
  fun _ => ⟨_, _, rfl⟩

theorem succeeds_hoist (hint init : String) : Succeeds (hoist hint init) :=
  fun _ => ⟨_, _, rfl⟩

theorem succeeds_writtenAttributes (node : Node) : Succeeds (writtenAttributes node) :=
  fun scope => ⟨_, scope, rfl⟩

theorem succeeds_mapM {work : α → Lowering β} {items : List α} (each : ∀ item ∈ items, Succeeds (work item)) :
    Succeeds (items.mapM work) := by
  induction items with
  | nil => exact succeeds_pure []
  | cons item items hypothesis =>
      rw [List.mapM_cons]
      refine (each item List.mem_cons_self).bind fun first => ?_
      exact (hypothesis fun other member => each other (List.mem_cons_of_mem _ member)).bind fun _ =>
        succeeds_pure _

theorem succeeds_inFrame {part : Lowering α} (succeeds : Succeeds part) : Succeeds (inFrame part) := by
  unfold inFrame
  refine Succeeds.bind (fun scope => ⟨(), _, rfl⟩) fun _ => succeeds.bind fun result => ?_
  exact Succeeds.bind (fun scope => ⟨(), _, rfl⟩) fun _ => succeeds_pure result

/-- Branches are lowered without a fault if what stands in them is. -/
theorem succeeds_lowerBranches {lowerBody : List NodeId → Lowering (List Fragment)} {closed : Bool} {ids : List NodeId}
    (are : Kind.AreBranches (ids.map tree.kind)) (fits : closed = true → ids = [])
    (bodies : ∀ id ∈ ids, Succeeds (lowerBody (tree.children id))) :
    Succeeds (lowerBranches tree lowerBody closed ids) := by
  induction ids generalizing closed with
  | nil => exact succeeds_pure []
  | cons id ids hypothesis =>
      have opened : closed = false := by
        by_contra shut
        cases fits (by simpa using shut)
      subst opened
      have goesOn : ∀ test, tree.kind id = .branch test →
          Succeeds (lowerBranches tree lowerBody test.isNone ids) →
            Succeeds (lowerBranches tree lowerBody false (id :: ids)) := by
        intro test kind rest
        unfold lowerBranches
        rw [kind]
        simp only [Bool.false_eq_true, if_false]
        have written : Succeeds (test.mapM resolve) := by
          cases test with
          | none => exact succeeds_pure none
          | some test => exact (succeeds_resolve test).bind fun _ => succeeds_pure _
        refine written.bind fun _ => (bodies id List.mem_cons_self).bind fun _ => ?_
        exact rest.bind fun _ => succeeds_pure _
      have others := fun other member => bodies other (List.mem_cons_of_mem id member)
      generalize kinds : (id :: ids).map tree.kind = list at are
      cases are with
      | nil => cases kinds
      | last test =>
          obtain ⟨kind, rest⟩ := List.cons.inj kinds
          obtain rfl := List.map_eq_nil_iff.1 rest
          exact goesOn test kind (succeeds_pure [])
      | tested test are =>
          obtain ⟨kind, rfl⟩ := List.cons.inj kinds
          exact goesOn (some test) kind (hypothesis are (fun impossible => by cases impossible) others)

/-- A node in its place, with all that is below it, is lowered without a fault. -/
theorem succeeds_lowerNode (placed : tree.WellPlaced) (budget : Nat) {region : Region} {id : NodeId}
    (inPlace : (tree.kind id).isContent = true ∨ tree.kind id = .document ∧ region.top = true) :
    Succeeds (lowerNode tree choices budget region id) := by
  induction budget generalizing region id with
  | zero => exact succeeds_pure []
  | succ budget hypothesis =>
      have below : ∀ region : Region, ∀ parent, tree.kind parent ≠ .conditional →
          Succeeds (do return (← (tree.children parent).mapM (lowerNode tree choices budget region)).flatten) := by
        intro region parent other
        refine (succeeds_mapM fun child member => ?_).bind fun _ => succeeds_pure _
        exact hypothesis (.inl (placed.isContent other member))
      have body : ∀ region : Region, tree.kind id ≠ .conditional →
          Succeeds (do return (← (tree.node id).children.mapM (lowerNode tree choices budget region)).flatten) :=
        fun region other => below region id other
      unfold lowerNode
      dsimp only
      have same : (tree.node id).kind = tree.kind id := rfl
      rw [same]
      cases kind : tree.kind id with
      | document =>
          rcases inPlace with content | ⟨-, top⟩
          · rw [kind] at content
            cases content
          · dsimp only
            rw [if_pos top]
            exact body _ (by rw [kind]; exact fun same => by cases same)
      | element tag =>
          refine (succeeds_writtenAttributes _).bind fun _ => ?_
          exact (body _ (by rw [kind]; exact fun same => by cases same)).bind fun _ => succeeds_pure _
      | customTag name renderer =>
          refine (succeeds_hoist _ _).bind fun _ => (succeeds_writtenAttributes _).bind fun _ => ?_
          exact (body _ (by rw [kind]; exact fun same => by cases same)).bind fun _ => succeeds_pure _
      | text value => exact succeeds_pure _
      | placeholder code escape => exact (succeeds_resolve code).bind fun _ => succeeds_pure _
      | conditional =>
          have takes := placed id
          rw [kind, Kind.takes_conditional_iff] at takes
          refine Succeeds.bind (succeeds_lowerBranches takes (fun impossible => by cases impossible) ?_)
            fun _ => succeeds_pure _
          intro branch member
          obtain ⟨test, isBranch⟩ := takes.exists_test (List.mem_map_of_mem member)
          exact below _ branch (by rw [isBranch]; exact fun same => by cases same)
      | branch test =>
          rcases inPlace with content | ⟨document, -⟩
          · rw [kind] at content
            cases content
          · cases kind.symm.trans document
      | iteration item index source =>
          refine (succeeds_resolve source).bind fun _ => succeeds_inFrame ?_
          refine (succeeds_declare _).bind fun _ => (succeeds_declare _).bind fun _ => (succeeds_declare _).bind fun _ => ?_
          exact (body _ (by rw [kind]; exact fun same => by cases same)).bind fun _ => succeeds_pure _
      | comment value emit => exact succeeds_pure _
      | doctype name => exact succeeds_pure _

end Lowering
end HtmlTemplate
