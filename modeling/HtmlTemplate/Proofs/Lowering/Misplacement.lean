import HtmlTemplate.CodeModule
import HtmlTemplate.Proofs.EditScript
import HtmlTemplate.Proofs.Lowering.Course
import HtmlTemplate.Proofs.Placement.Kinds

/-!
# Misplaced nodes

A document may only be the root. Branches stand in conditionals, which hold nothing else, and none of them
follows one without a test. The lowering asks this of each node when it comes to it, and of the innermost
construct around the node only. It fails at the first node in the order of the document that is misplaced in
the tree, and whenever there is one.
-/

namespace HtmlTemplate
namespace Tree

/-- The node is a child of a conditional in the tree below the root. -/
def InConditional (tree : Tree) (root id : NodeId) : Prop :=
  ∃ parent, tree.OnPath root parent ∧ tree.kind parent = .conditional ∧ id ∈ tree.children parent

/-- The node may not stand where it does in the tree below the root. -/
inductive Misplaced (tree : Tree) (root id : NodeId) : Prop
  | nestedDocument : tree.kind id = .document → id ≠ root → Misplaced tree root id
  | strayBranch (test : Option String) :
      tree.kind id = .branch test → ¬tree.InConditional root id → Misplaced tree root id
  | noBranch : tree.InConditional root id → (∀ test, tree.kind id ≠ .branch test) → Misplaced tree root id
  | afterLast (parent last : NodeId) (before after : List NodeId) :
      tree.OnPath root parent → tree.kind parent = .conditional → tree.children parent = before ++ id :: after →
      last ∈ before → tree.kind last = .branch none → Misplaced tree root id

/-- The fault is at the first one of the nodes that is misplaced, and says that its kind is not supported there. -/
def FirstMisplaced (tree : Tree) (root : NodeId) (ids : List NodeId) (fault : Fault) : Prop :=
  ∃ before id after cause, ids = before ++ id :: after ∧ (∀ other ∈ before, ¬tree.Misplaced root other) ∧
    tree.Misplaced root id ∧ cause.faultClass = .unsupportedNode ∧ fault = tree.faultAt id cause

variable {tree : Tree} {root id parent : NodeId}

/-! ## Places in well-formed trees -/

theorem WellFormed.onPath_child (wellFormed : tree.WellFormed) (below : tree.OnPath root parent)
    (member : id ∈ tree.children parent) : tree.OnPath root id :=
  .step ((wellFormed.linked parent id).1 member) below

/-- No node of the tree lists the root. -/
theorem WellFormed.ne_root (wellFormed : tree.WellFormed) (below : tree.OnPath root parent)
    (member : id ∈ tree.children parent) : id ≠ root := by
  rintro rfl
  obtain ⟨depth, grounded⟩ := wellFormed.grounded id
  exact not_onPath_parent grounded ((wellFormed.linked parent id).1 member) below

theorem WellFormed.not_inConditional_root (wellFormed : tree.WellFormed) : ¬tree.InConditional root root := by
  rintro ⟨parent, below, -, member⟩
  exact wellFormed.ne_root below member rfl

theorem WellFormed.not_inConditional (wellFormed : tree.WellFormed) (other : tree.kind parent ≠ .conditional)
    (member : id ∈ tree.children parent) : ¬tree.InConditional root id := by
  rintro ⟨conditional, -, kind, listed⟩
  have linked := (wellFormed.linked parent id).1 member
  cases linked.symm.trans ((wellFormed.linked conditional id).1 listed)
  exact other kind

/-- Outside conditionals all nodes but branches and inner documents are in their place. -/
theorem not_misplaced_outside (outside : ¬tree.InConditional root id) (noBranch : ∀ test, tree.kind id ≠ .branch test)
    (document : tree.kind id = .document → id = root) : ¬tree.Misplaced root id := by
  rintro (⟨kind, below⟩ | ⟨test, kind, -⟩ | ⟨inside, -⟩ | ⟨parent, last, before, after, below, kind, listed, -, -⟩)
  · exact below (document kind)
  · exact noBranch test kind
  · exact outside inside
  · exact outside ⟨parent, below, kind, by simp [listed]⟩

/-- In a conditional a branch is in its place when all branches before it have tests. -/
theorem WellFormed.not_misplaced_branch (wellFormed : tree.WellFormed) {test : Option String}
    {before after : List NodeId}
    (below : tree.OnPath root parent) (conditional : tree.kind parent = .conditional)
    (listed : tree.children parent = before ++ id :: after) (kind : tree.kind id = .branch test)
    (tested : ∀ last ∈ before, tree.kind last ≠ .branch none) : ¬tree.Misplaced root id := by
  have member : id ∈ tree.children parent := by simp [listed]
  rintro (⟨document, -⟩ | ⟨-, -, stray⟩ | ⟨-, other⟩ | ⟨place, last, earlier, later, -, -, there, among, isLast⟩)
  · cases kind.symm.trans document
  · exact stray ⟨parent, below, conditional, member⟩
  · exact other test kind
  · have linked := (wellFormed.linked parent id).1 member
    have same : tree.parent id = some place := (wellFormed.linked place id).1 (by simp [there])
    cases linked.symm.trans same
    have nodup := listed ▸ wellFormed.nodup parent
    rw [List.nodup_append, List.nodup_cons] at nodup
    obtain ⟨-, ⟨notAfter, -⟩, apart⟩ := nodup
    have notBefore : id ∉ before := fun among => apart id among id List.mem_cons_self rfl
    obtain ⟨rfl, -⟩ := (List.append_cons_inj_of_notMem notBefore notAfter).1 (listed.symm.trans there)
    exact tested last among isLast

end Tree

/-! ## Lowering as an inspection -/

namespace Lowering

variable {α β : Type} {tree : Tree} {root id parent : NodeId} {ids others : List NodeId}

/-- The part of the lowering looks through the nodes. It fails at the first misplaced one, if there is one. -/
def Inspects (tree : Tree) (root : NodeId) (work : Lowering α) (ids : List NodeId) : Prop :=
  ∀ scope,
    ((∀ id ∈ ids, ¬tree.Misplaced root id) ∧ ∃ value after, work scope = .ok (value, after)) ∨
      ∃ fault, tree.FirstMisplaced root ids fault ∧ work scope = .error fault

theorem Inspects.bind {first : Lowering α} {next : α → Lowering β} (begins : Inspects tree root first ids)
    (goesOn : ∀ value, Inspects tree root (next value) others) :
    Inspects tree root (first >>= next) (ids ++ others) := by
  intro scope
  change _ ∨ ∃ fault, _ ∧ (first scope >>= fun pair => next pair.1 pair.2) = _
  rcases begins scope with ⟨placed, value, middle, began⟩ | ⟨fault, ⟨before, id, after, cause, rfl, rest⟩, failed⟩
  · rcases goesOn value middle with
      ⟨also, result, last, ended⟩ | ⟨fault, ⟨before, id, after, cause, rfl, earlier, rest⟩, failed⟩
    · refine .inl ⟨fun id member => (List.mem_append.1 member).elim (placed id) (also id), result, last, ?_⟩
      change (first scope >>= fun pair => next pair.1 pair.2) = _
      rw [began]
      exact ended
    · refine .inr ⟨fault, ⟨ids ++ before, id, after, cause, (List.append_assoc ids before _).symm, ?_, rest⟩, ?_⟩
      · exact fun other member => (List.mem_append.1 member).elim (placed other) (earlier other)
      · rw [began]
        exact failed
  · refine .inr ⟨fault, ⟨before, id, after ++ others, cause, by simp, rest⟩, ?_⟩
    rw [failed]
    rfl

theorem Succeeds.inspects {work : Lowering α} (succeeds : Succeeds work) : Inspects tree root work [] :=
  fun scope => .inl ⟨fun _ impossible => absurd impossible List.not_mem_nil, succeeds scope⟩

/-- A part that cannot fail looks at no node. -/
theorem Succeeds.inspects_bind {first : Lowering α} {next : α → Lowering β} (begins : Succeeds first)
    (goesOn : ∀ value, Inspects tree root (next value) ids) : Inspects tree root (first >>= next) ids :=
  begins.inspects.bind goesOn

theorem Inspects.bind_succeeds {first : Lowering α} {next : α → Lowering β} (begins : Inspects tree root first ids)
    (goesOn : ∀ value, Succeeds (next value)) : Inspects tree root (first >>= next) ids := by
  have whole := begins.bind fun value => (goesOn value).inspects
  rwa [List.append_nil] at whole

/-- A node in its place is passed by. -/
theorem Inspects.cons {work : Lowering α} (placed : ¬tree.Misplaced root id) (inspects : Inspects tree root work ids) :
    Inspects tree root work (id :: ids) :=
  have one : Inspects tree root (pure ()) [id] :=
    fun scope => .inl ⟨fun _ member => List.mem_singleton.1 member ▸ placed, (), scope, rfl⟩
  one.bind fun _ => inspects

theorem inspects_failAt {cause : Cause} (misplaced : tree.Misplaced root id)
    (unsupported : cause.faultClass = .unsupportedNode) :
    Inspects tree root (failAt tree id cause : Lowering α) (id :: ids) :=
  fun _ => .inr ⟨_, ⟨[], id, ids, cause, rfl, fun _ impossible => absurd impossible List.not_mem_nil, misplaced,
    unsupported, rfl⟩, rfl⟩

theorem inspects_mapM {work : NodeId → Lowering β} {span : NodeId → List NodeId}
    (each : ∀ id ∈ ids, Inspects tree root (work id) (span id)) :
    Inspects tree root (ids.mapM work) (ids.flatMap span) := by
  induction ids with
  | nil => exact (succeeds_pure []).inspects
  | cons id ids hypothesis =>
      rw [List.mapM_cons, List.flatMap_cons]
      refine (each id List.mem_cons_self).bind fun first => ?_
      refine (hypothesis fun other member => each other (List.mem_cons_of_mem _ member)).bind_succeeds fun _ => ?_
      exact succeeds_pure _

theorem succeeds_resolveTest (test : Option String) : Succeeds (test.mapM resolve : Lowering (Option String)) := by
  intro scope
  exact ⟨_, _, resolve_mapM test scope⟩

/-- The flag tells of a branch without a test among those before, so that what follows is looked at in order. -/
theorem inspects_lowerBranches (wellFormed : tree.WellFormed) {lowerBody : List NodeId → Lowering (List Fragment)}
    {closed : Bool} (before : List NodeId) (below : tree.OnPath root parent)
    (conditional : tree.kind parent = .conditional)
    (listed : tree.children parent = before ++ ids)
    (closes : closed = true ↔ ∃ last ∈ before, tree.kind last = .branch none)
    (bodies : ∀ id ∈ ids, ∀ test, tree.kind id = .branch test →
      Inspects tree root (lowerBody (tree.children id)) ((tree.children id).flatMap tree.preorder)) :
    Inspects tree root (lowerBranches tree lowerBody closed ids) (ids.flatMap tree.preorder) := by
  induction ids generalizing before closed with
  | nil => exact (succeeds_pure []).inspects
  | cons id ids hypothesis =>
      have inside : tree.InConditional root id := ⟨parent, below, conditional, by simp [listed]⟩
      unfold lowerBranches
      rw [List.flatMap_cons, wellFormed.preorder_eq, List.cons_append]
      cases kind : tree.kind id with
      | branch test =>
          dsimp only
          cases closed with
          | true =>
              obtain ⟨last, among, isLast⟩ := closes.1 rfl
              exact inspects_failAt (.afterLast parent last before ids below conditional listed among isLast) rfl
          | false =>
              have tested : ∀ last ∈ before, tree.kind last ≠ .branch none :=
                fun last among isLast => Bool.false_ne_true (closes.2 ⟨last, among, isLast⟩)
              refine .cons (wellFormed.not_misplaced_branch below conditional listed kind tested) ?_
              refine (succeeds_resolveTest test).inspects_bind fun written => ?_
              refine (bodies id List.mem_cons_self test kind).bind fun body => ?_
              refine (hypothesis (before ++ [id]) (by simp [listed]) ?_ fun other member =>
                bodies other (List.mem_cons_of_mem _ member)).bind_succeeds fun _ => succeeds_pure _
              rw [Option.isNone_iff_eq_none]
              constructor
              · rintro rfl
                exact ⟨id, by simp, kind⟩
              · rintro ⟨last, among, isLast⟩
                rcases List.mem_append.1 among with earlier | same
                · exact absurd isLast (tested last earlier)
                · cases List.mem_singleton.1 same
                  cases kind.symm.trans isLast
                  rfl
      | document =>
          exact inspects_failAt (.noBranch inside fun test other => by cases kind.symm.trans other) rfl
      | _ => exact inspects_failAt (.noBranch inside fun test other => by cases kind.symm.trans other) rfl

/-- Where the lowering comes to a node: at the root, or below a node that is no conditional. -/
structure Arrives (tree : Tree) (root : NodeId) (region : Region) (id : NodeId) : Prop where
  below : tree.OnPath root id
  top : region.top = true ↔ id = root
  outside : ¬tree.InConditional root id

theorem arrives_child (wellFormed : tree.WellFormed) {region : Region} (below : tree.OnPath root parent)
    (other : tree.kind parent ≠ .conditional) (inner : region.top = false) (member : id ∈ tree.children parent) :
    Arrives tree root region id where
  below := wellFormed.onPath_child below member
  top := by
    rw [inner]
    exact ⟨nofun, fun same => absurd same (wellFormed.ne_root below member)⟩
  outside := wellFormed.not_inConditional other member

/-- The lowering of a node looks through all that is below it, in the order of the document. -/
theorem inspects_lowerNode (choices : Preservation) (wellFormed : tree.WellFormed) {budget depth : Nat}
    {region : Region} (grounded : tree.Depth id depth) (enough : tree.size < depth + budget)
    (arrives : Arrives tree root region id) :
    Inspects tree root (lowerNode tree choices budget region id) (tree.preorder id) := by
  induction budget generalizing region id depth with
  | zero =>
      have bound := wellFormed.depth_le_size grounded
      omega
  | succ budget hypothesis =>
      have within : ∀ (region : Region) (parent : NodeId) (depth : Nat), region.top = false →
          tree.Depth parent depth → tree.size < depth + (budget + 1) → tree.OnPath root parent →
          tree.kind parent ≠ .conditional →
          Inspects tree root
            (do return (← (tree.children parent).mapM (lowerNode tree choices budget region)).flatten)
            ((tree.children parent).flatMap tree.preorder) := by
        intro region parent depth inner grounded enough below other
        refine (inspects_mapM fun child member => ?_).bind_succeeds fun _ => succeeds_pure _
        have linked := (wellFormed.linked parent child).1 member
        exact hypothesis (.child linked grounded) (by omega) (arrives_child wellFormed below other inner member)
      have placed : ∀ {kind : Kind}, tree.kind id = kind → (∀ test, kind ≠ .branch test) → kind ≠ .document →
          ¬tree.Misplaced root id := by
        rintro _ rfl noBranch noDocument
        exact Tree.not_misplaced_outside arrives.outside noBranch fun document => absurd document noDocument
      have body := fun (region : Region) (inner : region.top = false) (other : tree.kind id ≠ .conditional) =>
        within region id depth inner grounded enough arrives.below other
      have leaf : ∀ {kind : Kind} {work : Lowering (List Fragment)}, tree.kind id = kind → kind.isContainer = false →
          Succeeds work → Inspects tree root work ((tree.children id).flatMap tree.preorder) := by
        rintro _ work rfl noContainer succeeds
        have empty : tree.children id = [] := by
          by_contra full
          exact Bool.false_ne_true (noContainer.symm.trans (wellFormed.contained id full))
        rw [empty]
        exact succeeds.inspects
      rw [wellFormed.preorder_eq]
      unfold lowerNode
      dsimp only
      rw [show (tree.node id).kind = tree.kind id from rfl]
      cases kind : tree.kind id with
      | document =>
          have other : tree.kind id ≠ .conditional := by rw [kind]; exact nofun
          dsimp only
          split
          · next top =>
              refine .cons ?_ (body _ rfl other)
              exact Tree.not_misplaced_outside arrives.outside (by rw [kind]; exact nofun) fun _ => arrives.top.1 top
          · next inner => exact inspects_failAt (.nestedDocument kind (mt arrives.top.2 inner)) rfl
      | element tag =>
          refine .cons (placed kind nofun nofun) ((succeeds_writtenAttributes _).inspects_bind fun _ => ?_)
          exact (body _ rfl (by rw [kind]; exact nofun)).bind_succeeds fun _ => succeeds_pure _
      | customTag name renderer =>
          refine .cons (placed kind nofun nofun) ((succeeds_hoist _ _).inspects_bind fun _ => ?_)
          refine (succeeds_writtenAttributes _).inspects_bind fun _ => ?_
          exact (body _ rfl (by rw [kind]; exact nofun)).bind_succeeds fun _ => succeeds_pure _
      | conditional =>
          refine .cons (placed kind nofun nofun) (Inspects.bind_succeeds ?_ fun _ => succeeds_pure _)
          refine inspects_lowerBranches wellFormed [] arrives.below kind rfl (by simp) ?_
          intro branch member test isBranch
          have linked := (wellFormed.linked id branch).1 member
          exact within _ branch _ rfl (.child linked grounded) (by omega) (wellFormed.onPath_child arrives.below member)
            (by rw [isBranch]; exact nofun)
      | branch test => exact inspects_failAt (.strayBranch test kind arrives.outside) rfl
      | iteration item index source =>
          refine .cons (placed kind nofun nofun) ((succeeds_resolve source).inspects_bind fun _ => ?_)
          unfold inFrame
          refine Succeeds.inspects_bind (fun scope => ⟨(), _, rfl⟩) fun _ => Inspects.bind_succeeds ?_ fun result =>
            Succeeds.bind (fun scope => ⟨(), _, rfl⟩) fun _ => succeeds_pure result
          refine (succeeds_declare _).inspects_bind fun _ => (succeeds_declare _).inspects_bind fun _ => ?_
          refine (succeeds_declare _).inspects_bind fun _ => ?_
          exact (body _ rfl (by rw [kind]; exact nofun)).bind_succeeds fun _ => succeeds_pure _
      | text value => exact .cons (placed kind nofun nofun) (leaf kind rfl (succeeds_pure _))
      | placeholder code escape =>
          refine .cons (placed kind nofun nofun) (leaf kind rfl ?_)
          exact (succeeds_resolve code).bind fun _ => succeeds_pure _
      | comment value emit => exact .cons (placed kind nofun nofun) (leaf kind rfl (succeeds_pure _))
      | doctype name => exact .cons (placed kind nofun nofun) (leaf kind rfl (succeeds_pure _))

end Lowering

end HtmlTemplate
