import HtmlTemplate.Lowering
import HtmlTemplate.Proofs.Tree.Ancestry

/-!
# The course of a lowering

What lowering a node does, as a relation between the scope before, the fragments and the scope after. There
is one rule for each kind of node. Whatever holds along these rules holds of every lowering that succeeds.
-/

namespace HtmlTemplate

/-- The identifiers for the variables of a loop: the element, its place and the list. -/
structure LoopNames where
  item : String
  index : String
  list : String
  deriving DecidableEq, Repr

namespace Scope

/-- Opens a frame for a loop and declares its variables there. -/
def openLoop (scope : Scope) (item : String) (index : Option String) : LoopNames × Scope :=
  let first := scope.push.declare item
  let second := first.2.declare (index.getD (item ++ "_index"))
  let third := second.2.declare (item ++ "_list")
  ({ item := first.1, index := second.1, list := third.1 }, third.2)

theorem openLoop_eq_iff {before after : Scope} {item : String} {index : Option String} {names : LoopNames} :
    before.openLoop item index = (names, after) ↔
      ∃ first second, before.push.declare item = (names.item, first) ∧
        first.declare (index.getD (item ++ "_index")) = (names.index, second) ∧
        second.declare (item ++ "_list") = (names.list, after) := by
  constructor
  · intro opens
    obtain ⟨rfl, rfl⟩ := Prod.mk.inj opens
    exact ⟨_, _, rfl, rfl, rfl⟩
  · rintro ⟨first, second, ofItem, ofIndex, ofList⟩
    unfold openLoop
    dsimp only
    rw [ofItem, ofIndex, ofList]

end Scope

namespace Lowering

variable (tree : Tree) (choices : Preservation)

mutual

/-- Lowering the node gives the fragments, and leads from one scope to the other one. -/
inductive Lowers : Region → NodeId → Scope → List Fragment → Scope → Prop
  | document {region : Region} {id : NodeId} {before after : Scope} {fragments : List Fragment} :
      tree.kind id = .document → region.top = true →
      LowersAll { preserve := region.preserve } (tree.children id) before fragments after →
      Lowers region id before fragments after
  | element {region : Region} {id : NodeId} {before after : Scope} {tag : String} {children : List Fragment} :
      tree.kind id = .element tag →
      LowersAll { preserve := region.preserve || (tree.node id).preserve || choices.preserves tag,
                  raw := isRawText tag } (tree.children id) before children after →
      Lowers region id before
        [.element tag ((tree.node id).attributes.map (writtenAttribute before)) children] after
  | customTag {region : Region} {id : NodeId} {before middle after : Scope} {name renderer handler : String}
      {body : List Fragment} :
      tree.kind id = .customTag name renderer →
      before.hoist (Name.identifierHint name ++ "_tag") ("loadTag(require(" ++ Text.jsonString renderer ++ "))") =
        (handler, middle) →
      LowersAll { preserve := region.preserve || (tree.node id).preserve } (tree.children id) middle body after →
      Lowers region id before
        [.tagCall name handler ((tree.node id).attributes.map (writtenAttribute middle)) body] after
  | text {region : Region} {id : NodeId} {scope : Scope} {value : String} :
      tree.kind id = .text value → Lowers region id scope (textFragment region value) scope
  | placeholder {region : Region} {id : NodeId} {scope : Scope} {code : String} {escape : Bool} :
      tree.kind id = .placeholder code escape → Lowers region id scope [.write (scope.resolve code) escape] scope
  | conditional {region : Region} {id : NodeId} {before after : Scope}
      {branches : List (Option String × List Fragment)} :
      tree.kind id = .conditional →
      LowersBranches { preserve := region.preserve } false (tree.children id) before branches after →
      Lowers region id before [.branching branches] after
  | iteration {region : Region} {id : NodeId} {before opened after : Scope} {item source : String}
      {index : Option String} {names : LoopNames} {body : List Fragment} :
      tree.kind id = .iteration item index source → before.openLoop item index = (names, opened) →
      LowersAll { preserve := region.preserve, raw := region.raw } (tree.children id) opened body after →
      Lowers region id before [.loop names.item names.index names.list (before.resolve source) body] after.pop
  | comment {region : Region} {id : NodeId} {scope : Scope} {value : String} {emit : Bool} :
      tree.kind id = .comment value emit → Lowers region id scope [.comment value emit] scope
  | doctype {region : Region} {id : NodeId} {scope : Scope} {name : String} :
      tree.kind id = .doctype name → Lowers region id scope [.doctype name] scope

/-- Lowering the nodes in order gives the fragments, and leads from one scope to the other one. -/
inductive LowersAll : Region → List NodeId → Scope → List Fragment → Scope → Prop
  | nil {region : Region} {scope : Scope} : LowersAll region [] scope [] scope
  | cons {region : Region} {id : NodeId} {ids : List NodeId} {before middle after : Scope}
      {first rest : List Fragment} :
      Lowers region id before first middle → LowersAll region ids middle rest after →
      LowersAll region (id :: ids) before (first ++ rest) after

/-- Lowering the nodes as branches gives the tests and bodies, and leads from one scope to the other one. -/
inductive LowersBranches :
    Region → Bool → List NodeId → Scope → List (Option String × List Fragment) → Scope → Prop
  | nil {region : Region} {closed : Bool} {scope : Scope} : LowersBranches region closed [] scope [] scope
  | cons {region : Region} {id : NodeId} {ids : List NodeId} {before middle after : Scope}
      {test : Option String} {body : List Fragment} {rest : List (Option String × List Fragment)} :
      tree.kind id = .branch test → LowersAll region (tree.children id) before body middle →
      LowersBranches region test.isNone ids middle rest after →
      LowersBranches region false (id :: ids) before ((test.map before.resolve, body) :: rest) after

end

variable {tree : Tree} {choices : Preservation} {region : Region} {id : NodeId} {ids : List NodeId}
  {before after : Scope} {fragments : List Fragment}

/-! ## Running parts of a lowering -/

theorem bind_eq_ok_iff {α β : Type} {first : Lowering α} {next : α → Lowering β} {value : β} :
    (first >>= next) before = .ok (value, after) ↔
      ∃ given middle, first before = .ok (given, middle) ∧ next given middle = .ok (value, after) := by
  change (StateT.bind first next before : Except Fault (β × Scope)) = _ ↔ _
  unfold StateT.bind
  simp only [bind, Except.bind]
  constructor
  · intro ran
    cases began : first before with
    | error fault =>
        rw [began] at ran
        cases ran
    | ok given =>
        rw [began] at ran
        exact ⟨given.1, given.2, rfl, ran⟩
  · rintro ⟨given, middle, began, ended⟩
    rw [began]
    exact ended

theorem pure_eq_ok_iff {α : Type} {given value : α} :
    (pure given : Lowering α) before = .ok (value, after) ↔ given = value ∧ before = after := by
  constructor
  · intro ran
    cases ran
    exact ⟨rfl, rfl⟩
  · rintro ⟨rfl, rfl⟩
    rfl

theorem not_failAt {α : Type} {cause : Cause} {value : α} :
    (failAt tree id cause : Lowering α) before ≠ .ok (value, after) := by
  intro ran
  cases ran

theorem resolve_mapM (test : Option String) (scope : Scope) :
    (test.mapM resolve : Lowering (Option String)) scope = .ok (test.map scope.resolve, scope) := by
  cases test <;> rfl

/-- All nodes are lowered in the way that each one is. -/
theorem lowersAll_of_mapM {work : NodeId → Lowering (List Fragment)} {parts : List (List Fragment)}
    (each : ∀ id ∈ ids, ∀ before first after, work id before = .ok (first, after) →
      Lowers tree choices region id before first after)
    (ran : ids.mapM work before = .ok (parts, after)) :
    LowersAll tree choices region ids before parts.flatten after := by
  induction ids generalizing before parts with
  | nil =>
      rw [List.mapM_nil] at ran
      obtain ⟨rfl, rfl⟩ := pure_eq_ok_iff.1 ran
      exact .nil
  | cons id ids hypothesis =>
      rw [List.mapM_cons] at ran
      obtain ⟨first, between, began, others⟩ := bind_eq_ok_iff.1 ran
      obtain ⟨rest, last, went, done⟩ := bind_eq_ok_iff.1 others
      obtain ⟨rfl, rfl⟩ := pure_eq_ok_iff.1 done
      exact .cons (each id List.mem_cons_self _ _ _ began)
        (hypothesis (fun other member => each other (List.mem_cons_of_mem _ member)) went)

theorem lowersBranches_of_run {lowerBody : List NodeId → Lowering (List Fragment)}
    {closed : Bool} {branches : List (Option String × List Fragment)}
    (each : ∀ id ∈ ids, ∀ before body after, lowerBody (tree.children id) before = .ok (body, after) →
      LowersAll tree choices region (tree.children id) before body after)
    (ran : lowerBranches tree lowerBody closed ids before = .ok (branches, after)) :
    LowersBranches tree choices region closed ids before branches after := by
  induction ids generalizing closed before branches with
  | nil =>
      obtain ⟨rfl, rfl⟩ := pure_eq_ok_iff.1 ran
      exact .nil
  | cons id ids hypothesis =>
      rw [lowerBranches] at ran
      cases kind : tree.kind id with
      | branch test =>
          simp only [kind] at ran
          cases closed with
          | true => exact absurd ran not_failAt
          | false =>
              simp only [Bool.false_eq_true, if_false] at ran
              obtain ⟨written, between, resolved, ran⟩ := bind_eq_ok_iff.1 ran
              rw [resolve_mapM] at resolved
              obtain ⟨rfl, rfl⟩ := Prod.mk.inj (Except.ok.inj resolved)
              obtain ⟨body, middle, began, others⟩ := bind_eq_ok_iff.1 ran
              obtain ⟨rest, last, went, done⟩ := bind_eq_ok_iff.1 others
              obtain ⟨rfl, rfl⟩ := pure_eq_ok_iff.1 done
              exact .cons kind (each id List.mem_cons_self _ _ _ began)
                (hypothesis (fun other member => each other (List.mem_cons_of_mem _ member)) went)
      | _ =>
          simp only [kind] at ran
          exact absurd ran not_failAt

/-! ## All nodes -/

/-- A lowering that succeeds goes by the rules, if the budget reaches to the bottom of the tree. -/
theorem lowers_of_lowerNode (wellFormed : tree.WellFormed) {budget depth : Nat} (grounded : tree.Depth id depth)
    (enough : tree.size < depth + budget)
    (ran : lowerNode tree choices budget region id before = .ok (fragments, after)) :
    Lowers tree choices region id before fragments after := by
  induction budget generalizing region id depth before fragments after with
  | zero =>
      have bound := wellFormed.depth_le_size grounded
      omega
  | succ budget hypothesis =>
      have below : ∀ {region : Region} {parent : NodeId} {depth : Nat}, tree.Depth parent depth →
          tree.size < depth + budget + 1 → ∀ {before fragments after},
          (do return (← (tree.children parent).mapM (lowerNode tree choices budget region)).flatten :
            Lowering (List Fragment)) before = .ok (fragments, after) →
          LowersAll tree choices region (tree.children parent) before fragments after := by
        intro region parent depth grounded enough before fragments after ran
        obtain ⟨parts, middle, went, done⟩ := bind_eq_ok_iff.1 ran
        obtain ⟨rfl, rfl⟩ := pure_eq_ok_iff.1 done
        refine lowersAll_of_mapM (fun child member _ _ _ ran => ?_) went
        exact hypothesis (.child ((wellFormed.linked parent child).1 member) grounded) (by omega) ran
      rw [lowerNode] at ran
      dsimp only at ran
      cases kind : (tree.node id).kind with
      | document =>
          simp only [kind] at ran
          split at ran
          · next top => exact .document kind top (below grounded (by omega) ran)
          · exact absurd ran not_failAt
      | element tag =>
          simp only [kind] at ran
          obtain ⟨attributes, between, written, others⟩ := bind_eq_ok_iff.1 ran
          obtain ⟨rfl, rfl⟩ := Prod.mk.inj (Except.ok.inj written)
          obtain ⟨children, last, went, done⟩ := bind_eq_ok_iff.1 others
          obtain ⟨rfl, rfl⟩ := pure_eq_ok_iff.1 done
          exact .element kind (below grounded (by omega) went)
      | customTag name renderer =>
          simp only [kind] at ran
          obtain ⟨handler, middle, hoisted, others⟩ := bind_eq_ok_iff.1 ran
          obtain ⟨attributes, between, written, others⟩ := bind_eq_ok_iff.1 others
          obtain ⟨rfl, rfl⟩ := Prod.mk.inj (Except.ok.inj written)
          obtain ⟨body, last, went, done⟩ := bind_eq_ok_iff.1 others
          obtain ⟨rfl, rfl⟩ := pure_eq_ok_iff.1 done
          exact .customTag kind (Except.ok.inj hoisted) (below grounded (by omega) went)
      | text value =>
          simp only [kind] at ran
          obtain ⟨rfl, rfl⟩ := pure_eq_ok_iff.1 ran
          exact .text kind
      | placeholder code escape =>
          simp only [kind] at ran
          obtain ⟨written, between, resolved, done⟩ := bind_eq_ok_iff.1 ran
          obtain ⟨rfl, rfl⟩ := Prod.mk.inj (Except.ok.inj resolved)
          obtain ⟨rfl, rfl⟩ := pure_eq_ok_iff.1 done
          exact .placeholder kind
      | conditional =>
          simp only [kind] at ran
          obtain ⟨branches, last, went, done⟩ := bind_eq_ok_iff.1 ran
          obtain ⟨rfl, rfl⟩ := pure_eq_ok_iff.1 done
          refine .conditional kind (lowersBranches_of_run (fun child member _ _ _ ran => ?_) went)
          exact below (.child ((wellFormed.linked id child).1 member) grounded) (by omega) ran
      | branch test =>
          simp only [kind] at ran
          exact absurd ran not_failAt
      | iteration item index source =>
          simp only [kind] at ran
          obtain ⟨written, between, resolved, others⟩ := bind_eq_ok_iff.1 ran
          obtain ⟨rfl, rfl⟩ := Prod.mk.inj (Except.ok.inj resolved)
          obtain ⟨⟨⟩, pushed, opened, others⟩ := bind_eq_ok_iff.1 others
          obtain ⟨-, rfl⟩ := Prod.mk.inj (Except.ok.inj opened)
          obtain ⟨result, last, went, closes⟩ := bind_eq_ok_iff.1 others
          obtain ⟨⟨⟩, popped, closed, done⟩ := bind_eq_ok_iff.1 closes
          obtain ⟨-, rfl⟩ := Prod.mk.inj (Except.ok.inj closed)
          obtain ⟨rfl, rfl⟩ := pure_eq_ok_iff.1 done
          obtain ⟨itemName, first, ofItem, others⟩ := bind_eq_ok_iff.1 went
          obtain ⟨indexName, second, ofIndex, others⟩ := bind_eq_ok_iff.1 others
          obtain ⟨listName, third, ofList, others⟩ := bind_eq_ok_iff.1 others
          obtain ⟨body, inside, ends, done⟩ := bind_eq_ok_iff.1 others
          obtain ⟨rfl, rfl⟩ := pure_eq_ok_iff.1 done
          have opens : before.openLoop item index = (⟨itemName, indexName, listName⟩, third) :=
            Scope.openLoop_eq_iff.2
              ⟨first, second, Except.ok.inj ofItem, Except.ok.inj ofIndex, Except.ok.inj ofList⟩
          exact .iteration kind opens (below grounded (by omega) ends)
      | comment value emit =>
          simp only [kind] at ran
          obtain ⟨rfl, rfl⟩ := pure_eq_ok_iff.1 ran
          exact .comment kind
      | doctype name =>
          simp only [kind] at ran
          obtain ⟨rfl, rfl⟩ := pure_eq_ok_iff.1 ran
          exact .doctype kind

/-- What a tree is lowered to goes by the rules, from the scope without names on. -/
theorem lowers_of_lower {root : NodeId} {hoisted : List Declaration} (wellFormed : tree.WellFormed)
    (ran : tree.lower choices root = .ok (fragments, hoisted)) :
    ∃ after : Scope, Lowers tree choices { top := true, preserve := choices.isTotal } root {} fragments after ∧
      after.hoisted = hoisted := by
  obtain ⟨depth, grounded⟩ := wellFormed.grounded root
  unfold Tree.lower at ran
  cases lowered : lowerNode tree choices tree.depthBound { top := true, preserve := choices.isTotal } root {} with
  | error fault =>
      rw [lowered] at ran
      cases ran
  | ok result =>
      rw [lowered] at ran
      cases ran
      refine ⟨result.2, lowers_of_lowerNode wellFormed grounded ?_ lowered, rfl⟩
      rw [Tree.depthBound]
      omega

end Lowering
end HtmlTemplate
