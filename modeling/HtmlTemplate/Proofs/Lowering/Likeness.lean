import HtmlTemplate.Proofs.Lowering.Course

/-!
# Trees that look alike

The rules of lowering tell all lowerings that succeed. They ask for nothing but the kinds, the attributes and the marks
of nodes and for the order of children, so trees that look alike are lowered to the same fragments, or are not lowered at
all.
-/

namespace HtmlTemplate
namespace Lowering

variable {tree other : Tree} {choices : Preservation} {region : Region} {id : NodeId} {ids : List NodeId}
variable {before after : Scope} {fragments : List Fragment} {budget depth : Nat}

/-! ## Rules that lead to lowerings -/

/-- The fragments of nodes in order. -/
def lowerNodes (tree : Tree) (choices : Preservation) (budget : Nat) (region : Region) (ids : List NodeId) :
    Lowering (List Fragment) := do
  return (← ids.mapM (lowerNode tree choices budget region)).flatten

theorem lowerNodes_cons {first rest : List Fragment} {middle : Scope}
    (began : lowerNode tree choices budget region id before = .ok (first, middle))
    (ended : lowerNodes tree choices budget region ids middle = .ok (rest, after)) :
    lowerNodes tree choices budget region (id :: ids) before = .ok (first ++ rest, after) := by
  obtain ⟨parts, last, went, done⟩ := bind_eq_ok_iff.1 ended
  obtain ⟨rfl, rfl⟩ := pure_eq_ok_iff.1 done
  rw [lowerNodes, List.mapM_cons]
  refine bind_eq_ok_iff.2 ⟨first :: parts, last, ?_, rfl⟩
  exact bind_eq_ok_iff.2 ⟨first, middle, began, bind_eq_ok_iff.2 ⟨parts, last, went, rfl⟩⟩

theorem depth_child (wellFormed : tree.WellFormed) (grounded : tree.Depth id depth) :
    ∀ child ∈ tree.children id, tree.Depth child (depth + 1) :=
  fun child member => .child ((wellFormed.linked id child).1 member) grounded

mutual

/-- A lowering that goes by the rules succeeds, if the budget reaches to the bottom of the tree. -/
theorem Lowers.run (wellFormed : tree.WellFormed) {region : Region} {id : NodeId} {before after : Scope}
    {fragments : List Fragment} {depth budget : Nat} (grounded : tree.Depth id depth)
    (enough : tree.size < depth + (budget + 1)) :
    Lowers tree choices region id before fragments after →
      lowerNode tree choices (budget + 1) region id before = .ok (fragments, after)
  | .document kind top inside => by
      have ran : lowerNodes tree choices budget _ _ _ = _ :=
        LowersAll.run wellFormed (depth_child wellFormed grounded) (by omega) inside
      simp only [lowerNode, show (tree.node id).kind = _ from kind, top, if_true]
      exact ran
  | .element kind inside => by
      have ran : lowerNodes tree choices budget _ _ _ = _ :=
        LowersAll.run wellFormed (depth_child wellFormed grounded) (by omega) inside
      simp only [lowerNode, show (tree.node id).kind = _ from kind]
      exact bind_eq_ok_iff.2 ⟨_, before, rfl, bind_eq_ok_iff.2 ⟨_, after, ran, rfl⟩⟩
  | .customTag kind hoists inside => by
      have ran : lowerNodes tree choices budget _ _ _ = _ :=
        LowersAll.run wellFormed (depth_child wellFormed grounded) (by omega) inside
      simp only [lowerNode, show (tree.node id).kind = _ from kind]
      exact bind_eq_ok_iff.2 ⟨_, _, congrArg Except.ok hoists, bind_eq_ok_iff.2 ⟨_, _, rfl,
        bind_eq_ok_iff.2 ⟨_, after, ran, rfl⟩⟩⟩
  | .text kind => by
      simp only [lowerNode, show (tree.node id).kind = _ from kind]
      rfl
  | .placeholder kind => by
      simp only [lowerNode, show (tree.node id).kind = _ from kind]
      rfl
  | .conditional kind inside => by
      have ran : lowerBranches tree (lowerNodes tree choices budget _) _ _ _ = _ :=
        LowersBranches.run wellFormed (depth_child wellFormed grounded) (by omega) inside
      simp only [lowerNode, show (tree.node id).kind = _ from kind]
      exact bind_eq_ok_iff.2 ⟨_, after, ran, rfl⟩
  | .iteration kind opens inside => by
      have ran : lowerNodes tree choices budget _ _ _ = _ :=
        LowersAll.run wellFormed (depth_child wellFormed grounded) (by omega) inside
      obtain ⟨first, second, ofItem, ofIndex, ofList⟩ := Scope.openLoop_eq_iff.1 opens
      simp only [lowerNode, show (tree.node id).kind = _ from kind]
      refine bind_eq_ok_iff.2 ⟨_, before, rfl, ?_⟩
      refine bind_eq_ok_iff.2 ⟨_, before.push, rfl, bind_eq_ok_iff.2 ⟨_, _, ?_, rfl⟩⟩
      exact bind_eq_ok_iff.2 ⟨_, first, congrArg Except.ok ofItem, bind_eq_ok_iff.2 ⟨_, second, congrArg Except.ok ofIndex,
        bind_eq_ok_iff.2 ⟨_, _, congrArg Except.ok ofList, bind_eq_ok_iff.2 ⟨_, _, ran, rfl⟩⟩⟩⟩
  | .comment kind => by
      simp only [lowerNode, show (tree.node id).kind = _ from kind]
      rfl
  | .doctype kind => by
      simp only [lowerNode, show (tree.node id).kind = _ from kind]
      rfl

theorem LowersAll.run (wellFormed : tree.WellFormed) {region : Region} {ids : List NodeId} {before after : Scope}
    {fragments : List Fragment} {depth budget : Nat} (grounded : ∀ id ∈ ids, tree.Depth id depth)
    (enough : tree.size < depth + budget) : LowersAll tree choices region ids before fragments after →
      lowerNodes tree choices budget region ids before = .ok (fragments, after)
  | .nil => rfl
  | .cons first rest => by
      have bound := wellFormed.depth_le_size (grounded _ List.mem_cons_self)
      obtain ⟨budget, rfl⟩ : ∃ less, budget = less + 1 := ⟨budget - 1, by omega⟩
      exact lowerNodes_cons (first.run wellFormed (grounded _ List.mem_cons_self) enough)
        (rest.run wellFormed (fun id member => grounded id (List.mem_cons_of_mem _ member)) enough)

theorem LowersBranches.run (wellFormed : tree.WellFormed) {region : Region} {closed : Bool} {ids : List NodeId}
    {before after : Scope} {branches : List (Option String × List Fragment)} {depth budget : Nat}
    (grounded : ∀ id ∈ ids, tree.Depth id depth) (enough : tree.size < depth + (budget + 1)) :
    LowersBranches tree choices region closed ids before branches after →
      lowerBranches tree (lowerNodes tree choices budget region) closed ids before = .ok (branches, after)
  | .nil => rfl
  | .cons kind body rest => by
      have ran : lowerNodes tree choices budget _ _ _ = _ :=
        LowersAll.run wellFormed (depth_child wellFormed (grounded _ List.mem_cons_self)) (by omega) body
      have others := LowersBranches.run wellFormed (fun id member => grounded id (List.mem_cons_of_mem _ member)) enough rest
      simp only [lowerBranches, kind, Bool.false_eq_true, if_false]
      exact bind_eq_ok_iff.2 ⟨_, before, resolve_mapM _ before, bind_eq_ok_iff.2 ⟨_, _, ran,
        bind_eq_ok_iff.2 ⟨_, after, others, rfl⟩⟩⟩

end

/-- The lowerings that succeed are those that go by the rules. -/
theorem lower_eq_ok_iff {root : NodeId} {hoisted : List Declaration} (wellFormed : tree.WellFormed) :
    tree.lower choices root = .ok (fragments, hoisted) ↔
      ∃ after : Scope, Lowers tree choices { top := true, preserve := choices.isTotal } root {} fragments after ∧
        after.hoisted = hoisted := by
  refine ⟨lowers_of_lower wellFormed, ?_⟩
  rintro ⟨after, lowers, rfl⟩
  obtain ⟨depth, grounded⟩ := wellFormed.grounded root
  have ran : lowerNode tree choices tree.depthBound { top := true, preserve := choices.isTotal } root {} =
      .ok (fragments, after) := by
    rw [Tree.depthBound]
    exact lowers.run wellFormed grounded (by omega)
  unfold Tree.lower
  rw [ran]
  rfl

/-! ## Likeness -/

/-- Nodes of two trees that are alike look the same, and have alike children in order. -/
structure Likeness (tree other : Tree) (alike : NodeId → NodeId → Prop) : Prop where
  kind : ∀ {id instead}, alike id instead → other.kind instead = tree.kind id
  attributes : ∀ {id instead}, alike id instead → (other.node instead).attributes = (tree.node id).attributes
  preserve : ∀ {id instead}, alike id instead → (other.node instead).preserve = (tree.node id).preserve
  children : ∀ {id instead}, alike id instead → List.Forall₂ alike (tree.children id) (other.children instead)

variable {alike : NodeId → NodeId → Prop}

theorem Likeness.flip (likeness : Likeness tree other alike) : Likeness other tree fun id instead => alike instead id where
  kind same := (likeness.kind same).symm
  attributes same := (likeness.attributes same).symm
  preserve same := (likeness.preserve same).symm
  children same := (likeness.children same).flip

mutual

/-- Alike nodes are lowered to the same. -/
theorem Lowers.alike (likeness : Likeness tree other alike) {region : Region} {id instead : NodeId} {before after : Scope}
    {fragments : List Fragment} (same : alike id instead) : Lowers tree choices region id before fragments after →
      Lowers other choices region instead before fragments after
  | .document kind top inside =>
      .document ((likeness.kind same).trans kind) top (inside.alike likeness (likeness.children same))
  | .element kind inside => by
      rw [← likeness.attributes same]
      refine .element ((likeness.kind same).trans kind) ?_
      rw [likeness.preserve same]
      exact inside.alike likeness (likeness.children same)
  | .customTag kind hoists inside => by
      rw [← likeness.attributes same]
      refine .customTag ((likeness.kind same).trans kind) hoists ?_
      rw [likeness.preserve same]
      exact inside.alike likeness (likeness.children same)
  | .text kind => .text ((likeness.kind same).trans kind)
  | .placeholder kind => .placeholder ((likeness.kind same).trans kind)
  | .conditional kind inside =>
      .conditional ((likeness.kind same).trans kind) (inside.alike likeness (likeness.children same))
  | .iteration kind opens inside =>
      .iteration ((likeness.kind same).trans kind) opens (inside.alike likeness (likeness.children same))
  | .comment kind => .comment ((likeness.kind same).trans kind)
  | .doctype kind => .doctype ((likeness.kind same).trans kind)

theorem LowersAll.alike (likeness : Likeness tree other alike) {region : Region} {ids row : List NodeId}
    {before after : Scope} {fragments : List Fragment} (same : List.Forall₂ alike ids row) :
    LowersAll tree choices region ids before fragments after → LowersAll other choices region row before fragments after
  | .nil => by
      cases same
      exact .nil
  | .cons first rest => by
      cases same with
      | cons head tail => exact .cons (first.alike likeness head) (rest.alike likeness tail)

theorem LowersBranches.alike (likeness : Likeness tree other alike) {region : Region} {closed : Bool}
    {ids row : List NodeId} {before after : Scope} {branches : List (Option String × List Fragment)}
    (same : List.Forall₂ alike ids row) : LowersBranches tree choices region closed ids before branches after →
      LowersBranches other choices region closed row before branches after
  | .nil => by
      cases same
      exact .nil
  | .cons kind body rest => by
      cases same with
      | cons head tail =>
          exact .cons ((likeness.kind head).trans kind) (body.alike likeness (likeness.children head))
            (rest.alike likeness tail)

end

/-- Trees with alike roots are lowered to the same, if they are lowered at all. -/
theorem Likeness.lower_eq_ok_iff {root top : NodeId} {result : List Fragment × List Declaration}
    (likeness : Likeness tree other alike) (wellFormed : tree.WellFormed) (sound : other.WellFormed) (same : alike root top) :
    tree.lower choices root = .ok result ↔ other.lower choices top = .ok result := by
  obtain ⟨fragments, hoisted⟩ := result
  rw [Lowering.lower_eq_ok_iff wellFormed, Lowering.lower_eq_ok_iff sound]
  constructor
  · rintro ⟨after, lowers, declared⟩
    exact ⟨after, lowers.alike likeness same, declared⟩
  · rintro ⟨after, lowers, declared⟩
    exact ⟨after, lowers.alike likeness.flip same, declared⟩

end Lowering
end HtmlTemplate
