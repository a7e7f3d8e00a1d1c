import HtmlTemplate.Proofs.Tree.Access
import HtmlTemplate.Tree.Traversal
import Mathlib.Data.List.Perm.Subperm

/-!
# Ways through trees

The check of owners is the last word on a tree whose links nobody answers for: they may run in circles, name a node
twice, or disagree with each other. The check comes to its end all the same, and passes exactly when each node below
the root is reached in one way, and linked to the node that lists it.
-/

namespace HtmlTemplate
namespace Tree

variable {tree : Tree} {seen after children : List NodeId} {id root node : NodeId}

/-! ## Ways -/

/-- The node that a way leads to. A way says for each node that it passes which of the children comes next. -/
def follow (tree : Tree) (id : NodeId) : List Nat → Option NodeId
  | [] => some id
  | place :: way => (tree.children id)[place]?.bind fun child => tree.follow child way

/-- The node that a way leads to from one of some siblings, which its first number tells. -/
def followFrom (tree : Tree) (siblings : List NodeId) : List Nat → Option NodeId
  | [] => none
  | place :: way => siblings[place]?.bind fun sibling => tree.follow sibling way

/-- Below the root stands a tree: no node is reached in two ways, and every node is linked to the one that lists it. -/
structure IsTreeAt (tree : Tree) (root : NodeId) : Prop where
  single : ∀ {way other : List Nat} {node : NodeId},
    tree.follow root way = some node → tree.follow root other = some node → way = other
  linked : ∀ {way : List Nat} {node child : NodeId},
    tree.follow root way = some node → child ∈ tree.children node → tree.parent child = some node

/-- Below siblings stand trees that have no node in common, and none with the nodes seen. -/
structure AreTreesAt (tree : Tree) (seen siblings : List NodeId) : Prop where
  apart : ∀ {way : List Nat} {node : NodeId}, tree.followFrom siblings way = some node → node ∉ seen
  single : ∀ {way other : List Nat} {node : NodeId},
    tree.followFrom siblings way = some node → tree.followFrom siblings other = some node → way = other
  linked : ∀ {way : List Nat} {node child : NodeId},
    tree.followFrom siblings way = some node → child ∈ tree.children node → tree.parent child = some node

@[simp] theorem followFrom_nil (way : List Nat) : tree.followFrom [] way = none := by
  cases way <;> simp [followFrom]

@[simp] theorem followFrom_zero (way : List Nat) : tree.followFrom (id :: children) (0 :: way) = tree.follow id way := by
  simp [followFrom]

@[simp] theorem followFrom_succ (place : Nat) (way : List Nat) :
    tree.followFrom (id :: children) ((place + 1) :: way) = tree.followFrom children (place :: way) := by
  simp [followFrom]

theorem followFrom_head (id : NodeId) (children : List NodeId) : tree.followFrom (id :: children) [0] = some id :=
  rfl

theorem follow_cons (place : Nat) (way : List Nat) :
    tree.follow id (place :: way) = tree.followFrom (tree.children id) (place :: way) :=
  rfl

/-- A way from a node stays there, or leads on from one of its children. -/
theorem follow_eq_some_iff {way : List Nat} :
    tree.follow id way = some node ↔ way = [] ∧ node = id ∨ tree.followFrom (tree.children id) way = some node := by
  cases way with
  | nil => simp [follow, followFrom, eq_comm]
  | cons place way => simp [follow_cons]

/-- A way from siblings leads on from the first one, or from one of the others. -/
theorem followFrom_cons_eq_some_iff {way : List Nat} :
    tree.followFrom (id :: children) way = some node ↔
      (∃ rest, way = 0 :: rest ∧ tree.follow id rest = some node) ∨
        ∃ place rest, way = (place + 1) :: rest ∧ tree.followFrom children (place :: rest) = some node := by
  match way with
  | [] => simp [followFrom]
  | 0 :: rest => simp
  | (place + 1) :: rest => simp

theorem isTreeAt_iff : tree.IsTreeAt root ↔ tree.AreTreesAt [] [root] := by
  constructor
  · intro stands
    refine ⟨fun _ => List.not_mem_nil, ?_, ?_⟩
    · intro way other node leads alsoLeads
      simp only [followFrom_cons_eq_some_iff, followFrom_nil, reduceCtorEq, and_false, exists_false, or_false] at leads alsoLeads
      obtain ⟨rest, rfl, leads⟩ := leads
      obtain ⟨others, rfl, alsoLeads⟩ := alsoLeads
      rw [stands.single leads alsoLeads]
    · intro way node child leads member
      simp only [followFrom_cons_eq_some_iff, followFrom_nil, reduceCtorEq, and_false, exists_false, or_false] at leads
      obtain ⟨rest, rfl, leads⟩ := leads
      exact stands.linked leads member
  · intro stands
    constructor
    · intro way other node leads alsoLeads
      have same := stands.single ((followFrom_zero way).trans leads) ((followFrom_zero other).trans alsoLeads)
      exact (List.cons.inj same).2
    · intro way node child leads member
      exact stands.linked ((followFrom_zero way).trans leads) member

/-! ## The check without a budget -/

/-- The check of siblings comes to an answer, beside the nodes seen before. -/
inductive Checks (tree : Tree) : List NodeId → List NodeId → Except Fault (List NodeId) → Prop
  | done {seen : List NodeId} : Checks tree seen [] (.ok seen)
  | again {seen rest : List NodeId} {id : NodeId} :
      id ∈ seen → Checks tree seen (id :: rest) (.error (tree.faultAt id (.severalParents id)))
  | unlinked {seen rest : List NodeId} {id child : NodeId} :
      id ∉ seen → ((tree.children id).find? fun child => tree.parent child != some id) = some child →
      Checks tree seen (id :: rest) (.error (tree.faultAt child (.unlinked child id)))
  | failed {seen rest : List NodeId} {id : NodeId} {fault : Fault} :
      id ∉ seen → (∀ child ∈ tree.children id, tree.parent child = some id) →
      Checks tree (id :: seen) (tree.children id) (.error fault) → Checks tree seen (id :: rest) (.error fault)
  | passed {seen middle rest : List NodeId} {id : NodeId} {answer : Except Fault (List NodeId)} :
      id ∉ seen → (∀ child ∈ tree.children id, tree.parent child = some id) →
      Checks tree (id :: seen) (tree.children id) (.ok middle) → Checks tree middle rest answer →
      Checks tree seen (id :: rest) answer

namespace Checks

variable {answer other : Except Fault (List NodeId)}

theorem linked_of_find? (agreed : ((tree.children id).find? fun child => tree.parent child != some id) = none) :
    ∀ child ∈ tree.children id, tree.parent child = some id := by
  intro child member
  simpa using List.find?_eq_none.1 agreed child member

theorem not_linked {child : NodeId} (found : ((tree.children id).find? fun child => tree.parent child != some id) = some child) :
    child ∈ tree.children id ∧ tree.parent child ≠ some id :=
  ⟨List.mem_of_find?_eq_some found, by simpa using List.find?_some found⟩

/-- The check comes to one answer only. -/
theorem unique (checked : tree.Checks seen children answer) (also : tree.Checks seen children other) : answer = other := by
  induction checked generalizing other with
  | done =>
      cases also
      rfl
  | again member =>
      cases also with
      | again => rfl
      | unlinked absent => exact absurd member absent
      | failed absent => exact absurd member absent
      | passed absent => exact absurd member absent
  | unlinked absent found =>
      have stray := not_linked found
      cases also with
      | again member => exact absurd member absent
      | unlinked _ alsoFound =>
          obtain rfl := Option.some.inj (found.symm.trans alsoFound)
          rfl
      | failed _ links => exact absurd (links _ stray.1) stray.2
      | passed _ links => exact absurd (links _ stray.1) stray.2
  | failed absent links _ below =>
      cases also with
      | again member => exact absurd member absent
      | unlinked _ found => exact absurd (links _ (not_linked found).1) (not_linked found).2
      | failed _ _ inner => exact Except.error.inj (below inner) ▸ rfl
      | passed _ _ inner => cases below inner
  | passed absent links _ _ below behind =>
      cases also with
      | again member => exact absurd member absent
      | unlinked _ found => exact absurd (links _ (not_linked found).1) (not_linked found).2
      | failed _ _ inner => cases below inner
      | passed _ _ inner outer =>
          obtain rfl := Except.ok.inj (below inner)
          exact behind outer

/-! ## What a check that passes has seen -/

/-- A check that passes has seen the nodes that ways lead to, beside those that were seen before. -/
theorem mem_iff (checked : tree.Checks seen children (.ok after)) :
    node ∈ after ↔ node ∈ seen ∨ ∃ way, tree.followFrom children way = some node := by
  generalize passes : Except.ok after = answer at checked
  induction checked generalizing after with
  | done =>
      cases passes
      simp
  | again => cases passes
  | unlinked => cases passes
  | failed => cases passes
  | @passed seen middle rest id answer absent links inner outer below behind =>
      rw [behind passes, below rfl, List.mem_cons]
      simp only [followFrom_cons_eq_some_iff, follow_eq_some_iff]
      constructor
      · rintro (((rfl | old) | ⟨way, leads⟩) | ⟨way, leads⟩)
        · exact .inr ⟨[0], .inl ⟨[], rfl, .inl ⟨rfl, rfl⟩⟩⟩
        · exact .inl old
        · exact .inr ⟨0 :: way, .inl ⟨way, rfl, .inr leads⟩⟩
        · cases way with
          | nil => cases leads
          | cons place way => exact .inr ⟨(place + 1) :: way, .inr ⟨place, way, rfl, leads⟩⟩
      · rintro (old | ⟨_, ⟨way, -, ⟨-, rfl⟩ | leads⟩ | ⟨place, way, -, leads⟩⟩)
        · exact .inl (.inl (.inr old))
        · exact .inl (.inl (.inl rfl))
        · exact .inl (.inr ⟨way, leads⟩)
        · exact .inr ⟨place :: way, leads⟩

/-- Where the check passes there are trees. -/
theorem areTreesAt (checked : tree.Checks seen children (.ok after)) : tree.AreTreesAt seen children := by
  generalize passes : Except.ok after = answer at checked
  induction checked generalizing after with
  | done => constructor <;> simp
  | again => cases passes
  | unlinked => cases passes
  | failed => cases passes
  | @passed seen middle rest id answer absent links inner outer below behind =>
      obtain ⟨innerApart, innerSingle, innerLinked⟩ := below rfl
      obtain ⟨outerApart, outerSingle, outerLinked⟩ := behind passes
      have outside : ∀ {way node}, tree.followFrom rest way = some node → node ∉ id :: seen := fun leads inside =>
        outerApart leads (inner.mem_iff.2 (.inl inside))
      have between : ∀ {way other node}, tree.followFrom (tree.children id) way = some node →
          tree.followFrom rest other ≠ some node := fun leads alsoLeads =>
        outerApart alsoLeads (inner.mem_iff.2 (.inr ⟨_, leads⟩))
      constructor
      · intro way node leads inside
        rcases followFrom_cons_eq_some_iff.1 leads with ⟨way, -, leads⟩ | ⟨place, way, -, leads⟩
        · rcases follow_eq_some_iff.1 leads with ⟨-, rfl⟩ | leads
          · exact absent inside
          · exact innerApart leads (List.mem_cons_of_mem _ inside)
        · exact outside leads (List.mem_cons_of_mem _ inside)
      · intro way other node leads alsoLeads
        rcases followFrom_cons_eq_some_iff.1 leads with ⟨way, rfl, led⟩ | ⟨place, way, rfl, led⟩ <;>
          rcases followFrom_cons_eq_some_iff.1 alsoLeads with ⟨other, rfl, alsoLed⟩ | ⟨otherPlace, other, rfl, alsoLed⟩
        · rcases follow_eq_some_iff.1 led with ⟨rfl, rfl⟩ | led <;>
            rcases follow_eq_some_iff.1 alsoLed with ⟨rfl, same⟩ | alsoLed
          · rfl
          · exact absurd List.mem_cons_self (innerApart alsoLed)
          · exact absurd (same ▸ List.mem_cons_self) (innerApart led)
          · rw [innerSingle led alsoLed]
        · rcases follow_eq_some_iff.1 led with ⟨-, rfl⟩ | led
          · exact absurd List.mem_cons_self (outside alsoLed)
          · exact absurd alsoLed (between led)
        · rcases follow_eq_some_iff.1 alsoLed with ⟨-, rfl⟩ | alsoLed
          · exact absurd List.mem_cons_self (outside led)
          · exact absurd led (between alsoLed)
        · obtain ⟨rfl, rfl⟩ := List.cons.inj (outerSingle led alsoLed)
          rfl
      · intro way node child leads member
        rcases followFrom_cons_eq_some_iff.1 leads with ⟨way, -, leads⟩ | ⟨place, way, -, leads⟩
        · rcases follow_eq_some_iff.1 leads with ⟨-, rfl⟩ | leads
          · exact links child member
          · exact innerLinked leads member
        · exact outerLinked leads member

end Checks

/-! ## Where the check passes -/

namespace AreTreesAt

theorem not_mem (stand : tree.AreTreesAt seen (id :: children)) : id ∉ seen :=
  stand.apart (followFrom_head id children)

theorem links (stand : tree.AreTreesAt seen (id :: children)) :
    ∀ child ∈ tree.children id, tree.parent child = some id := fun _ member =>
  stand.linked (followFrom_head id children) member

/-- Below the children of the first sibling stand trees without that sibling. -/
theorem inner (stand : tree.AreTreesAt seen (id :: children)) : tree.AreTreesAt (id :: seen) (tree.children id) := by
  have lead : ∀ {way node}, tree.followFrom (tree.children id) way = some node →
      tree.followFrom (id :: children) (0 :: way) = some node := by
    intro way node leads
    rw [followFrom_zero]
    exact follow_eq_some_iff.2 (.inr leads)
  constructor
  · intro way node leads inside
    rcases List.mem_cons.1 inside with rfl | inside
    · have same := stand.single (lead leads) (followFrom_head _ children)
      obtain rfl := (List.cons.inj same).2
      cases leads
    · exact stand.apart (lead leads) inside
  · intro way other node leads alsoLeads
    exact (List.cons.inj (stand.single (lead leads) (lead alsoLeads))).2
  · intro way node child leads member
    exact stand.linked (lead leads) member

/-- Below the other siblings stand trees without what is below the first one. -/
theorem outer (stand : tree.AreTreesAt seen (id :: children))
    (checked : tree.Checks (id :: seen) (tree.children id) (.ok after)) : tree.AreTreesAt after children := by
  have lead : ∀ {way node}, tree.followFrom children way = some node →
      ∃ place rest, way = place :: rest ∧ tree.followFrom (id :: children) ((place + 1) :: rest) = some node := by
    intro way node leads
    cases way with
    | nil => cases leads
    | cons place rest => exact ⟨place, rest, rfl, (followFrom_succ place rest).trans leads⟩
  constructor
  · intro way node leads inside
    obtain ⟨place, rest, -, leads⟩ := lead leads
    have apart : ∀ other, tree.follow id other ≠ some node := by
      intro other alsoLeads
      have same := stand.single leads ((followFrom_zero other).trans alsoLeads)
      exact absurd (List.cons.inj same).1 (Nat.succ_ne_zero place)
    rcases checked.mem_iff.1 inside with inside | ⟨other, alsoLeads⟩
    · rcases List.mem_cons.1 inside with rfl | inside
      · exact apart [] rfl
      · exact stand.apart leads inside
    · exact apart other (follow_eq_some_iff.2 (.inr alsoLeads))
  · intro way other node leads alsoLeads
    obtain ⟨place, rest, rfl, led⟩ := lead leads
    obtain ⟨otherPlace, others, rfl, alsoLed⟩ := lead alsoLeads
    obtain ⟨same, rfl⟩ := List.cons.inj (stand.single led alsoLed)
    rw [Nat.succ.inj same]
  · intro way node child leads member
    obtain ⟨place, rest, -, leads⟩ := lead leads
    exact stand.linked leads member

end AreTreesAt

/-- Where there are trees the check passes. -/
theorem Checks.eq_ok {answer : Except Fault (List NodeId)} (checked : tree.Checks seen children answer)
    (stand : tree.AreTreesAt seen children) : ∃ after, answer = .ok after := by
  induction checked with
  | done => exact ⟨_, rfl⟩
  | again member => exact absurd member stand.not_mem
  | unlinked _ found => exact absurd (stand.links _ (not_linked found).1) (not_linked found).2
  | failed _ _ _ below =>
      obtain ⟨after, impossible⟩ := below stand.inner
      cases impossible
  | passed _ _ inner _ _ behind => exact behind (stand.outer inner)

/-! ## The end of the check -/

/-- Nodes that a check from the root may have seen: none twice, and all of them there, the root perhaps aside. -/
structure Seen (tree : Tree) (root : NodeId) (seen : List NodeId) : Prop where
  nodup : seen.Nodup
  has : ∀ id ∈ seen, id = root ∨ tree.Has id

namespace Seen

theorem cons (known : tree.Seen root seen) (absent : id ∉ seen) (has : id = root ∨ tree.Has id) :
    tree.Seen root (id :: seen) where
  nodup := List.nodup_cons.2 ⟨absent, known.nodup⟩
  has := List.forall_mem_cons.2 ⟨has, known.has⟩

/-- There are no more of them than nodes and the root. -/
theorem length_le (known : tree.Seen root seen) : seen.length ≤ tree.size + 1 := by
  have numbers : (seen.map NodeId.index).Nodup :=
    List.Pairwise.map NodeId.index (fun left right different same => different (congrArg NodeId.mk same)) known.nodup
  have within : seen.map NodeId.index ⊆ root.index :: List.range tree.size := by
    intro number member
    obtain ⟨id, inside, rfl⟩ := List.mem_map.1 member
    rcases known.has id inside with rfl | has
    · exact List.mem_cons_self
    · exact List.mem_cons_of_mem _ (List.mem_range.2 has)
  simpa using (List.subperm_of_subset numbers within).length_le

/-- A check that passes keeps what was seen, and adds to it. -/
theorem passed (known : tree.Seen root seen) (has : ∀ id ∈ children, id = root ∨ tree.Has id)
    (checked : tree.Checks seen children (.ok after)) : tree.Seen root after ∧ seen.length ≤ after.length := by
  generalize passes : Except.ok after = answer at checked
  induction checked generalizing after with
  | done =>
      cases passes
      exact ⟨known, Nat.le_refl _⟩
  | again => cases passes
  | unlinked => cases passes
  | failed => cases passes
  | passed absent links _ _ below behind =>
      obtain ⟨own, others⟩ := List.forall_mem_cons.1 has
      obtain ⟨middle, grown⟩ := below (known.cons absent own) (fun child member => .inr (has_of_parent (links child member))) rfl
      obtain ⟨after, more⟩ := behind middle others passes
      refine ⟨after, ?_⟩
      rw [List.length_cons] at grown
      omega

end Seen

/-- A check of siblings one by one comes to the answer that the check of all of them does. -/
theorem checks_foldlM {check : List NodeId → NodeId → Except Fault (List NodeId)}
    (checks : ∀ seen id, tree.Seen root seen → (id = root ∨ tree.Has id) → after.length ≤ seen.length →
      tree.Checks seen [id] (check seen id))
    (known : tree.Seen root seen) (has : ∀ id ∈ children, id = root ∨ tree.Has id) (grown : after.length ≤ seen.length) :
    tree.Checks seen children (children.foldlM check seen) := by
  induction children generalizing seen with
  | nil => exact .done
  | cons id rest hypothesis =>
      obtain ⟨own, others⟩ := List.forall_mem_cons.1 has
      have first := checks seen id known own grown
      rw [List.foldlM_cons]
      cases answer : check seen id with
      | error fault =>
          rw [answer] at first
          cases first with
          | again member => exact .again member
          | unlinked absent found => exact .unlinked absent found
          | failed absent links inner => exact .failed absent links inner
          | passed _ _ _ outer => cases outer
      | ok middle =>
          rw [answer] at first
          obtain ⟨knownMiddle, more⟩ := known.passed (List.forall_mem_singleton.2 own) first
          have behind := hypothesis knownMiddle others (Nat.le_trans grown more)
          cases first with
          | passed absent links inner outer =>
              cases outer
              exact .passed absent links inner behind

/-- With a budget that all nodes fit into, the check does not run out of it. -/
theorem checks_checkBelow {budget : Nat} (known : tree.Seen root seen) (has : id = root ∨ tree.Has id)
    (enough : tree.size + 1 < seen.length + budget) : tree.Checks seen [id] (tree.checkBelow budget seen id) := by
  induction budget generalizing seen id with
  | zero => exact absurd known.length_le (Nat.not_le_of_lt enough)
  | succ budget hypothesis =>
      rw [checkBelow]
      split
      · rename_i contained
        exact .again (List.contains_iff_mem.1 contained)
      · rename_i fresh
        have absent : id ∉ seen := fun member => fresh (List.contains_iff_mem.2 member)
        split
        · rename_i found
          exact .unlinked absent found
        · rename_i agreed
          have links := Checks.linked_of_find? agreed
          have inner : tree.Checks (id :: seen) (tree.children id)
              ((tree.children id).foldlM (tree.checkBelow budget) (id :: seen)) := by
            refine checks_foldlM (fun later other known has grown => hypothesis known has ?_)
              (known.cons absent has) (fun child member => .inr (has_of_parent (links child member))) (Nat.le_refl _)
            rw [List.length_cons] at grown
            omega
          cases answer : (tree.children id).foldlM (tree.checkBelow budget) (id :: seen) with
          | error fault =>
              rw [answer] at inner
              exact .failed absent links inner
          | ok middle =>
              rw [answer] at inner
              exact .passed absent links inner .done

/-- The check of owners comes to its end, to one answer, whatever the links between the nodes are; and it passes exactly
when each node below the root is reached in one way and linked to the node that lists it. -/
theorem checkOwnership_eq_ok_iff (tree : Tree) (root : NodeId) :
    (∃ answer, (∀ other, tree.Checks [] [root] other ↔ other = answer) ∧
        tree.checkOwnership root = answer.map fun _ => ()) ∧
      (tree.checkOwnership root = .ok () ↔ tree.IsTreeAt root) := by
  have known : tree.Seen root [] := ⟨List.nodup_nil, fun _ member => absurd member List.not_mem_nil⟩
  have checked : tree.Checks [] [root] (tree.checkBelow (tree.depthBound + 1) [] root) :=
    checks_checkBelow known (.inl rfl) (by simp [depthBound])
  refine ⟨⟨_, fun other => ⟨fun also => also.unique checked, fun same => same ▸ checked⟩, rfl⟩, ?_⟩
  rw [isTreeAt_iff, checkOwnership]
  constructor
  · intro passes
    cases answer : tree.checkBelow (tree.depthBound + 1) [] root with
    | error fault =>
        rw [answer] at passes
        cases passes
    | ok after =>
        rw [answer] at checked
        exact checked.areTreesAt
  · intro stand
    obtain ⟨after, passes⟩ := checked.eq_ok stand
    rw [passes]
    rfl

/-- A ring of two nodes, each linked to the one that lists it, is no tree: there are ways around it. -/
example : (checkOwnership { file := "ring.html", nodes := [{ kind := .conditional, children := [⟨1⟩], parent := some ⟨1⟩ },
    { kind := .branch none, children := [⟨0⟩], parent := some ⟨0⟩ }] } ⟨0⟩).isOk = false := by
  decide

end Tree
end HtmlTemplate
