import HtmlTemplate.Control
import HtmlTemplate.Proofs.Transform
import HtmlTemplate.Proofs.Tree.Relinking
import HtmlTemplate.Proofs.Tree.Success

/-!
# Control tags without parents

A control tag is replaced by the construct that it stands for, which needs a place. While the construct is made, the
tag is never put below another node, so a control tag that has no parent cannot be turned into anything.
-/

namespace HtmlTemplate

namespace Tree

/-- The node is in the tree, but below no other one. -/
structure Loose (tree : Tree) (id : NodeId) : Prop where
  present : tree.Has id
  detached : tree.parent id = none
  unlisted : ∀ other, id ∉ tree.children other

namespace Loose

variable {tree after : Tree} {id parent child other : NodeId} {ids : List NodeId}

theorem setParent (loose : tree.Loose id) {above : Option NodeId} (apart : child = id → above = none) :
    (tree.setParent above child).Loose id where
  present := by simpa using loose.present
  detached := by
    by_cases same : child = id
    · rw [same, apart same, parent_setParent_self _ loose.present]
    · rw [parent_setParent_of_ne _ (Ne.symm same), loose.detached]
  unlisted other := by
    rw [children_setParent]
    exact loose.unlisted other

theorem setParents (loose : tree.Loose id) {above : Option NodeId} (apart : id ∈ ids → above = none) :
    (tree.setParents above ids).Loose id := by
  unfold Tree.setParents
  induction ids generalizing tree with
  | nil => exact loose
  | cons first ids hypothesis =>
      refine hypothesis (loose.setParent fun same => apart ?_) fun member => apart (List.mem_cons_of_mem first member)
      rw [same]
      exact List.mem_cons_self

theorem setChildren (loose : tree.Loose id) (outside : id ∉ ids) : (tree.setChildren parent ids).Loose id where
  present := by simpa using loose.present
  detached := by
    rw [parent_setChildren]
    exact loose.detached
  unlisted other := by
    by_cases same : other = parent
    · by_cases there : tree.Has parent
      · rw [same, children_setChildren_self _ there]
        exact outside
      · rw [Tree.children, node_of_not_has (by simpa [same] using there)]
        exact List.not_mem_nil
    · rw [children_setChildren_of_ne _ same]
      exact loose.unlisted other

theorem push (loose : tree.Loose id) {node : Node} (outside : id ∉ node.children) : (tree.push node).2.Loose id where
  present := (has_push node).2 (.inl loose.present)
  detached := by
    rw [Tree.parent, node_push_of_has _ loose.present]
    exact loose.detached
  unlisted other := by
    by_cases fresh : other = ⟨tree.size⟩
    · rw [fresh, Tree.children, node_push_self]
      exact outside
    · rw [Tree.children, node_push_of_ne fresh]
      exact loose.unlisted other

theorem create (loose : tree.Loose id) {position : Position} {kind : Kind} {attributes : List (String × String)}
    {made : NodeId × Tree} (outside : id ∉ ids) (created : tree.create position kind attributes ids = .ok made) :
    made.2.Loose id ∧ made.1 ≠ id := by
  obtain ⟨read, -, -, -, -, -, rfl⟩ := create_eq_ok_iff.1 created
  refine ⟨(loose.push outside).setParents fun member => absurd member outside, ?_⟩
  rintro rfl
  exact Nat.lt_irrefl _ loose.present

theorem append (loose : tree.Loose id) (apart : child ≠ id) (made : tree.append parent child = .ok after) : after.Loose id := by
  unfold Tree.append at made
  simp only [bind_eq_ok_iff] at made
  obtain ⟨-, -, -, -, -, -, made⟩ := made
  obtain rfl := Except.ok.inj made
  refine (loose.setParent fun same => absurd same apart).setChildren fun member => ?_
  rcases List.mem_append.1 member with before | last
  · exact loose.unlisted parent before
  · exact apart (List.mem_singleton.1 last).symm

theorem detach (loose : tree.Loose id) (made : tree.detach child = .ok after) : after.Loose id := by
  unfold Tree.detach at made
  split at made
  · obtain ⟨index, -, rfl⟩ := remove_eq_ok_iff.1 made
    refine (loose.setChildren fun member => ?_).setParent fun _ => rfl
    exact loose.unlisted _ (List.mem_of_mem_eraseIdx member)
  · obtain rfl := Except.ok.inj made
    exact loose

theorem takeChildren (loose : tree.Loose id) (other : NodeId) :
    (tree.takeChildren other).2.Loose id ∧ id ∉ (tree.takeChildren other).1 :=
  ⟨(loose.setChildren List.not_mem_nil).setParents fun _ => rfl, loose.unlisted other⟩

end Loose
end Tree

namespace Edit

variable {α β : Type} {id : NodeId}

/-- The edit leaves the node loose, and gives something good. -/
def Leaves (id : NodeId) (work : Edit α) (good : α → Prop) : Prop :=
  ∀ context value after, context.tree.Loose id → work.run context = (.ok value, after) → after.tree.Loose id ∧ good value

/-- The edit fails if the node is loose. -/
def Refuses (id : NodeId) (work : Edit α) : Prop :=
  ∀ context value after, context.tree.Loose id → work.run context ≠ (.ok value, after)

variable {good : α → Prop} {other : β → Prop}

theorem Leaves.bind {first : Edit α} {next : α → Edit β} (begins : Leaves id first good)
    (goesOn : ∀ value, good value → Leaves id (next value) other) : Leaves id (first >>= next) other := by
  intro context value after loose ran
  obtain ⟨given, between, began, ended⟩ := run_bind_eq_ok_iff.1 ran
  obtain ⟨loose, holds⟩ := begins _ _ _ loose began
  exact goesOn given holds _ _ _ loose ended

theorem Leaves.refuses {first : Edit α} {next : α → Edit β} (begins : Leaves id first good)
    (goesOn : ∀ value, good value → Refuses id (next value)) : Refuses id (first >>= next) := by
  intro context value after loose ran
  obtain ⟨given, between, began, ended⟩ := run_bind_eq_ok_iff.1 ran
  obtain ⟨loose, holds⟩ := begins _ _ _ loose began
  exact goesOn given holds _ _ _ loose ended

theorem leaves_pure {value : α} (holds : good value) : Leaves id (pure value : Edit α) good := by
  intro context given after loose ran
  obtain ⟨rfl, rfl⟩ := run_pure_eq_ok_iff.1 ran
  exact ⟨loose, holds⟩

theorem leaves_failAt (place : NodeId) (cause : Cause) : Leaves id (failAt place cause : Edit α) good := by
  intro context given after loose ran
  cases ran

theorem leaves_tree : Leaves id Edit.tree fun tree => tree.Loose id := by
  intro context value after loose ran
  cases ran
  exact ⟨loose, loose⟩

theorem leaves_get : Leaves id (get : Edit Context) fun _ => True := by
  intro context value after loose ran
  cases ran
  exact ⟨loose, trivial⟩

theorem leaves_warn (place : NodeId) (code message : String) : Leaves id (warn place code message) fun _ => True := by
  intro context value after loose ran
  cases ran
  exact ⟨loose, trivial⟩

theorem leaves_changeTree {change : Tree → Except Fault Tree}
    (changes : ∀ {before after}, before.Loose id → change before = .ok after → after.Loose id) :
    Leaves id (changeTree change) fun _ => True := by
  intro context value after loose ran
  obtain ⟨tree, made, rfl⟩ := run_changeTree_eq_ok_iff.1 ran
  exact ⟨changes loose made, trivial⟩

theorem leaves_makeTree {change : Tree → Except Fault (α × Tree)}
    (changes : ∀ {before made}, before.Loose id → change before = .ok made → made.2.Loose id ∧ good made.1) :
    Leaves id (makeTree change) good := by
  intro context value after loose ran
  obtain ⟨tree, made, rfl⟩ := run_makeTree_eq_ok_iff.1 ran
  exact changes loose made

end Edit

namespace Construct

open Edit

variable {id : NodeId}

theorem leaves_requireOnly (place : NodeId) (allowed : List String) : Leaves id (requireOnly place allowed) fun _ => True := by
  refine leaves_tree.bind fun tree _ => ?_
  dsimp only
  split
  · exact leaves_failAt place _
  · exact leaves_pure trivial

theorem leaves_requireCode (place : NodeId) (name : String) : Leaves id (requireCode place name) fun _ => True := by
  refine leaves_tree.bind fun tree _ => ?_
  dsimp only
  split
  · exact leaves_failAt place _
  · exact leaves_pure trivial

theorem leaves_create (place : NodeId) (kind : Kind) {children : List NodeId} (outside : id ∉ children) :
    Leaves id (create place kind children) fun made => made ≠ id :=
  leaves_makeTree fun loose made => loose.create outside made

theorem leaves_conditional (place : NodeId) (test : String) :
    Leaves id (Construct.conditional place test) fun made => made.1 ≠ id :=
  (leaves_create place _ List.not_mem_nil).bind fun branch apart =>
    (leaves_create place _ (by simpa using apart.symm)).bind fun _ apart => leaves_pure apart

theorem leaves_iteration (place : NodeId) (header : String) : Leaves id (iteration place header) fun made => made ≠ id := by
  unfold iteration
  split
  · exact leaves_create place _ List.not_mem_nil
  · exact leaves_failAt place _

theorem leaves_append (parent : NodeId) {child : NodeId} (apart : child ≠ id) : Leaves id (append parent child) fun _ => True :=
  leaves_changeTree fun loose made => loose.append apart made

theorem leaves_appendAll (parent : NodeId) {children : List NodeId} (outside : id ∉ children) :
    Leaves id (appendAll parent children) fun _ => True := by
  induction children with
  | nil => exact leaves_pure trivial
  | cons child children hypothesis =>
      change Leaves id (append parent child >>= fun _ => appendAll parent children) fun _ => True
      exact (leaves_append parent (List.ne_of_not_mem_cons outside).symm).bind fun _ _ =>
        hypothesis (List.not_mem_of_not_mem_cons outside)

theorem leaves_takeChildren (other : NodeId) :
    Leaves id (takeTree fun tree => tree.takeChildren other) fun children => id ∉ children :=
  leaves_makeTree fun {_ _} loose same => Except.ok.inj same ▸ loose.takeChildren other

theorem leaves_moveChildren (source target : NodeId) : Leaves id (moveChildren source target) fun _ => True :=
  (leaves_takeChildren source).bind fun _ outside => leaves_appendAll target outside

theorem refuses_replace (replacement : NodeId) : Refuses id (replace id replacement) := by
  intro context value after loose ran
  unfold replace at ran
  rw [run_bind, run_tree] at ran
  dsimp only at ran
  rw [loose.detached] at ran
  cases ran

theorem leaves_textOf (ids : List NodeId) : Leaves id (Comment.textOf ids) fun _ => True := by
  induction ids with
  | nil => exact leaves_pure trivial
  | cons first ids hypothesis =>
      unfold Comment.textOf
      refine leaves_tree.bind fun tree _ => ?_
      split
      · exact hypothesis.bind fun _ _ => leaves_pure trivial
      · exact leaves_failAt first _

theorem leaves_takeFollowing (nesting : Nesting) (ids : List NodeId) :
    Leaves id (Conditional.takeFollowing nesting ids) fun _ => True := by
  induction ids with
  | nil => exact leaves_pure trivial
  | cons sibling ids hypothesis =>
      have taken : Leaves id (detach sibling) fun _ => True := leaves_changeTree fun loose made => loose.detach made
      unfold Conditional.takeFollowing
      refine leaves_tree.bind fun tree _ => ?_
      split
      · split
        · exact taken.bind fun _ _ => hypothesis
        · exact leaves_pure trivial
      · split
        · exact taken.bind fun _ _ => hypothesis.bind fun _ _ => leaves_pure trivial
        · exact leaves_pure trivial

theorem leaves_readTest (place : NodeId) (tag : String) : Leaves id (Conditional.readTest place tag) fun _ => True := by
  unfold Conditional.readTest
  split
  · exact (leaves_requireOnly place _).bind fun _ _ => (leaves_requireCode place _).bind fun _ _ => leaves_pure trivial
  · exact (leaves_requireOnly place _).bind fun _ _ => leaves_pure trivial

theorem leaves_warnDeprecated (place : NodeId) (tag : String) :
    Leaves id (Conditional.warnDeprecated place tag) fun _ => True := by
  refine leaves_get.bind fun context _ => ?_
  split
  · exact leaves_warn place _ _
  · exact leaves_pure trivial

theorem leaves_addBranches (conditional : NodeId) (closed : Bool) (ids : List NodeId) :
    Leaves id (Conditional.addBranches conditional closed ids) fun _ => True := by
  induction ids generalizing closed with
  | nil => exact leaves_pure trivial
  | cons tag ids hypothesis =>
      unfold Conditional.addBranches
      refine leaves_tree.bind fun tree _ => ?_
      dsimp only
      split
      · exact leaves_failAt tag _
      · exact (leaves_warnDeprecated tag _).bind fun _ _ => (leaves_readTest tag _).bind fun test _ =>
          (leaves_create tag _ List.not_mem_nil).bind fun branch apart => (leaves_moveChildren tag branch).bind fun _ _ =>
            (leaves_append conditional apart).bind fun _ _ => hypothesis _

/-- The transforms of control tags refuse elements without parents. -/
theorem refuses_lower {context after : Context} {outcome : Outcome} (loose : context.tree.Loose id)
    (element : (elementTag? context.tree id).isSome = true) :
    (Conditional.lower id).run context ≠ (.ok outcome, after) ∧ (Iteration.lower id).run context ≠ (.ok outcome, after) ∧
      (Comment.lower id).run context ≠ (.ok outcome, after) := by
  obtain ⟨tag, found⟩ := Option.isSome_iff_exists.1 element
  refine ⟨?_, ?_, ?_⟩
  · unfold Conditional.lower
    rw [run_bind, run_tree]
    dsimp only
    rw [found]
    refine ((leaves_requireOnly id _).refuses fun _ _ => (leaves_requireCode id _).refuses fun test _ =>
      leaves_get.refuses fun context _ => (leaves_conditional id test).refuses fun (conditional, first) apart =>
        (leaves_takeChildren id).refuses fun children outside => leaves_tree.refuses fun tree _ =>
          (leaves_appendAll first fun member => outside (List.mem_filter.1 member).1).refuses fun _ _ =>
            leaves_tree.refuses fun tree _ => (leaves_takeFollowing _ _).refuses fun following _ =>
              (leaves_addBranches conditional false _).refuses fun _ _ => leaves_tree.refuses fun tree _ => ?_) _ _ _ loose
    split
    · exact refuses_replace conditional
    · refine (leaves_iteration id _).refuses fun loop _ => ?_
      intro context value after loose ran
      obtain ⟨given, between, began, -⟩ := run_bind_eq_ok_iff.1 ran
      exact refuses_replace loop _ _ _ loose began
  · unfold Iteration.lower
    rw [run_bind, run_tree]
    dsimp only
    rw [found, if_neg (by simp)]
    refine ((leaves_requireOnly id _).refuses fun _ _ => (leaves_requireCode id _).refuses fun header _ =>
      (leaves_iteration id header).refuses fun loop _ => leaves_tree.refuses fun tree _ => ?_) _ _ _ loose
    split
    · exact (leaves_requireCode id _).refuses fun test _ =>
        (leaves_conditional id test).refuses fun (conditional, branch) apart =>
        (leaves_moveChildren id branch).refuses fun _ _ => (leaves_append loop apart).refuses fun _ _ => refuses_replace loop
    · exact (leaves_moveChildren id loop).refuses fun _ _ => refuses_replace loop
  · unfold Comment.lower
    rw [run_bind, run_tree]
    dsimp only
    rw [found, if_neg (by simp)]
    exact ((leaves_requireOnly id []).refuses fun _ _ => (leaves_textOf _).refuses fun value _ =>
      (leaves_create id _ List.not_mem_nil).refuses fun comment _ => refuses_replace comment) _ _ _ loose

end Construct
end HtmlTemplate
