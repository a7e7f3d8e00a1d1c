import HtmlTemplate.Control
import HtmlTemplate.Proofs.Transform
import HtmlTemplate.Proofs.Tree.Success

/-!
# What control tags retain

The transforms of the core taglib move nodes and make new ones. Those that were there before stay what they are,
with their attributes and marks, but for a directive that is taken from its tag; and no tag is looked up for
those that are new.
-/

namespace HtmlTemplate

namespace Node

/-- What a node is, apart from its place in the tree. -/
def matter (node : Node) : Kind × List Attribute × Bool :=
  (node.kind, node.attributes, node.preserve)

theorem matter_eq_iff {first second : Node} : first.matter = second.matter ↔
    first.kind = second.kind ∧ first.attributes = second.attributes ∧ first.preserve = second.preserve := by
  simp [matter]

end Node

namespace Tree

/-- The nodes that were there are what they were, and the new ones are no tags and have no marks. -/
structure Retains (before after : Tree) : Prop where
  size_le : before.size ≤ after.size
  matter : ∀ id, before.Has id → (after.node id).matter = (before.node id).matter
  untagged : ∀ id, ¬before.Has id → (after.kind id).tag? = none
  unmarked : ∀ id, ¬before.Has id → (after.node id).preserve = false

namespace Retains

variable {before middle after tree : Tree} {id parent child old new : NodeId}

theorem refl (tree : Tree) : tree.Retains tree :=
  ⟨Nat.le_refl _, fun _ _ => rfl, fun id absent => by rw [kind_of_not_has absent]; rfl,
    fun id absent => by rw [node_of_not_has absent]; rfl⟩

theorem trans (first : before.Retains middle) (second : middle.Retains after) : before.Retains after := by
  have has : ∀ {id}, before.Has id → middle.Has id := fun present => Nat.lt_of_lt_of_le present first.size_le
  refine ⟨Nat.le_trans first.size_le second.size_le, ?_, ?_, ?_⟩
  · intro id present
    rw [second.matter id (has present), first.matter id present]
  · intro id absent
    by_cases made : middle.Has id
    · have same := (Node.matter_eq_iff.1 (second.matter id made)).1
      rw [Tree.kind, same]
      exact first.untagged id absent
    · exact second.untagged id made
  · intro id absent
    by_cases made : middle.Has id
    · rw [(Node.matter_eq_iff.1 (second.matter id made)).2.2]
      exact first.unmarked id absent
    · exact second.unmarked id made

theorem update (tree : Tree) (id : NodeId) {change : Node → Node} (keeps : ∀ node, (change node).matter = node.matter) :
    tree.Retains (tree.update id change) := by
  have same := fun other => field_update tree id other Node.matter keeps
  refine ⟨Nat.le_of_eq (size_update _ _ _).symm, fun other _ => same other, fun other absent => ?_, fun other absent => ?_⟩
  · rw [Tree.kind, (Node.matter_eq_iff.1 (same other)).1]
    exact (refl tree).untagged other absent
  · rw [(Node.matter_eq_iff.1 (same other)).2.2]
    exact (refl tree).unmarked other absent

theorem setParent (tree : Tree) (parent : Option NodeId) (id : NodeId) : tree.Retains (tree.setParent parent id) :=
  update tree id fun _ => rfl

theorem setParents (tree : Tree) (parent : Option NodeId) (ids : List NodeId) :
    tree.Retains (tree.setParents parent ids) :=
  setParents_induction (motive := tree.Retains) tree parent ids (refl tree) fun _ _ retains => retains.trans (setParent ..)

theorem setChildren (tree : Tree) (id : NodeId) (children : List NodeId) :
    tree.Retains (tree.setChildren id children) :=
  update tree id fun _ => rfl

theorem push (tree : Tree) {node : Node} (untagged : node.kind.tag? = none) (unmarked : node.preserve = false) :
    tree.Retains (tree.push node).2 := by
  have new : ∀ id, ¬tree.Has id → (tree.push node).2.node id = node ∨ (tree.push node).2.node id = tree.node id := by
    intro id absent
    by_cases made : (tree.push node).2.Has id
    · obtain rfl := ((has_push node).1 made).resolve_left absent
      exact .inl (node_push_self _ _)
    · exact .inr (by rw [node_of_not_has made, node_of_not_has absent])
  refine ⟨by rw [size_push]; exact Nat.le_succ _, fun id present => by rw [node_push_of_has _ present], fun id absent => ?_,
    fun id absent => ?_⟩
  · rcases new id absent with same | same <;> rw [Tree.kind, same]
    · exact untagged
    · exact (refl tree).untagged id absent
  · rcases new id absent with same | same <;> rw [same]
    · exact unmarked
    · exact (refl tree).unmarked id absent

theorem create {position : Position} {kind : Kind} {attributes : List (String × String)} {children : List NodeId}
    {made : NodeId × Tree} (untagged : kind.tag? = none)
    (created : tree.create position kind attributes children = .ok made) : tree.Retains made.2 := by
  obtain ⟨read, -, -, -, -, -, rfl⟩ := create_eq_ok_iff.1 created
  exact (push tree untagged rfl).trans (setParents ..)

theorem append (made : tree.append parent child = .ok after) : tree.Retains after := by
  unfold Tree.append at made
  simp only [bind_eq_ok_iff] at made
  obtain ⟨-, -, -, -, -, -, made⟩ := made
  obtain rfl := Except.ok.inj made
  exact (setParent ..).trans (setChildren ..)

theorem remove (made : tree.remove parent child = .ok after) : tree.Retains after := by
  obtain ⟨index, -, rfl⟩ := remove_eq_ok_iff.1 made
  exact (setChildren ..).trans (setParent ..)

theorem detach (made : tree.detach id = .ok after) : tree.Retains after := by
  unfold Tree.detach at made
  split at made
  · exact remove made
  · obtain rfl := Except.ok.inj made
    exact refl tree

theorem replace (made : tree.replace parent old new = .ok after) : tree.Retains after := by
  unfold Tree.replace at made
  simp only [bind_eq_ok_iff] at made
  obtain ⟨index, -, -, -, -, -, made⟩ := made
  obtain rfl := Except.ok.inj made
  exact ((setChildren ..).trans (setParent ..)).trans (setParent ..)

theorem takeChildren (tree : Tree) (id : NodeId) : tree.Retains (tree.takeChildren id).2 :=
  (setChildren ..).trans (setParents ..)

end Retains
end Tree

namespace Edit

variable {α β : Type}

/-- Whatever the edit gives, it retains what was there. -/
def Retains (work : Edit α) : Prop :=
  ∀ context value after, work.run context = (.ok value, after) → context.tree.Retains after.tree

theorem retains_pure (value : α) : Retains (pure value : Edit α) := by
  intro context given after ran
  obtain ⟨-, rfl⟩ := run_pure_eq_ok_iff.1 ran
  exact .refl _

theorem retains_failAt (id : NodeId) (cause : Cause) : Retains (failAt id cause : Edit α) := by
  intro context given after ran
  cases ran

theorem Retains.bind {first : Edit α} {next : α → Edit β} (begins : Retains first) (goesOn : ∀ value, Retains (next value)) :
    Retains (first >>= next) := by
  intro context value after ran
  obtain ⟨given, between, began, ended⟩ := run_bind_eq_ok_iff.1 ran
  exact (begins _ _ _ began).trans (goesOn given _ _ _ ended)

theorem retains_tree : Retains Edit.tree := by
  intro context value after ran
  cases ran
  exact .refl _

theorem retains_get : Retains (get : Edit Context) := by
  intro context value after ran
  cases ran
  exact .refl _

theorem retains_changeTree {change : Tree → Except Fault Tree}
    (changes : ∀ {before after}, change before = .ok after → before.Retains after) : Retains (changeTree change) := by
  intro context value after ran
  obtain ⟨tree, made, rfl⟩ := run_changeTree_eq_ok_iff.1 ran
  exact changes made

theorem retains_makeTree {change : Tree → Except Fault (α × Tree)}
    (changes : ∀ {before made}, change before = .ok made → before.Retains made.2) : Retains (makeTree change) := by
  intro context value after ran
  obtain ⟨tree, made, rfl⟩ := run_makeTree_eq_ok_iff.1 ran
  exact changes made

theorem retains_warn (id : NodeId) (code message : String) : Retains (warn id code message) := by
  intro context value after ran
  cases ran
  exact .refl _

end Edit

namespace Construct

open Edit

theorem retains_requireOnly (id : NodeId) (allowed : List String) : Retains (requireOnly id allowed) := by
  refine retains_tree.bind fun tree => ?_
  dsimp only
  split
  · exact retains_failAt id _
  · exact retains_pure ()

theorem retains_requireCode (id : NodeId) (name : String) : Retains (requireCode id name) := by
  refine retains_tree.bind fun tree => ?_
  dsimp only
  split
  · exact retains_failAt id _
  · exact retains_pure _

theorem retains_create (place : NodeId) {kind : Kind} (untagged : kind.tag? = none) (children : List NodeId) :
    Retains (create place kind children) :=
  retains_makeTree fun made => .create untagged made

theorem retains_conditional (place : NodeId) (test : String) : Retains (Construct.conditional place test) :=
  (retains_create place rfl []).bind fun branch => (retains_create place rfl [branch]).bind fun _ => retains_pure _

theorem retains_iteration (place : NodeId) (header : String) : Retains (iteration place header) := by
  unfold iteration
  split
  · exact retains_create place rfl []
  · exact retains_failAt place _

theorem retains_append (parent child : NodeId) : Retains (append parent child) :=
  retains_changeTree .append

theorem retains_appendAll (parent : NodeId) (children : List NodeId) : Retains (appendAll parent children) := by
  induction children with
  | nil => exact retains_pure ()
  | cons child children hypothesis =>
      change Retains (append parent child >>= fun _ => appendAll parent children)
      exact (retains_append parent child).bind fun _ => hypothesis

theorem retains_takeChildren (id : NodeId) : Retains (takeTree fun tree => tree.takeChildren id) :=
  retains_makeTree fun {before _} same => Except.ok.inj same ▸ .takeChildren before id

theorem retains_moveChildren (source target : NodeId) : Retains (moveChildren source target) :=
  (retains_takeChildren source).bind fun children => retains_appendAll target children

theorem retains_replace (id replacement : NodeId) : Retains (replace id replacement) := by
  refine retains_tree.bind fun tree => ?_
  split
  · exact retains_failAt id _
  · exact (retains_changeTree .replace).bind fun _ => retains_pure _

theorem retains_wrap (id construct : NodeId) : Retains (wrap id construct) :=
  (retains_replace id construct).bind fun _ => retains_tree.bind fun _ =>
    (retains_append _ id).bind fun _ => retains_pure _

theorem retains_lowerComment (id : NodeId) : Retains (Comment.lower id) := by
  have text : ∀ ids, Retains (Comment.textOf ids) := by
    intro ids
    induction ids with
    | nil => exact retains_pure ""
    | cons first ids hypothesis =>
        unfold Comment.textOf
        refine retains_tree.bind fun tree => ?_
        split
        · exact hypothesis.bind fun _ => retains_pure _
        · exact retains_failAt first _
  unfold Comment.lower
  refine retains_tree.bind fun tree => ?_
  split
  · exact retains_pure _
  · exact (retains_requireOnly id []).bind fun _ => (text _).bind fun value =>
      (retains_create id rfl []).bind fun comment => retains_replace id comment

theorem retains_lowerFor (id : NodeId) : Retains (Iteration.lower id) := by
  unfold Iteration.lower
  refine retains_tree.bind fun tree => ?_
  dsimp only
  split
  · exact retains_pure _
  · refine (retains_requireOnly id _).bind fun _ => (retains_requireCode id _).bind fun header =>
      (retains_iteration id header).bind fun loop => retains_tree.bind fun tree => ?_
    split
    · exact (retains_requireCode id _).bind fun test => (retains_conditional id test).bind fun (conditional, branch) =>
        (retains_moveChildren id branch).bind fun _ => (retains_append loop conditional).bind fun _ =>
          retains_replace id loop
    · exact (retains_moveChildren id loop).bind fun _ => retains_replace id loop

theorem retains_takeFollowing (nesting : Nesting) (ids : List NodeId) :
    Retains (Conditional.takeFollowing nesting ids) := by
  induction ids with
  | nil => exact retains_pure []
  | cons sibling ids hypothesis =>
      have taken : Retains (detach sibling) := retains_changeTree .detach
      unfold Conditional.takeFollowing
      refine retains_tree.bind fun tree => ?_
      split
      · split
        · exact taken.bind fun _ => hypothesis
        · exact retains_pure []
      · split
        · exact taken.bind fun _ => hypothesis.bind fun _ => retains_pure _
        · exact retains_pure []

theorem retains_warnDeprecated (id : NodeId) (tag : String) : Retains (Conditional.warnDeprecated id tag) := by
  refine retains_get.bind fun context => ?_
  split
  · exact retains_warn id _ _
  · exact retains_pure ()

theorem retains_readTest (id : NodeId) (tag : String) : Retains (Conditional.readTest id tag) := by
  unfold Conditional.readTest
  split
  · exact (retains_requireOnly id _).bind fun _ => (retains_requireCode id _).bind fun _ => retains_pure _
  · exact (retains_requireOnly id _).bind fun _ => retains_pure _

theorem retains_addBranches (conditional : NodeId) (closed : Bool) (ids : List NodeId) :
    Retains (Conditional.addBranches conditional closed ids) := by
  induction ids generalizing closed with
  | nil => exact retains_pure ()
  | cons id ids hypothesis =>
      unfold Conditional.addBranches
      refine retains_tree.bind fun tree => ?_
      dsimp only
      split
      · exact retains_failAt id _
      · exact (retains_warnDeprecated id _).bind fun _ => (retains_readTest id _).bind fun test =>
          (retains_create id rfl []).bind fun branch => (retains_moveChildren id branch).bind fun _ =>
            (retains_append conditional branch).bind fun _ => hypothesis _

theorem retains_lowerIf (id : NodeId) : Retains (Conditional.lower id) := by
  unfold Conditional.lower
  refine retains_tree.bind fun tree => ?_
  dsimp only
  split
  · exact retains_pure _
  · refine (retains_requireOnly id _).bind fun _ => (retains_requireCode id _).bind fun test => retains_get.bind fun context =>
      (retains_conditional id test).bind fun (conditional, first) => (retains_takeChildren id).bind fun children =>
        retains_tree.bind fun tree => (retains_appendAll first _).bind fun _ => retains_tree.bind fun tree =>
          (retains_takeFollowing _ _).bind fun following => (retains_addBranches conditional false _).bind fun _ =>
            retains_tree.bind fun tree => ?_
    split
    · exact retains_replace id conditional
    · exact (retains_iteration id _).bind fun loop => (retains_replace id loop).bind fun outcome =>
        (retains_append loop conditional).bind fun _ => retains_pure outcome

/-- A directive is taken from its tag, and else all is retained. -/
theorem retains_lowerDirective {id : NodeId} {context after : Context} {outcome : Outcome}
    (ran : (Directive.lower id).run context = (.ok outcome, after)) :
    outcome = .unchanged ∧ after = context ∨
      ∃ name, (name = "for" ∧ (Directive.loopHeader? context.tree id).isSome = true ∨
          name = "if" ∧ Directive.loopHeader? context.tree id = none ∧ (context.tree.attribute? id "if").isSome = true) ∧
        (context.tree.removeAttribute id name).2.Retains after.tree := by
  unfold Directive.lower at ran
  rw [run_bind_eq_ok_iff] at ran
  obtain ⟨_, _, ⟨⟩, ran⟩ := ran
  have dropped : ∀ {work : Edit Outcome} {name : String}, Retains work →
      (do Directive.dropAttribute id name; work : Edit Outcome).run context = (.ok outcome, after) →
        (context.tree.removeAttribute id name).2.Retains after.tree := by
    intro work name retains ran
    obtain ⟨_, between, began, ended⟩ := run_bind_eq_ok_iff.1 ran
    cases began
    exact retains _ _ _ ended
  dsimp only at ran
  split at ran
  · obtain ⟨rfl, rfl⟩ := run_pure_eq_ok_iff.1 ran
    exact .inl ⟨rfl, rfl⟩
  · split at ran
    · next header found =>
        refine .inr ⟨"for", .inl ⟨rfl, by rw [found]; rfl⟩, dropped ?_ ran⟩
        exact (retains_iteration id header).bind fun loop => retains_wrap id loop
    · next none =>
        split at ran
        · obtain ⟨rfl, rfl⟩ := run_pure_eq_ok_iff.1 ran
          exact .inl ⟨rfl, rfl⟩
        · next given found =>
            split at ran
            · cases ran
            · refine .inr ⟨"if", .inr ⟨rfl, none, by rw [found]; rfl⟩, dropped ?_ ran⟩
              exact (retains_conditional id _).bind fun made => retains_wrap id made.1

end Construct
end HtmlTemplate
