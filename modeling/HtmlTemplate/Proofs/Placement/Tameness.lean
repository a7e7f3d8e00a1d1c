import HtmlTemplate.Proofs.Placement.Conditional
import HtmlTemplate.Proofs.Walk.Termination

/-!
# Control tags are tame

The transforms of control tags change trees by edits only, whichever tree it is, report each change, and take
no node from a tree without another one in its place. So a walk with them ends.
-/

namespace HtmlTemplate

open HtmlTemplate.Tree

namespace Edit

variable {α β : Type} {context : Context} {good : α → Tree → Prop}

/-- If the edit succeeds, it has changed the tree by edits, and has done what is good. -/
def Steps (work : Edit α) (context : Context) (good : α → Tree → Prop) : Prop :=
  ∀ value after, work.run context = (.ok value, after) → context.tree.Reaches after.tree ∧ good value after.tree

theorem steps_pure {value : α} (meets : good value context.tree) : Steps (pure value) context good := by
  intro given after ran
  obtain ⟨rfl, rfl⟩ := run_pure_eq_ok_iff.1 ran
  exact ⟨.refl, meets⟩

theorem steps_failAt {id : NodeId} {cause : Cause} : Steps (failAt id cause) context good := by
  intro value after ran
  cases ran

theorem steps_tree : Steps Edit.tree context fun value tree => value = context.tree ∧ tree = context.tree := by
  intro value after ran
  cases ran
  exact ⟨.refl, rfl, rfl⟩

theorem Steps.bind {first : Edit α} {next : α → Edit β} {after : β → Tree → Prop} (begins : Steps first context good)
    (goesOn : ∀ value middle, context.tree.Reaches middle.tree → good value middle.tree →
      Steps (next value) middle after) : Steps (first >>= next) context after := by
  intro value final ran
  obtain ⟨given, middle, began, ended⟩ := run_bind_eq_ok_iff.1 ran
  obtain ⟨reaches, meets⟩ := begins given middle began
  obtain ⟨further, done⟩ := goesOn given middle reaches meets value final ended
  exact ⟨reaches.trans further, done⟩

/-- An edit that is known to leave the tree alone is no step. -/
theorem Safely.steps {work : Edit α} (safely : Safely work context fun _ after => after.tree = context.tree) :
    Steps work context fun _ tree => tree = context.tree := by
  intro value after ran
  unfold Safely at safely
  rw [ran] at safely
  exact ⟨by rw [safely]; exact .refl, safely⟩

theorem steps_changeTree {change : Tree → Except Fault Tree}
    (edits : ∀ after, change context.tree = .ok after → context.tree.Edited after) :
    Steps (changeTree change) context fun _ _ => True := by
  intro value after ran
  obtain ⟨tree, made, rfl⟩ := run_changeTree_eq_ok_iff.1 ran
  exact ⟨.single (edits tree made), trivial⟩

end Edit

namespace Construct

open Edit (Steps)

variable {context : Context} {id target conditional : NodeId}

theorem has_of_reaches {before after : Tree} (wellFormed : before.WellFormed) (reaches : before.Reaches after)
    (present : before.Has id) : after.Has id :=
  (reaches.grows wellFormed).has present

theorem steps_requireOnly (id : NodeId) (allowed : List String) :
    Steps (requireOnly id allowed) context fun _ tree => tree = context.tree :=
  Edit.Safely.steps ((safely_requireOnly id allowed).weaken fun _ _ same => by rw [same])

theorem steps_requireCode (id : NodeId) (name : String) :
    Steps (requireCode id name) context fun _ tree => tree = context.tree :=
  Edit.Safely.steps ((safely_requireCode id name).weaken fun _ _ same => by rw [same])

theorem steps_create (place : NodeId) (kind : Kind) {kids : List NodeId} (present : ∀ kid ∈ kids, context.tree.Has kid) :
    Steps (create place kind kids) context fun value tree => tree.Has value := by
  intro value after ran
  unfold create at ran
  rw [Edit.run_makeTree] at ran
  cases made : context.tree.create (context.tree.node place).position kind [] kids with
  | error fault =>
      rw [made] at ran
      cases ran
  | ok result =>
      rw [made] at ran
      cases ran
      exact ⟨.single (.create present made), has_of_create made⟩

theorem steps_append {parent child : NodeId} (hasParent : context.tree.Has parent) (hasChild : context.tree.Has child) :
    Steps (append parent child) context fun _ _ => True :=
  Edit.steps_changeTree fun _ made => .append hasParent hasChild made

theorem steps_appendAll {kids : List NodeId} (wellFormed : context.tree.WellFormed) (hasTarget : context.tree.Has target)
    (present : ∀ kid ∈ kids, context.tree.Has kid) : Steps (appendAll target kids) context fun _ _ => True := by
  induction kids generalizing context with
  | nil => exact Edit.steps_pure trivial
  | cons kid kids hypothesis =>
      change Steps (append target kid >>= fun _ => appendAll target kids) context _
      refine (steps_append hasTarget (present kid List.mem_cons_self)).bind fun _ middle reaches _ => ?_
      exact hypothesis (reaches.wellFormed wellFormed) (has_of_reaches wellFormed reaches hasTarget)
        fun other member => has_of_reaches wellFormed reaches (present other (List.mem_cons_of_mem _ member))

theorem steps_takeChildren (wellFormed : context.tree.WellFormed) (id : NodeId) :
    Steps (Edit.takeTree fun tree => tree.takeChildren id) context fun value tree => ∀ kid ∈ value, tree.Has kid := by
  intro value after ran
  cases ran
  have reaches : context.tree.Reaches (context.tree.takeChildren id).2 := .single (.takeChildren id)
  exact ⟨reaches, fun kid member => has_of_reaches wellFormed reaches (wellFormed.has_child member)⟩

theorem steps_moveChildren (wellFormed : context.tree.WellFormed) (source : NodeId) (hasTarget : context.tree.Has target) :
    Steps (moveChildren source target) context fun _ _ => True := by
  refine (steps_takeChildren wellFormed source).bind fun kids middle reaches present => ?_
  exact steps_appendAll (reaches.wellFormed wellFormed) (has_of_reaches wellFormed reaches hasTarget) present

theorem steps_detach (id : NodeId) : Steps (detach id) context fun _ _ => True :=
  Edit.steps_changeTree fun _ made => .detach made

theorem steps_replace (id : NodeId) {new : NodeId} (present : context.tree.Has new) :
    Steps (replace id new) context fun outcome _ => outcome = .replaced new := by
  unfold replace
  refine Edit.steps_tree.bind ?_
  rintro _ middle - ⟨rfl, same⟩
  split
  · exact Edit.steps_failAt
  · refine (Edit.steps_changeTree fun _ made => .replace (same ▸ present) made).bind fun _ _ _ _ => ?_
    exact Edit.steps_pure rfl

theorem steps_conditional (wellFormed : context.tree.WellFormed) (place : NodeId) (test : String) :
    Steps (Construct.conditional place test) context fun value tree => tree.Has value.1 ∧ tree.Has value.2 := by
  refine (steps_create place _ fun _ none => absurd none List.not_mem_nil).bind fun branch middle reaches present => ?_
  refine (steps_create place _ fun kid member => ?_).bind fun outer last further hasOuter => ?_
  · rw [List.mem_singleton.1 member]
    exact present
  · exact Edit.steps_pure ⟨hasOuter, has_of_reaches (reaches.wellFormed wellFormed) further present⟩

theorem steps_iteration (place : NodeId) (header : String) :
    Steps (iteration place header) context fun value tree => tree.Has value := by
  unfold iteration
  split
  · exact steps_create place _ fun _ none => absurd none List.not_mem_nil
  · exact Edit.steps_failAt

/-- What a tame transform reports. -/
def Reports (before : Tree) (outcome : Outcome) (after : Tree) : Prop :=
  (∃ next, outcome = .replaced next) ∨ outcome = .changed ∨ outcome = .unchanged ∧ after = before

theorem reports_of_replaced {work : Edit Outcome} {new : NodeId} {before : Tree}
    (steps : Steps work context fun outcome _ => outcome = .replaced new) : Steps work context (Reports before) :=
  fun outcome after ran => (steps outcome after ran).imp_right fun same => .inl ⟨new, same⟩

theorem steps_lowerComment (id : NodeId) :
    Steps (Comment.lower id) context (Reports context.tree) := by
  unfold Comment.lower
  refine Edit.steps_tree.bind ?_
  rintro _ start - ⟨rfl, same⟩
  split
  · exact Edit.steps_pure (.inr (.inr ⟨rfl, same⟩))
  · refine (steps_requireOnly id _).bind fun _ _ _ _ => ?_
    refine (Edit.Safely.steps ((safely_textOf _).weaken fun _ _ same => by rw [same])).bind fun _ _ _ _ => ?_
    refine (steps_create id _ fun _ none => absurd none List.not_mem_nil).bind fun new _ _ present => ?_
    exact reports_of_replaced (steps_replace id present)

/-! ## Loops and conditionals -/

theorem steps_lowerFor (wellFormed : context.tree.WellFormed) (id : NodeId) :
    Steps (Iteration.lower id) context (Reports context.tree) := by
  unfold Iteration.lower
  refine Edit.steps_tree.bind ?_
  rintro _ start - ⟨rfl, same⟩
  split
  · exact Edit.steps_pure (.inr (.inr ⟨rfl, same⟩))
  · refine (steps_requireOnly id _).bind fun _ second _ alike => ?_
    refine (steps_requireCode id "each").bind fun header third _ again => ?_
    have sound : third.tree.WellFormed := by
      rw [again, alike, same]
      exact wellFormed
    refine (steps_iteration id header).bind fun loop middle reaches hasLoop => ?_
    have sound := reaches.wellFormed sound
    refine Edit.steps_tree.bind ?_
    rintro _ between - ⟨rfl, same⟩
    rw [← same] at sound hasLoop
    split
    · refine (steps_requireCode id "if").bind fun test tested _ alike => ?_
      rw [← alike] at sound hasLoop
      refine (steps_conditional sound id test).bind ?_
      rintro ⟨outer, inner⟩ last reaches ⟨hasOuter, hasInner⟩
      have loops := has_of_reaches sound reaches hasLoop
      have sound := reaches.wellFormed sound
      refine (steps_moveChildren sound id hasInner).bind fun _ moved reaches _ => ?_
      have loops := has_of_reaches sound reaches loops
      have outers := has_of_reaches sound reaches hasOuter
      refine (steps_append loops outers).bind fun _ filled further _ => ?_
      exact reports_of_replaced (steps_replace id (has_of_reaches (reaches.wellFormed sound) further loops))
    · refine (steps_moveChildren sound id hasLoop).bind fun _ moved reaches _ => ?_
      exact reports_of_replaced (steps_replace id (has_of_reaches sound reaches hasLoop))

theorem steps_takeFollowing (nesting : Nesting) {ids : List NodeId} (wellFormed : context.tree.WellFormed)
    (present : ∀ other ∈ ids, context.tree.Has other) :
    Steps (Conditional.takeFollowing nesting ids) context fun value tree => ∀ tag ∈ value, tree.Has tag := by
  induction ids generalizing context with
  | nil => exact Edit.steps_pure fun _ none => absurd none List.not_mem_nil
  | cons sibling rest hypothesis =>
      have nothing : ∀ {context : Context}, Steps (pure [] : Edit (List NodeId)) context fun value tree =>
          ∀ tag ∈ value, tree.Has tag := Edit.steps_pure fun _ none => absurd none List.not_mem_nil
      unfold Conditional.takeFollowing
      refine Edit.steps_tree.bind ?_
      rintro _ start - ⟨rfl, same⟩
      rw [← same] at wellFormed present
      have detached : ∀ (_ : Unit) (middle : Context), start.tree.Reaches middle.tree → True →
          middle.tree.WellFormed ∧ ∀ other ∈ rest, middle.tree.Has other := fun _ middle reaches _ =>
        ⟨reaches.wellFormed wellFormed, fun other member =>
          has_of_reaches wellFormed reaches (present other (List.mem_cons_of_mem _ member))⟩
      split
      · split
        · refine (steps_detach sibling).bind fun value middle reaches done => ?_
          obtain ⟨sound, there⟩ := detached value middle reaches done
          exact hypothesis sound there
        · exact nothing
      · split
        · refine (steps_detach sibling).bind fun value middle reaches done => ?_
          obtain ⟨sound, there⟩ := detached value middle reaches done
          refine (hypothesis sound there).bind fun taken last further others => ?_
          refine Edit.steps_pure fun tag member => ?_
          rcases List.mem_cons.1 member with rfl | member
          · exact has_of_reaches sound further (has_of_reaches wellFormed reaches (present tag List.mem_cons_self))
          · exact others tag member
        · exact nothing

theorem steps_addBranches {closed : Bool} {ids : List NodeId} (wellFormed : context.tree.WellFormed)
    (present : context.tree.Has conditional) :
    Steps (Conditional.addBranches conditional closed ids) context fun _ _ => True := by
  induction ids generalizing context closed with
  | nil => exact Edit.steps_pure trivial
  | cons tag ids hypothesis =>
      unfold Conditional.addBranches
      refine Edit.steps_tree.bind ?_
      rintro _ start - ⟨rfl, same⟩
      rw [← same] at wellFormed present
      split
      · exact Edit.steps_failAt
      · refine (Edit.Safely.steps (safely_warnDeprecated _ _)).bind fun _ warned _ alike => ?_
        rw [← alike] at wellFormed present
        refine (Edit.Safely.steps ((safely_readTest _ _).weaken fun _ _ same => by rw [same])).bind fun test read _ alike => ?_
        rw [← alike] at wellFormed present
        refine (steps_create tag _ fun _ none => absurd none List.not_mem_nil).bind fun branch made reaches hasBranch => ?_
        have there := has_of_reaches wellFormed reaches present
        have sound := reaches.wellFormed wellFormed
        refine (steps_moveChildren sound tag hasBranch).bind fun _ moved reaches _ => ?_
        have there := has_of_reaches sound reaches there
        refine (steps_append there (has_of_reaches sound reaches hasBranch)).bind fun _ joined further _ => ?_
        have sound := reaches.wellFormed sound
        exact hypothesis (further.wellFormed sound) (has_of_reaches sound further there)

theorem steps_lowerIf (wellFormed : context.tree.WellFormed) (id : NodeId) :
    Steps (Conditional.lower id) context (Reports context.tree) := by
  unfold Conditional.lower
  refine Edit.steps_tree.bind ?_
  rintro _ start - ⟨rfl, same⟩
  split
  · exact Edit.steps_pure (.inr (.inr ⟨rfl, same⟩))
  · refine (steps_requireOnly id _).bind fun _ second _ alike => ?_
    refine (steps_requireCode id "test").bind fun test third _ again => ?_
    have got : Steps (get : Edit Context) third fun _ tree => tree = third.tree := by
      intro value after ran
      cases ran
      exact ⟨.refl, rfl⟩
    refine got.bind fun rules fourth _ known => ?_
    have sound : fourth.tree.WellFormed := by
      rw [known, again, alike, same]
      exact wellFormed
    refine (steps_conditional sound id test).bind ?_
    rintro ⟨outer, inner⟩ made reaches ⟨hasOuter, hasInner⟩
    have sound := reaches.wellFormed sound
    refine (steps_takeChildren sound id).bind fun kids taken reaches present => ?_
    have hasOuter := has_of_reaches sound reaches hasOuter
    have hasInner := has_of_reaches sound reaches hasInner
    have sound := reaches.wellFormed sound
    refine Edit.steps_tree.bind ?_
    rintro _ parted - ⟨rfl, same⟩
    rw [← same] at sound hasOuter hasInner present
    refine (steps_appendAll sound hasInner fun kid member => present kid (List.mem_filter.1 member).1).bind
      fun _ filled reaches _ => ?_
    have hasOuter := has_of_reaches sound reaches hasOuter
    have sound := reaches.wellFormed sound
    refine Edit.steps_tree.bind ?_
    rintro _ next - ⟨rfl, same⟩
    rw [← same] at sound hasOuter
    refine (steps_takeFollowing _ sound fun other member => ?_).bind fun following took reaches _ => ?_
    · rw [← same] at member
      unfold Tree.following at member
      split at member
      · split at member
        · exact sound.has_child (List.mem_of_mem_drop member)
        · exact absurd member List.not_mem_nil
      · exact absurd member List.not_mem_nil
    have hasOuter := has_of_reaches sound reaches hasOuter
    have sound := reaches.wellFormed sound
    refine (steps_addBranches sound hasOuter).bind fun _ joined reaches _ => ?_
    have hasOuter := has_of_reaches sound reaches hasOuter
    have sound := reaches.wellFormed sound
    refine Edit.steps_tree.bind ?_
    rintro _ end' - ⟨rfl, same⟩
    rw [← same] at sound hasOuter
    split
    · exact reports_of_replaced (steps_replace id hasOuter)
    · refine (steps_iteration id _).bind fun loop looped reaches hasLoop => ?_
      have hasOuter := has_of_reaches sound reaches hasOuter
      have sound := reaches.wellFormed sound
      refine (steps_replace id hasLoop).bind fun outcome placed reaches replaced => ?_
      refine (steps_append (has_of_reaches sound reaches hasLoop) (has_of_reaches sound reaches hasOuter)).bind
        fun _ _ _ _ => ?_
      exact Edit.steps_pure (.inl ⟨loop, replaced⟩)

/-! ## Directives and older names -/

theorem has_innermost {tree : Tree} (wellFormed : tree.WellFormed) (present : tree.Has id) (budget : Nat) :
    tree.Has (innermost tree budget id) := by
  induction budget generalizing id with
  | zero => exact present
  | succ budget hypothesis =>
      unfold innermost
      split
      · next child last => exact hypothesis (wellFormed.has_child (List.mem_of_getLast? last))
      · exact present

theorem steps_wrap {construct : NodeId} (wellFormed : context.tree.WellFormed) (hasId : context.tree.Has id)
    (present : context.tree.Has construct) (before : Tree) : Steps (wrap id construct) context (Reports before) := by
  unfold wrap
  refine (steps_replace id present).bind fun outcome placed reaches replaced => ?_
  have there := has_of_reaches wellFormed reaches hasId
  have present := has_of_reaches wellFormed reaches present
  have sound := reaches.wellFormed wellFormed
  refine Edit.steps_tree.bind ?_
  rintro _ next - ⟨rfl, same⟩
  rw [← same] at there present sound
  refine (steps_append (by rw [← same]; exact has_innermost sound present _) there).bind fun _ _ _ _ => ?_
  exact Edit.steps_pure (.inl ⟨construct, replaced⟩)

theorem steps_dropAttribute (id : NodeId) (name : String) :
    Steps (Directive.dropAttribute id name) context fun _ tree => tree = (context.tree.removeAttribute id name).2 := by
  intro value after ran
  cases ran
  exact ⟨.single (.removeAttribute id name), rfl⟩

theorem steps_lowerDirective (wellFormed : context.tree.WellFormed) (hasId : context.tree.Has id) :
    Steps (Directive.lower id) context (Reports context.tree) := by
  unfold Directive.lower
  refine Edit.steps_tree.bind ?_
  rintro _ start - ⟨rfl, same⟩
  rw [← same] at wellFormed hasId
  have dropped : ∀ {middle : Context}, start.tree.Reaches middle.tree → middle.tree.WellFormed ∧ middle.tree.Has id :=
    fun reaches => ⟨reaches.wellFormed wellFormed, has_of_reaches wellFormed reaches hasId⟩
  split
  · exact Edit.steps_pure (.inr (.inr ⟨rfl, same⟩))
  · split
    · refine (steps_dropAttribute id "for").bind fun _ middle reaches _ => ?_
      obtain ⟨sound, there⟩ := dropped reaches
      refine (steps_iteration id _).bind fun loop made reaches hasLoop => ?_
      exact steps_wrap (reaches.wellFormed sound) (has_of_reaches sound reaches there) hasLoop _
    · split
      · exact Edit.steps_pure (.inr (.inr ⟨rfl, same⟩))
      · dsimp only
        split
        · exact Edit.steps_failAt
        · refine (steps_dropAttribute id "if").bind fun _ middle reaches _ => ?_
          obtain ⟨sound, there⟩ := dropped reaches
          refine (steps_conditional sound id _).bind fun made built reaches present => ?_
          exact steps_wrap (reaches.wellFormed sound) (has_of_reaches sound reaches there) present.1 _

end Construct

/-! ## The registry -/

open Construct
open Edit (Steps)

theorem SortedMap.mem_of_mem_ofList {α : Type} {list : List (String × α)} {entry : String × α}
    (member : entry ∈ (SortedMap.ofList list).entries) : entry ∈ list := by
  have folded : ∀ (list : List (String × α)) (map : SortedMap α),
      entry ∈ (list.foldl (fun map entry => map.insert entry.1 entry.2) map).entries → entry ∈ map.entries ∨ entry ∈ list := by
    intro list
    induction list with
    | nil => exact fun map member => .inl member
    | cons first list hypothesis =>
        intro map member
        rcases hypothesis _ member with known | later
        · rcases mem_insertEntry known with rfl | earlier
          · exact .inr List.mem_cons_self
          · exact .inl earlier
        · exact .inr (List.mem_cons_of_mem _ later)
  rcases folded list SortedMap.empty member with none | listed
  · exact absurd none List.not_mem_nil
  · exact listed

/-- What a transform does in steps that it reports makes it tame. -/
theorem Transform.tame_of_steps {transform : Transform}
    (steps : ∀ {id : NodeId} {context : Context}, context.tree.WellFormed → context.tree.Has id →
      Steps (transform.apply id) context (Reports context.tree)) : transform.Honest ∧ transform.RemovesOnly := by
  refine ⟨⟨fun sound there does => (steps sound there _ _ does).1, fun sound there does => ?_⟩, fun sound there does => ?_⟩
  · rcases (steps sound there _ _ does).2 with ⟨_, reported⟩ | reported | ⟨-, same⟩
    · cases reported
    · cases reported
    · exact same
  · rcases (steps sound there _ _ does).2 with ⟨_, reported⟩ | reported | ⟨reported, -⟩ <;> cases reported

namespace Control

/-- What holds of the transforms of control tags, branch tags and older names and of directives holds of all that the
core taglib declares. -/
theorem forall_declares {good : Transform → Prop}
    (directives : good { name := "attribute-directives", apply := Directive.lower })
    (conditional : good { name := "if", apply := Conditional.lower })
    (iteration : good { name := "for", apply := Iteration.lower })
    (comment : good { name := "html-comment", apply := Comment.lower })
    (strays : ∀ tag, ∀ transform ∈ (branchEntry tag).declared, good transform)
    (renames : ∀ old new, ∀ transform ∈ (olderName old new).declared, good transform)
    {transform : Transform} (declared : Registry.core.Declares transform) : good transform := by
  obtain ⟨registration, among, general | ⟨entry, listed, member⟩⟩ := declared
  · obtain rfl := List.mem_singleton.1 among
    rw [List.mem_singleton.1 general]
    exact directives
  · obtain rfl := List.mem_singleton.1 among
    obtain ⟨declaration, known, rfl⟩ := List.mem_map.1 (SortedMap.mem_of_mem_ofList listed)
    simp only [entries, List.mem_cons, List.not_mem_nil, or_false] at known
    rcases known with rfl | rfl | rfl | rfl | rfl | rfl | rfl | rfl | rfl
    · rw [List.mem_singleton.1 member]
      exact conditional
    · exact strays _ transform member
    · exact strays _ transform member
    · rw [List.mem_singleton.1 member]
      exact iteration
    · rw [List.mem_singleton.1 member]
      exact comment
    all_goals exact renames _ _ transform member

/-- Every transform of the core taglib is tame. -/
theorem tame_of_declares {transform : Transform} (declared : Registry.core.Declares transform) :
    transform.Honest ∧ transform.RemovesOnly := by
  refine @forall_declares (fun transform => transform.Honest ∧ transform.RemovesOnly) ?_ ?_ ?_ ?_ ?_ ?_ _ declared
  · exact Transform.tame_of_steps steps_lowerDirective
  · exact Transform.tame_of_steps fun sound _ => steps_lowerIf sound _
  · exact Transform.tame_of_steps fun sound _ => steps_lowerFor sound _
  · exact Transform.tame_of_steps fun _ _ => steps_lowerComment _
  · intro tag transform member
    rw [List.mem_singleton.1 member]
    exact Transform.tame_of_steps fun _ _ => Edit.steps_tree.bind fun _ _ _ _ => Edit.steps_failAt
  · intro old new transform member
    rw [List.mem_singleton.1 member]
    refine Transform.tame_of_steps fun _ _ => ?_
    refine (Edit.steps_changeTree fun _ made => .setKind made).bind fun _ _ _ _ => ?_
    exact Edit.steps_pure (.inr (.inl rfl))

theorem tame_core : Walk.Tame Registry.core where
  honest _ declared := (tame_of_declares declared).1
  removesOnly _ declared := (tame_of_declares declared).2

end Control
end HtmlTemplate
