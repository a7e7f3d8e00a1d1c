import HtmlTemplate.Proofs.Naming.Distinct

/-!
# Closed loops leave nothing behind

The frames in force are the same before a node is lowered and after it. What code is written as depends on the loops
around it and on the handlers that were hoisted so far, and so do the variables of a loop: a handler that is hoisted
inside of a loop takes none of the names that the loop has been given, so that it does not matter when the loop was
opened. Loops that were closed before play no part.
-/

namespace HtmlTemplate

namespace Scope

/-! ## Search for new identifiers -/

variable {taken others : List String} {name : String}

/-- A new identifier stays the same when more names are taken, as long as it is none of them. -/
theorem unique_of_subset (more : taken ⊆ others) (free : unique taken name ∉ others) :
    unique others name = unique taken name := by
  obtain ⟨n, -, least, same⟩ := exists_isLeast taken name
  rw [same] at free ⊢
  refine unique_eq_of_isLeast ⟨free, fun k untaken => least.2 fun member => ?_⟩
  exact untaken (more member)

/-! ## Scopes of loops -/

variable {scope before after : Scope} {declaration : Declaration} {item : String} {index : Option String}

/-- The scope with one more declaration of the module. -/
def adding (scope : Scope) (declaration : Declaration) : Scope :=
  { scope with hoisted := scope.hoisted ++ [declaration] }

theorem mem_takenNames_adding :
    name ∈ (scope.adding declaration).takenNames ↔ name ∈ scope.takenNames ∨ name = declaration.name := by
  simp only [takenNames, adding, List.map_append, List.mem_append, List.map_singleton, List.mem_singleton]
  tauto

/-- A declaration of the module that takes another name does not matter to a declaration in a frame. -/
theorem declare_adding {identifier : String} (declares : before.declare name = (identifier, after))
    (other : declaration.name ≠ identifier) :
    (before.adding declaration).declare name = (identifier, after.adding declaration) := by
  obtain ⟨rfl, rfl⟩ := Prod.mk.inj declares
  have same : unique (before.adding declaration).takenNames name = unique before.takenNames name := by
    refine unique_of_subset (fun taken member => mem_takenNames_adding.2 (.inl member)) fun member => ?_
    rcases mem_takenNames_adding.1 member with taken | equal
    · exact unique_notMem _ _ taken
    · exact other equal.symm
  unfold declare
  rw [same]
  rfl

/-- A declaration of the module that takes none of the names that a loop is given does not matter to the loop. -/
theorem openLoop_adding {names : LoopNames} (opens : before.openLoop item index = (names, after))
    (others : declaration.name ∉ names.all) :
    (before.adding declaration).openLoop item index = (names, after.adding declaration) := by
  obtain ⟨first, second, ofItem, ofIndex, ofList⟩ := openLoop_eq_iff.1 opens
  simp only [LoopNames.all, List.mem_cons, List.not_mem_nil, or_false, not_or] at others
  obtain ⟨notList, notIndex, notItem⟩ := others
  have inside : (before.push.adding declaration).declare item = (names.item, first.adding declaration) :=
    declare_adding ofItem notItem
  exact openLoop_eq_iff.2 ⟨first.adding declaration, second.adding declaration, inside,
    declare_adding ofIndex notIndex, declare_adding ofList notList⟩

/-- The scope with other names that count as written. -/
def rewriting (scope : Scope) (emitted : List String) : Scope :=
  { scope with emitted }

end Scope

/-- What a template says of the variables of a loop around its code. -/
structure LoopBinding where
  item : String
  index : Option String
  deriving DecidableEq, Repr

namespace Scope

/-- The scope inside of loops, the innermost first, that are opened one in the other with nothing before them but
declarations of the module. -/
def within (hoisted : List Declaration) : List LoopBinding → Scope
  | [] => { hoisted }
  | loop :: around => ((within hoisted around).openLoop loop.item loop.index).2

/-- The identifiers for the variables of a loop inside of other ones. -/
def namesWithin (hoisted : List Declaration) (around : List LoopBinding) (loop : LoopBinding) : LoopNames :=
  ((within hoisted around).openLoop loop.item loop.index).1

variable {scope before after : Scope} {declaration : Declaration} {hoisted : List Declaration} {loop : LoopBinding}
variable {loops : List LoopBinding}

theorem hoisted_within (hoisted : List Declaration) (loops : List LoopBinding) :
    (within hoisted loops).hoisted = hoisted := by
  induction loops with
  | nil => rfl
  | cons loop around hypothesis => exact hypothesis

theorem emitted_within_cons (hoisted : List Declaration) (loop : LoopBinding) (around : List LoopBinding) :
    (within hoisted (loop :: around)).emitted = (namesWithin hoisted around loop).all ++ (within hoisted around).emitted :=
  rfl

/-- It does not matter when a declaration of the module was made that takes none of the names of the loops. -/
theorem within_append (others : declaration.name ∉ (within hoisted loops).emitted) :
    within (hoisted ++ [declaration]) loops = (within hoisted loops).adding declaration := by
  induction loops with
  | nil => rfl
  | cons loop around hypothesis =>
      rw [emitted_within_cons, List.mem_append, not_or] at others
      rw [within, hypothesis others.2, openLoop_adding rfl others.1]
      rfl

/-- The declaration is one of those of the module, or comes to them. -/
def Adds (hoisted : List Declaration) (declaration : Declaration) (later : List Declaration) : Prop :=
  declaration ∈ hoisted ∧ later = hoisted ∨ later = hoisted ++ [declaration]

/-- The frames in force are those of the loops, and the names in them count as written. -/
structure Stands (loops : List LoopBinding) (scope : Scope) : Prop where
  same : scope = (within scope.hoisted loops).rewriting scope.emitted
  emitted : (within scope.hoisted loops).emitted ⊆ scope.emitted

theorem stands_of_eq {emitted : List String} (same : scope = (within hoisted loops).rewriting emitted)
    (written : (within hoisted loops).emitted ⊆ emitted) : Stands loops scope ∧ scope.hoisted = hoisted := by
  have kept : scope.hoisted = hoisted := by
    rw [same]
    exact hoisted_within hoisted loops
  refine ⟨⟨?_, ?_⟩, kept⟩
  · rw [kept, same]
    rfl
  · rw [kept, same]
    exact written

theorem stands_start : Stands [] {} :=
  ⟨rfl, List.nil_subset _⟩

namespace Stands

/-- Code is resolved as in the loops. -/
theorem resolve (stands : Stands loops scope) : scope.resolve = (within scope.hoisted loops).resolve := by
  have same := congrArg Scope.resolve stands.same
  exact same

theorem writtenAttribute (stands : Stands loops scope) :
    Lowering.writtenAttribute scope = Lowering.writtenAttribute (within scope.hoisted loops) := by
  unfold Lowering.writtenAttribute
  rw [stands.resolve]

/-- The variables of a loop are those of the loop inside of the others. -/
theorem openLoop {names : LoopNames} (stands : Stands loops before) (loop : LoopBinding)
    (opens : before.openLoop loop.item loop.index = (names, after)) :
    names = namesWithin before.hoisted loops loop ∧ Stands (loop :: loops) after ∧ after.hoisted = before.hoisted := by
  have same : before.openLoop loop.item loop.index = (namesWithin before.hoisted loops loop,
      (within before.hoisted (loop :: loops)).rewriting
        ((namesWithin before.hoisted loops loop).all ++ before.emitted)) := by
    conv_lhs => rw [stands.same]
    rfl
  obtain ⟨rfl, opened⟩ := Prod.mk.inj (opens.symm.trans same)
  refine ⟨rfl, stands_of_eq opened ?_⟩
  rw [emitted_within_cons]
  exact List.append_subset.2 ⟨List.subset_append_left _ _, List.subset_append_of_subset_right _ stands.emitted⟩

/-- Closing the frame of the innermost loop leaves the others. -/
theorem pop (stands : Stands (loop :: loops) scope) : Stands loops scope.pop ∧ scope.pop.hoisted = scope.hoisted := by
  have same : scope.pop = (within scope.hoisted loops).rewriting scope.emitted := by
    conv_lhs => rw [stands.same]
    rfl
  have subset := stands.emitted
  rw [emitted_within_cons] at subset
  exact stands_of_eq same (List.append_subset.1 subset).2

/-- A new declaration of the module leaves the names alone that were written. -/
theorem hoist {hint init handler : String} (stands : Stands loops before)
    (hoists : before.hoist hint init = (handler, after)) :
    Stands loops after ∧ Adds before.hoisted ⟨handler, init⟩ after.hoisted := by
  unfold Scope.hoist at hoists
  split at hoists
  · next declaration found =>
      obtain ⟨rfl, rfl⟩ := Prod.mk.inj hoists
      have matching := List.find?_some found
      obtain rfl : declaration.init = init := beq_iff_eq.1 matching
      exact ⟨stands, .inl ⟨List.mem_of_find?_eq_some found, rfl⟩⟩
  · obtain ⟨rfl, rfl⟩ := Prod.mk.inj hoists
    dsimp only
    have other := unique_notMem (before.takenNames ++ before.emitted) hint
    generalize unique (before.takenNames ++ before.emitted) hint = handler at other ⊢
    rw [List.mem_append, not_or] at other
    have apart : handler ∉ (within before.hoisted loops).emitted := fun written => other.2 (stands.emitted written)
    have later : within (before.hoisted ++ [⟨handler, init⟩]) loops =
        (within before.hoisted loops).adding ⟨handler, init⟩ := within_append apart
    have same : before.adding ⟨handler, init⟩ =
        (within (before.hoisted ++ [⟨handler, init⟩]) loops).rewriting before.emitted := by
      rw [later]
      conv_lhs => rw [stands.same]
      rfl
    refine ⟨(stands_of_eq same ?_).1, .inr rfl⟩
    rw [later]
    exact stands.emitted

end Stands

end Scope

namespace Lowering

/-! ## Frames in force -/

/-- Lowerings that succeed with the work leave something of the scope as it was. -/
def Restores {α β : Type} (view : Scope → β) (work : Lowering α) : Prop :=
  ∀ before value after, work before = .ok (value, after) → view after = view before

section Restoring

variable {α β γ : Type} {view : Scope → γ} {tree : Tree} {choices : Preservation}

theorem Restores.bind {first : Lowering α} {next : α → Lowering β} (begins : Restores view first)
    (goesOn : ∀ value, Restores view (next value)) : Restores view (first >>= next) := by
  intro before value after ran
  obtain ⟨given, middle, began, ended⟩ := bind_eq_ok_iff.1 ran
  exact (goesOn given middle value after ended).trans (begins before given middle began)

theorem restores_pure (value : α) : Restores view (pure value) := by
  intro before value after ran
  obtain ⟨-, rfl⟩ := pure_eq_ok_iff.1 ran
  rfl

theorem restores_failAt (id : NodeId) (cause : Cause) : Restores view (failAt tree id cause : Lowering α) :=
  fun _ _ _ ran => absurd ran not_failAt

theorem restores_get : Restores view (get : Lowering Scope) := by
  intro before value after ran
  obtain ⟨-, rfl⟩ := Prod.mk.inj (Except.ok.inj ran)
  rfl

theorem restores_resolve (code : String) : Restores view (resolve code) :=
  restores_get.bind fun _ => restores_pure _

theorem restores_writtenAttributes (node : Node) : Restores view (writtenAttributes node) :=
  restores_get.bind fun _ => restores_pure _

theorem restores_mapM {work : α → Lowering β} {values : List α} (each : ∀ value, Restores view (work value)) :
    Restores view (values.mapM work) := by
  induction values with
  | nil =>
      rw [List.mapM_nil]
      exact restores_pure _
  | cons value values hypothesis =>
      rw [List.mapM_cons]
      exact (each value).bind fun _ => hypothesis.bind fun _ => restores_pure _

theorem restores_test (test : Option String) : Restores view (test.mapM resolve : Lowering (Option String)) := by
  intro before value after ran
  rw [resolve_mapM] at ran
  obtain ⟨-, rfl⟩ := Prod.mk.inj (Except.ok.inj ran)
  rfl

theorem restores_lowerBranches {lowerBody : List NodeId → Lowering (List Fragment)}
    (body : ∀ ids, Restores view (lowerBody ids)) (closed : Bool) (ids : List NodeId) :
    Restores view (lowerBranches tree lowerBody closed ids) := by
  induction ids generalizing closed with
  | nil => exact restores_pure _
  | cons id ids hypothesis =>
      unfold lowerBranches
      split
      · split
        · exact restores_failAt id _
        · exact (restores_test _).bind fun _ => (body _).bind fun _ => (hypothesis _).bind fun _ => restores_pure _
      · exact restores_failAt id _
      · exact restores_failAt id _

theorem restores_hoist (hint init : String) : Restores Scope.frames (hoist hint init) := by
  intro before handler after ran
  have keeps := Scope.keeps_hoist (Except.ok.inj ran)
  rw [Scope.frames, keeps.inner, keeps.outer]
  rfl

/-- A declaration leaves the frames alone that are around the innermost one. -/
theorem restores_declare (name : String) : Restores Scope.outer (declare name) :=
  fun _ _ _ ran => Scope.declare_outer (Except.ok.inj ran)

theorem Restores.outer {work : Lowering α} (restores : Restores Scope.frames work) : Restores Scope.outer work :=
  fun before value after ran => (List.cons.inj (restores before value after ran)).2

/-- Work in a frame of its own leaves all frames alone if it leaves those alone that are around its frame. -/
theorem restores_inFrame {work : Lowering α} (restores : Restores Scope.outer work) :
    Restores Scope.frames (inFrame work) := by
  intro before value after ran
  obtain ⟨_, opened, pushed, ran⟩ := bind_eq_ok_iff.1 ran
  obtain ⟨given, last, worked, ran⟩ := bind_eq_ok_iff.1 ran
  obtain ⟨_, closed, popped, ran⟩ := bind_eq_ok_iff.1 ran
  obtain ⟨-, rfl⟩ := pure_eq_ok_iff.1 ran
  obtain ⟨-, rfl⟩ := Prod.mk.inj (Except.ok.inj pushed)
  obtain ⟨-, rfl⟩ := Prod.mk.inj (Except.ok.inj popped)
  have outer : last.outer = before.frames := restores _ _ _ worked
  rw [Scope.pop, outer]
  rfl

/-- The frames in force are the same before a node and after it. -/
theorem restores_lowerNode (budget : Nat) (region : Region) (id : NodeId) :
    Restores Scope.frames (lowerNode tree choices budget region id) := by
  induction budget generalizing region id with
  | zero => exact restores_pure _
  | succ budget hypothesis =>
      have all : ∀ (region : Region) (ids : List NodeId), Restores Scope.frames
          (do return (← ids.mapM (lowerNode tree choices budget region)).flatten : Lowering (List Fragment)) :=
        fun region ids => (restores_mapM (hypothesis region)).bind fun _ => restores_pure _
      unfold lowerNode
      dsimp only
      split
      · split
        · exact all _ _
        · exact restores_failAt id _
      · exact (restores_writtenAttributes _).bind fun _ => (all _ _).bind fun _ => restores_pure _
      · exact (restores_hoist _ _).bind fun _ => (restores_writtenAttributes _).bind fun _ =>
          (all _ _).bind fun _ => restores_pure _
      · exact restores_pure _
      · exact (restores_resolve _).bind fun _ => restores_pure _
      · exact (restores_lowerBranches (all _) false _).bind fun _ => restores_pure _
      · exact restores_failAt id _
      · refine (restores_resolve _).bind fun _ => restores_inFrame ?_
        exact (restores_declare _).bind fun _ => (restores_declare _).bind fun _ => (restores_declare _).bind fun _ =>
          (all _ _).outer.bind fun _ => restores_pure _
      · exact restores_pure _
      · exact restores_pure _

end Restoring

/-! ## Spelled names -/

section Spelling

variable (tree : Tree)

mutual

/-- The fragments of the node are spelled as the loops around it say, the innermost first, and the declarations of the
module so far. The lowering goes on with the declarations behind the fragments. -/
inductive Spells : List LoopBinding → List Declaration → NodeId → List Fragment → List Declaration → Prop
  | document {loops : List LoopBinding} {hoisted later : List Declaration} {id : NodeId} {fragments : List Fragment} :
      tree.kind id = .document → SpellsAll loops hoisted (tree.children id) fragments later →
      Spells loops hoisted id fragments later
  | element {loops : List LoopBinding} {hoisted later : List Declaration} {id : NodeId} {tag : String}
      {children : List Fragment} :
      tree.kind id = .element tag → SpellsAll loops hoisted (tree.children id) children later →
      Spells loops hoisted id
        [.element tag ((tree.node id).attributes.map (writtenAttribute (.within hoisted loops))) children] later
  | customTag {loops : List LoopBinding} {hoisted known later : List Declaration} {id : NodeId}
      {name renderer handler : String} {body : List Fragment} :
      tree.kind id = .customTag name renderer →
      Scope.Adds hoisted ⟨handler, "loadTag(require(" ++ Text.jsonString renderer ++ "))"⟩ known →
      SpellsAll loops known (tree.children id) body later →
      Spells loops hoisted id
        [.tagCall name handler ((tree.node id).attributes.map (writtenAttribute (.within known loops))) body] later
  | text {loops : List LoopBinding} {hoisted : List Declaration} {id : NodeId} {value : String} (region : Region) :
      tree.kind id = .text value → Spells loops hoisted id (textFragment region value) hoisted
  | placeholder {loops : List LoopBinding} {hoisted : List Declaration} {id : NodeId} {code : String} {escape : Bool} :
      tree.kind id = .placeholder code escape →
      Spells loops hoisted id [.write ((Scope.within hoisted loops).resolve code) escape] hoisted
  | conditional {loops : List LoopBinding} {hoisted later : List Declaration} {id : NodeId}
      {branches : List (Option String × List Fragment)} :
      tree.kind id = .conditional → SpellsBranches loops hoisted (tree.children id) branches later →
      Spells loops hoisted id [.branching branches] later
  | iteration {loops : List LoopBinding} {hoisted later : List Declaration} {id : NodeId} {item source : String}
      {index : Option String} {names : LoopNames} {body : List Fragment} :
      tree.kind id = .iteration item index source → names = Scope.namesWithin hoisted loops ⟨item, index⟩ →
      SpellsAll (⟨item, index⟩ :: loops) hoisted (tree.children id) body later →
      Spells loops hoisted id
        [.loop names.item names.index names.list ((Scope.within hoisted loops).resolve source) body] later
  | comment {loops : List LoopBinding} {hoisted : List Declaration} {id : NodeId} {value : String} {emit : Bool} :
      tree.kind id = .comment value emit → Spells loops hoisted id [.comment value emit] hoisted
  | doctype {loops : List LoopBinding} {hoisted : List Declaration} {id : NodeId} {name : String} :
      tree.kind id = .doctype name → Spells loops hoisted id [.doctype name] hoisted

/-- The fragments are those of the nodes, in order. -/
inductive SpellsAll :
    List LoopBinding → List Declaration → List NodeId → List Fragment → List Declaration → Prop
  | nil {loops : List LoopBinding} {hoisted : List Declaration} : SpellsAll loops hoisted [] [] hoisted
  | cons {loops : List LoopBinding} {hoisted known later : List Declaration} {id : NodeId} {ids : List NodeId}
      {first rest : List Fragment} :
      Spells loops hoisted id first known → SpellsAll loops known ids rest later →
      SpellsAll loops hoisted (id :: ids) (first ++ rest) later

/-- The tests and bodies are those of the branches, in order. -/
inductive SpellsBranches :
    List LoopBinding → List Declaration → List NodeId → List (Option String × List Fragment) → List Declaration → Prop
  | nil {loops : List LoopBinding} {hoisted : List Declaration} : SpellsBranches loops hoisted [] [] hoisted
  | cons {loops : List LoopBinding} {hoisted known later : List Declaration} {id : NodeId} {ids : List NodeId}
      {test : Option String} {body : List Fragment} {rest : List (Option String × List Fragment)} :
      tree.kind id = .branch test → SpellsAll loops hoisted (tree.children id) body known →
      SpellsBranches loops known ids rest later →
      SpellsBranches loops hoisted (id :: ids) ((test.map (Scope.within hoisted loops).resolve, body) :: rest) later

end

end Spelling

variable {tree : Tree} {choices : Preservation}

mutual

/-- Whatever scope a lowering begins with, it spells names as the loops say whose frames are in force. -/
theorem Lowers.spells {region : Region} {id : NodeId} {before after : Scope} {fragments : List Fragment}
    {loops : List LoopBinding} (stands : before.Stands loops) :
    Lowers tree choices region id before fragments after →
      after.Stands loops ∧ Spells tree loops before.hoisted id fragments after.hoisted
  | .document kind _ inside =>
      have below := inside.spells stands
      ⟨below.1, .document kind below.2⟩
  | .element kind inside => by
      obtain ⟨ends, below⟩ := inside.spells stands
      rw [stands.writtenAttribute]
      exact ⟨ends, .element kind below⟩
  | .customTag kind hoists inside => by
      obtain ⟨middle, adds⟩ := stands.hoist hoists
      obtain ⟨ends, below⟩ := inside.spells middle
      rw [middle.writtenAttribute]
      exact ⟨ends, .customTag kind adds below⟩
  | .text kind => ⟨stands, .text region kind⟩
  | .placeholder kind => by
      rw [stands.resolve]
      exact ⟨stands, .placeholder kind⟩
  | .conditional kind inside =>
      have below := inside.spells stands
      ⟨below.1, .conditional kind below.2⟩
  | .iteration kind opens inside => by
      obtain ⟨names, opened, same⟩ := stands.openLoop ⟨_, _⟩ opens
      obtain ⟨ends, below⟩ := inside.spells opened
      obtain ⟨closed, kept⟩ := ends.pop
      rw [same] at below
      rw [stands.resolve, kept]
      exact ⟨closed, .iteration kind names below⟩
  | .comment kind => ⟨stands, .comment kind⟩
  | .doctype kind => ⟨stands, .doctype kind⟩

theorem LowersAll.spells {region : Region} {ids : List NodeId} {before after : Scope} {fragments : List Fragment}
    {loops : List LoopBinding} (stands : before.Stands loops) :
    LowersAll tree choices region ids before fragments after →
      after.Stands loops ∧ SpellsAll tree loops before.hoisted ids fragments after.hoisted
  | .nil => ⟨stands, .nil⟩
  | .cons first rest =>
      have head := first.spells stands
      have tail := rest.spells head.1
      ⟨tail.1, .cons head.2 tail.2⟩

theorem LowersBranches.spells {region : Region} {closed : Bool} {ids : List NodeId} {before after : Scope}
    {branches : List (Option String × List Fragment)} {loops : List LoopBinding} (stands : before.Stands loops) :
    LowersBranches tree choices region closed ids before branches after →
      after.Stands loops ∧ SpellsBranches tree loops before.hoisted ids branches after.hoisted
  | .nil => ⟨stands, .nil⟩
  | .cons kind body rest => by
      obtain ⟨middle, below⟩ := body.spells stands
      obtain ⟨ends, others⟩ := rest.spells middle
      rw [stands.resolve]
      exact ⟨ends, .cons kind below others⟩

end

end Lowering

end HtmlTemplate
