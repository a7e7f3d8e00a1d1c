import HtmlTemplate.Proofs.Naming.Distinct
import HtmlTemplate.Proofs.Script.Reference

/-!
# Scopes of loop variables

Code means the variables of the loops around it. A name that a loop declares is written as the variable of
the innermost loop that declares it, unless a loop on the way makes up the same name for a variable that the
template does not name: then the made-up variable hides the declared one.
-/

namespace HtmlTemplate

/-! ## Names and what they mean -/

/-- A loop around a piece of code: what the template calls its variables, and the identifiers for them. -/
structure EnclosingLoop where
  item : String
  index : Option String
  names : LoopNames

namespace EnclosingLoop

/-- The identifier for a name that the loop declares for its elements or for its counter. -/
def declared? (loop : EnclosingLoop) (name : String) : Option String :=
  if name = loop.item then some loop.names.item
  else if loop.index = some name then some loop.names.index
  else none

/-- The loop makes the name up, for its list or for a counter that the template does not name. -/
def MakesUp (loop : EnclosingLoop) (name : String) : Prop :=
  name = loop.item ++ "_list" ∨ loop.index = none ∧ name = loop.item ++ "_index"

/-- The identifier for a name in the innermost loop that declares it. -/
def variableIn : List EnclosingLoop → String → Option String
  | [], _ => none
  | loop :: loops, name =>
      match loop.declared? name with
      | some identifier => some identifier
      | none => variableIn loops name

/-- No loop makes the name up, up to the innermost one that declares it. -/
def Clear : List EnclosingLoop → String → Prop
  | [], _ => True
  | loop :: loops, name => ¬loop.MakesUp name ∧ (loop.declared? name = none → Clear loops name)

/-- Code is written with the variables of the loops around it: a name as the variable of the innermost loop
that declares it, or as it is if none does. -/
def Resolves (loops : List EnclosingLoop) (resolve : String → String) : Prop :=
  ∃ meaning : String → String,
    (∀ name, Clear loops name → meaning name = (variableIn loops name).getD name) ∧
      ∀ code, Script.WithoutFunctions code → resolve code = Script.substitute meaning code

/-- The frame that declares the variables of the loop. -/
def frame (loop : EnclosingLoop) : Frame :=
  ((SortedMap.empty.insert loop.item loop.names.item).insert
    (loop.index.getD (loop.item ++ "_index")) loop.names.index).insert (loop.item ++ "_list") loop.names.list

variable {loop : EnclosingLoop} {loops : List EnclosingLoop} {name : String}

/-- A frame gives a name the variable of its loop, if the loop does not make the name up. -/
theorem find?_frame (distinct : loop.index ≠ some loop.item) (clear : ¬loop.MakesUp name) :
    loop.frame.find? name = loop.declared? name := by
  obtain ⟨notList, notIndex⟩ := not_or.1 clear
  unfold frame declared?
  rw [SortedMap.find?_insert, if_neg notList, SortedMap.find?_insert, SortedMap.find?_insert,
    SortedMap.find?_empty]
  cases index : loop.index with
  | none =>
      have other : name ≠ loop.item ++ "_index" := fun same => notIndex ⟨index, same⟩
      simp [other]
  | some counter =>
      have apart : counter ≠ loop.item := fun same => distinct (same ▸ index)
      by_cases ofCounter : name = counter
      · simp [ofCounter, apart]
      · have unequal : counter ≠ name := fun same => ofCounter same.symm
        simp [ofCounter, unequal]

/-- Frames of loops give a clear name the variable of the innermost loop that declares it. -/
theorem identifierIn_frames (distinct : ∀ loop ∈ loops, loop.index ≠ some loop.item) (clear : Clear loops name) :
    Scope.identifierIn (loops.map frame ++ [SortedMap.empty]) name = variableIn loops name := by
  induction loops with
  | nil => rfl
  | cons loop loops hypothesis =>
      rw [List.map_cons, List.cons_append, Scope.identifierIn, variableIn,
        find?_frame (distinct loop List.mem_cons_self) clear.1]
      cases found : loop.declared? name with
      | some identifier => rfl
      | none =>
          exact hypothesis (fun other member => distinct other (List.mem_cons_of_mem _ member)) (clear.2 found)

end EnclosingLoop

open EnclosingLoop

/-! ## Fragments and the loops around them -/

namespace Scope

variable {scope before after : Scope} {loops : List EnclosingLoop}

/-- The frames in force are those of the loops, the innermost first. -/
structure Describes (scope : Scope) (loops : List EnclosingLoop) : Prop where
  frames : scope.frames = loops.map EnclosingLoop.frame ++ [SortedMap.empty]
  distinct : ∀ loop ∈ loops, loop.index ≠ some loop.item

theorem describes_empty : ({} : Scope).Describes [] :=
  ⟨rfl, fun _ impossible => absurd impossible List.not_mem_nil⟩

theorem Keeps.describes (keeps : before.Keeps after) (describes : before.Describes loops) :
    after.Describes loops := by
  refine ⟨?_, describes.distinct⟩
  rw [← describes.frames, frames, frames, keeps.inner, keeps.outer]

theorem Describes.openLoop {item : String} {index : Option String} {names : LoopNames}
    (describes : before.Describes loops) (distinct : index ≠ some item)
    (opens : before.openLoop item index = (names, after)) : after.Describes (⟨item, index, names⟩ :: loops) := by
  obtain ⟨first, second, ofItem, ofIndex, ofList⟩ := openLoop_eq_iff.1 opens
  constructor
  · rw [List.map_cons, List.cons_append, ← describes.frames]
    rw [Scope.frames, declare_outer ofList, declare_outer ofIndex, declare_outer ofItem, declare_inner ofList,
      declare_inner ofIndex, declare_inner ofItem]
    rfl
  · intro loop member
    rcases List.mem_cons.1 member with rfl | member
    · exact distinct
    · exact describes.distinct loop member

/-- Names are resolved to the variables of the loops whose frames are in force. -/
theorem Describes.resolves (describes : scope.Describes loops) : Resolves loops scope.resolve := by
  have renamed (name : String) : scope.renames.entries.lookup name =
      (identifierIn scope.frames name).filter (name ≠ ·) := find?_renames scope name
  refine ⟨fun name => (scope.renames.entries.lookup name).getD name, fun name clear => ?_, fun code plain => ?_⟩
  · dsimp only
    rw [renamed, describes.frames, identifierIn_frames describes.distinct clear]
    cases variableIn loops name with
    | none => rfl
    | some identifier => by_cases same : name = identifier <;> simp [Option.filter, same]
  · refine Script.rename_eq_substitute (fun name unchanged => ?_) plain
    rw [renamed] at unchanged
    simpa using (Option.filter_eq_some_iff.1 unchanged).2

end Scope

namespace Lowering

/-- The attribute with its code resolved. -/
def attributeWith (resolve : String → String) (source : Attribute) : WrittenAttribute :=
  { name := source.name
    value :=
      match source.value.static? with
      | some value => .static value
      | none => .dynamic (source.value.toScript resolve) }

variable (tree : Tree)

mutual

/-- The fragments hold the code of the node and of all nodes below it, written with the variables of the
loops around. -/
inductive Scoped : List EnclosingLoop → NodeId → List Fragment → Prop
  | document {loops : List EnclosingLoop} {id : NodeId} {fragments : List Fragment} :
      tree.kind id = .document → ScopedAll loops (tree.children id) fragments → Scoped loops id fragments
  | element {loops : List EnclosingLoop} {id : NodeId} {tag : String} {resolve : String → String}
      {children : List Fragment} :
      tree.kind id = .element tag → Resolves loops resolve → ScopedAll loops (tree.children id) children →
      Scoped loops id [.element tag ((tree.node id).attributes.map (attributeWith resolve)) children]
  | customTag {loops : List EnclosingLoop} {id : NodeId} {name renderer handler : String}
      {resolve : String → String} {body : List Fragment} :
      tree.kind id = .customTag name renderer → Resolves loops resolve →
      ScopedAll loops (tree.children id) body →
      Scoped loops id [.tagCall name handler ((tree.node id).attributes.map (attributeWith resolve)) body]
  | text {loops : List EnclosingLoop} {id : NodeId} {value : String} {fragments : List Fragment} :
      tree.kind id = .text value → (∀ fragment ∈ fragments, ∃ text escape, fragment = .text text escape) →
      Scoped loops id fragments
  | placeholder {loops : List EnclosingLoop} {id : NodeId} {code : String} {escape : Bool}
      {resolve : String → String} :
      tree.kind id = .placeholder code escape → Resolves loops resolve →
      Scoped loops id [.write (resolve code) escape]
  | conditional {loops : List EnclosingLoop} {id : NodeId} {branches : List (Option String × List Fragment)} :
      tree.kind id = .conditional → ScopedBranches loops (tree.children id) branches →
      Scoped loops id [.branching branches]
  | iteration {loops : List EnclosingLoop} {id : NodeId} {item source : String} {index : Option String}
      {names : LoopNames} {resolve : String → String} {body : List Fragment} :
      tree.kind id = .iteration item index source → Resolves loops resolve →
      ScopedAll (⟨item, index, names⟩ :: loops) (tree.children id) body →
      Scoped loops id [.loop names.item names.index names.list (resolve source) body]
  | comment {loops : List EnclosingLoop} {id : NodeId} {value : String} {emit : Bool} :
      tree.kind id = .comment value emit → Scoped loops id [.comment value emit]
  | doctype {loops : List EnclosingLoop} {id : NodeId} {name : String} :
      tree.kind id = .doctype name → Scoped loops id [.doctype name]

/-- The fragments hold the code of the nodes, in order. -/
inductive ScopedAll : List EnclosingLoop → List NodeId → List Fragment → Prop
  | nil {loops : List EnclosingLoop} : ScopedAll loops [] []
  | cons {loops : List EnclosingLoop} {id : NodeId} {ids : List NodeId} {first rest : List Fragment} :
      Scoped loops id first → ScopedAll loops ids rest → ScopedAll loops (id :: ids) (first ++ rest)

/-- The tests and bodies hold the code of the branches, in order. -/
inductive ScopedBranches : List EnclosingLoop → List NodeId → List (Option String × List Fragment) → Prop
  | nil {loops : List EnclosingLoop} : ScopedBranches loops [] []
  | cons {loops : List EnclosingLoop} {id : NodeId} {ids : List NodeId} {test : Option String}
      {resolve : String → String} {body : List Fragment} {rest : List (Option String × List Fragment)} :
      tree.kind id = .branch test → Resolves loops resolve → ScopedAll loops (tree.children id) body →
      ScopedBranches loops ids rest → ScopedBranches loops (id :: ids) ((test.map resolve, body) :: rest)

end

/-- No loop at the node or below it gives its elements and its counter the same name. -/
def DistinctVariables (tree : Tree) (id : NodeId) : Prop :=
  ∀ below, tree.OnPath id below → ∀ item index source, tree.kind below = .iteration item index source →
    index ≠ some item

variable {tree : Tree} {choices : Preservation}

theorem DistinctVariables.child (wellFormed : tree.WellFormed) {parent : NodeId}
    (distinct : DistinctVariables tree parent) : ∀ child ∈ tree.children parent, DistinctVariables tree child :=
  fun child member below onPath =>
    distinct below (Tree.OnPath.trans (.step ((wellFormed.linked parent child).1 member) .self) onPath)

mutual

/-- Fragments that are lowered while the frames of some loops are in force hold code with their variables. -/
theorem Lowers.scoped (wellFormed : tree.WellFormed) {region : Region} {id : NodeId} {before after : Scope}
    {fragments : List Fragment} {loops : List EnclosingLoop} (distinct : DistinctVariables tree id)
    (describes : before.Describes loops) :
    Lowers tree choices region id before fragments after → Scoped tree loops id fragments
  | .document kind _ inside => .document kind (inside.scoped wellFormed (distinct.child wellFormed) describes)
  | .element kind inside =>
      .element kind describes.resolves (inside.scoped wellFormed (distinct.child wellFormed) describes)
  | .customTag kind hoists inside =>
      have hoisted := (Scope.keeps_hoist hoists).describes describes
      .customTag kind hoisted.resolves (inside.scoped wellFormed (distinct.child wellFormed) hoisted)
  | .text kind => .text kind textFragment_leaf
  | .placeholder kind => .placeholder kind describes.resolves
  | .conditional kind inside =>
      .conditional kind (inside.scoped wellFormed (distinct.child wellFormed) describes)
  | .iteration kind opens inside =>
      .iteration kind describes.resolves (inside.scoped wellFormed (distinct.child wellFormed)
        (describes.openLoop (distinct _ .self _ _ _ kind) opens))
  | .comment kind => .comment kind
  | .doctype kind => .doctype kind

theorem LowersAll.scoped (wellFormed : tree.WellFormed) {region : Region} {ids : List NodeId}
    {before after : Scope} {fragments : List Fragment} {loops : List EnclosingLoop}
    (distinct : ∀ id ∈ ids, DistinctVariables tree id) (describes : before.Describes loops) :
    LowersAll tree choices region ids before fragments after → ScopedAll tree loops ids fragments
  | .nil => .nil
  | .cons first rest =>
      .cons (first.scoped wellFormed (distinct _ List.mem_cons_self) describes)
        (rest.scoped wellFormed (fun id member => distinct id (List.mem_cons_of_mem _ member))
          (first.keeps.describes describes))

theorem LowersBranches.scoped (wellFormed : tree.WellFormed) {region : Region} {closed : Bool}
    {ids : List NodeId} {before after : Scope} {branches : List (Option String × List Fragment)}
    {loops : List EnclosingLoop} (distinct : ∀ id ∈ ids, DistinctVariables tree id)
    (describes : before.Describes loops) :
    LowersBranches tree choices region closed ids before branches after → ScopedBranches tree loops ids branches
  | .nil => .nil
  | .cons kind body rest =>
      .cons kind describes.resolves
        (body.scoped wellFormed ((distinct _ List.mem_cons_self).child wellFormed) describes)
        (rest.scoped wellFormed (fun id member => distinct id (List.mem_cons_of_mem _ member))
          (body.keeps.describes describes))

end

end Lowering

/-- What a tree is lowered to holds its code, and each name in it is written as the variable of the innermost
loop around that declares the name. Names that a loop makes up on the way are left open. -/
theorem Tree.lower_scoped {tree : Tree} {choices : Preservation} {root : NodeId} {fragments : List Fragment}
    {hoisted : List Declaration} (wellFormed : tree.WellFormed) (distinct : Lowering.DistinctVariables tree root)
    (ran : tree.lower choices root = .ok (fragments, hoisted)) : Lowering.Scoped tree [] root fragments := by
  obtain ⟨after, lowers, -⟩ := Lowering.lowers_of_lower wellFormed ran
  exact lowers.scoped wellFormed distinct Scope.describes_empty

/-- Loops of one name in each other, with code that names the element and the counter. -/
theorem Tree.lower_scoped_items :
    let tree : Tree := { file := "page", nodes := [
      { kind := .document, children := [⟨1⟩] },
      { kind := .iteration "item" (some "i") "data.rows", children := [⟨2⟩], parent := some ⟨0⟩ },
      { kind := .iteration "item" none "item.cells", children := [⟨3⟩], parent := some ⟨1⟩ },
      { kind := .placeholder "item[i]" true, parent := some ⟨2⟩ }] }
    tree.WellFormed ∧ Lowering.DistinctVariables tree ⟨0⟩ ∧
      ∃ fragments hoisted, tree.lower .standard ⟨0⟩ = .ok (fragments, hoisted) ∧
        Lowering.Scoped tree [] ⟨0⟩ fragments := by
  intro tree
  have wellFormed : tree.WellFormed := Tree.Ordered.wellFormed (by decide)
  have distinct : Lowering.DistinctVariables tree ⟨0⟩ := by
    rintro ⟨below⟩ - item index source kind same
    match below with
    | 0 => cases kind
    | 1 =>
        obtain ⟨rfl, rfl, -⟩ := Kind.iteration.inj kind
        exact absurd same (by decide)
    | 2 =>
        obtain ⟨-, rfl, -⟩ := Kind.iteration.inj kind
        cases same
    | 3 => cases kind
    | below + 4 => cases kind
  have ends : (tree.lower .standard ⟨0⟩).isOk = true := by decide +kernel
  refine ⟨wellFormed, distinct, ?_⟩
  cases ran : tree.lower .standard ⟨0⟩ with
  | error fault =>
      rw [ran] at ends
      cases ends
  | ok result => exact ⟨result.1, result.2, rfl, Tree.lower_scoped wellFormed distinct ran⟩

/-- The code and the escaping of a placeholder that stands alone. -/
def Fragment.soleWrite? : List Fragment → Option (String × Bool)
  | [.write code escape] => some (code, escape)
  | _ => none

theorem Fragment.eq_of_soleWrite? {fragments : List Fragment} {code : String} {escape : Bool}
    (sole : soleWrite? fragments = some (code, escape)) : fragments = [.write code escape] := by
  unfold soleWrite? at sole
  split at sole
  · obtain ⟨rfl, rfl⟩ := Prod.mk.inj (Option.some.inj sole)
    rfl
  · cases sole

/-- A loop whose counter has the name that is made up for the list: code that names the counter is written
with the list. -/
theorem Tree.lower_hides :
    let tree : Tree := { file := "page", nodes := [
      { kind := .document, children := [⟨1⟩] },
      { kind := .iteration "x" (some "x_list") "data.xs", children := [⟨2⟩], parent := some ⟨0⟩ },
      { kind := .placeholder "x_list" true, parent := some ⟨1⟩ }] }
    tree.WellFormed ∧ ∃ (names : LoopNames) (source : String) (hoisted : List Declaration),
      tree.lower .standard ⟨0⟩ =
        .ok ([.loop names.item names.index names.list source [.write names.list true]], hoisted) ∧
      names.list ≠ names.index := by
  intro tree
  have written : ((tree.lower .standard ⟨0⟩).map fun result =>
      (Fragment.soleLoop? result.1).map fun own => (own.1, Fragment.soleWrite? own.2)) =
      .ok (some (⟨"x", "x_list", "x_list_1"⟩, some ("x_list_1", true))) := by decide +kernel
  refine ⟨Tree.Ordered.wellFormed (by decide), ⟨"x", "x_list", "x_list_1"⟩, ?_⟩
  cases ran : tree.lower .standard ⟨0⟩ with
  | error fault =>
      rw [ran] at written
      cases written
  | ok result =>
      rw [ran] at written
      obtain ⟨⟨names, body⟩, sole, equal⟩ := Option.map_eq_some_iff.1 (Except.ok.inj written)
      obtain ⟨rfl, write⟩ := Prod.mk.inj equal
      obtain ⟨source, shape⟩ := Fragment.eq_of_soleLoop? sole
      dsimp only at write
      rw [Fragment.eq_of_soleWrite? write] at shape
      exact ⟨source, result.2, by rw [← shape], by decide⟩

end HtmlTemplate
