import HtmlTemplate.Proofs.Lowering.Course
import HtmlTemplate.Proofs.Naming.Frame
import HtmlTemplate.Proofs.Tree.Ancestry

/-!
# Variables of nested loops

The variables of a loop are new when its frame is opened, and the frames in force keep them taken while the
loop is lowered. So a loop shares no variable with the loops around it, as long as no frame declares a name
twice: the second declaration hides the identifier of the first one.
-/

namespace HtmlTemplate

/-- The identifiers for the variables of a loop. -/
def LoopNames.all (names : LoopNames) : List String :=
  [names.list, names.index, names.item]

namespace Scope

variable {before middle after : Scope} {name : String}

/-- The scope afterwards has the same frames in force, and all declarations of the module. -/
structure Keeps (before after : Scope) : Prop where
  inner : after.inner = before.inner
  outer : after.outer = before.outer
  hoisted : before.hoisted ⊆ after.hoisted

theorem Keeps.refl (scope : Scope) : scope.Keeps scope :=
  ⟨rfl, rfl, List.Subset.refl _⟩

theorem Keeps.trans (first : before.Keeps middle) (second : middle.Keeps after) : before.Keeps after :=
  ⟨second.inner.trans first.inner, second.outer.trans first.outer,
    List.Subset.trans first.hoisted second.hoisted⟩

theorem Keeps.takenNames (keeps : before.Keeps after) (member : name ∈ before.takenNames) :
    name ∈ after.takenNames := by
  have frames : after.frames = before.frames := by
    rw [Scope.frames, Scope.frames, keeps.inner, keeps.outer]
  rw [mem_takenNames] at member ⊢
  rw [frames]
  exact member.imp_right (Or.imp_left fun ⟨declaration, among, named⟩ =>
    ⟨declaration, keeps.hoisted among, named⟩)

theorem keeps_hoist {hint init handler : String} (hoists : before.hoist hint init = (handler, after)) :
    before.Keeps after := by
  unfold hoist at hoists
  split at hoists
  · obtain ⟨-, rfl⟩ := Prod.mk.inj hoists
    exact .refl _
  · obtain ⟨-, rfl⟩ := Prod.mk.inj hoists
    exact ⟨rfl, rfl, List.subset_append_left _ _⟩

/-- Closing the frame of a loop gives the frames back that were in force before it. -/
theorem keeps_pop {item : String} {index : Option String} {names : LoopNames} {opened : Scope}
    (opens : before.openLoop item index = (names, opened)) (keeps : opened.Keeps after) :
    before.Keeps after.pop := by
  obtain ⟨first, second, ofItem, ofIndex, ofList⟩ := openLoop_eq_iff.1 opens
  have outer : after.outer = before.inner :: before.outer := by
    rw [keeps.outer, declare_outer ofList, declare_outer ofIndex, declare_outer ofItem]
    rfl
  have hoisted : before.hoisted ⊆ after.hoisted := by
    have kept := keeps.hoisted
    rwa [declare_hoisted ofList, declare_hoisted ofIndex, declare_hoisted ofItem] at kept
  unfold pop
  rw [outer]
  exact ⟨rfl, rfl, hoisted⟩

/-- The names that a loop declares in its frame differ. -/
def DeclaresApart (item : String) (index : Option String) : Prop :=
  ∀ name, index = some name → name ≠ item ∧ name ≠ item ++ "_list"

theorem DeclaresApart.index_ne {item : String} {index : Option String} (apart : DeclaresApart item index) :
    index.getD (item ++ "_index") ≠ item ∧ item ++ "_list" ≠ index.getD (item ++ "_index") := by
  cases index with
  | none =>
      refine ⟨append_ne_self (by decide), fun equal => ?_⟩
      have same : "_list" = "_index" := (String.append_right_inj item).1 equal
      exact absurd same (by decide)
  | some name => exact ⟨(apart name rfl).1, fun equal => (apart name rfl).2 equal.symm⟩

/-- An identifier that is declared differs from those that were taken before, and is taken then. -/
theorem declare_distinct {identifier : String} {around : List String}
    (declares : before.declare name = (identifier, after)) (new : before.inner.find? name = none)
    (distinct : around.Nodup) (taken : ∀ other ∈ around, other ∈ before.takenNames) :
    (identifier :: around).Nodup ∧ ∀ other ∈ identifier :: around, other ∈ after.takenNames := by
  refine ⟨List.nodup_cons.2 ⟨fun member => declare_notMem declares (taken _ member), distinct⟩, ?_⟩
  intro other member
  rcases List.mem_cons.1 member with rfl | member
  · exact declare_mem declares
  · exact takenNames_declare declares new (taken other member)

/-- The variables of a loop differ from each other and from all names that were taken before. All of these
names are taken then. -/
theorem openLoop_distinct {item : String} {index : Option String} {names : LoopNames} {around : List String}
    (apart : DeclaresApart item index) (opens : before.openLoop item index = (names, after))
    (distinct : around.Nodup) (taken : ∀ name ∈ around, name ∈ before.takenNames) :
    (names.all ++ around).Nodup ∧ ∀ name ∈ names.all ++ around, name ∈ after.takenNames := by
  obtain ⟨first, second, ofItem, ofIndex, ofList⟩ := openLoop_eq_iff.1 opens
  obtain ⟨indexNe, listNe⟩ := apart.index_ne
  have itemNew : before.push.inner.find? item = none := SortedMap.find?_empty
  have indexNew : first.inner.find? (index.getD (item ++ "_index")) = none := by
    rw [declare_inner ofItem, SortedMap.find?_insert, if_neg indexNe]
    exact SortedMap.find?_empty
  have listNew : second.inner.find? (item ++ "_list") = none := by
    rw [declare_inner ofIndex, SortedMap.find?_insert, if_neg listNe, declare_inner ofItem,
      SortedMap.find?_insert, if_neg (append_ne_self (by decide))]
    exact SortedMap.find?_empty
  have withItem := declare_distinct ofItem itemNew distinct fun name member => takenNames_push (taken name member)
  have withIndex := declare_distinct ofIndex indexNew withItem.1 withItem.2
  exact declare_distinct ofList listNew withIndex.1 withIndex.2

end Scope

namespace Lowering

variable {tree : Tree} {choices : Preservation}

mutual

/-- Lowering a node leaves the frames in force as they were. -/
theorem Lowers.keeps {region : Region} {id : NodeId} {before after : Scope} {fragments : List Fragment} :
    Lowers tree choices region id before fragments after → before.Keeps after
  | .document _ _ inside => inside.keeps
  | .element _ inside => inside.keeps
  | .customTag _ hoists inside => (Scope.keeps_hoist hoists).trans inside.keeps
  | .text _ => .refl _
  | .placeholder _ => .refl _
  | .conditional _ inside => inside.keeps
  | .iteration _ opens inside => Scope.keeps_pop opens inside.keeps
  | .comment _ => .refl _
  | .doctype _ => .refl _

theorem LowersAll.keeps {region : Region} {ids : List NodeId} {before after : Scope} {fragments : List Fragment} :
    LowersAll tree choices region ids before fragments after → before.Keeps after
  | .nil => .refl _
  | .cons first rest => first.keeps.trans rest.keeps

theorem LowersBranches.keeps {region : Region} {closed : Bool} {ids : List NodeId} {before after : Scope}
    {branches : List (Option String × List Fragment)} :
    LowersBranches tree choices region closed ids before branches after → before.Keeps after
  | .nil => .refl _
  | .cons _ body rest => body.keeps.trans rest.keeps

end

end Lowering

/-! ## Loops around a fragment -/

namespace Fragment

/-- The fragment is one of the fragments, or it stands inside of them. The loops around it are given by
their variables, the innermost first. -/
inductive Inside : List Fragment → List LoopNames → Fragment → Prop
  | here {fragments : List Fragment} {fragment : Fragment} : fragment ∈ fragments → Inside fragments [] fragment
  | element {fragments children : List Fragment} {tag : String} {attributes : List WrittenAttribute}
      {loops : List LoopNames} {fragment : Fragment} :
      .element tag attributes children ∈ fragments → Inside children loops fragment →
      Inside fragments loops fragment
  | tagCall {fragments body : List Fragment} {name handler : String} {attributes : List WrittenAttribute}
      {loops : List LoopNames} {fragment : Fragment} :
      .tagCall name handler attributes body ∈ fragments → Inside body loops fragment →
      Inside fragments loops fragment
  | branch {fragments body : List Fragment} {branches : List (Option String × List Fragment)}
      {test : Option String} {loops : List LoopNames} {fragment : Fragment} :
      .branching branches ∈ fragments → (test, body) ∈ branches → Inside body loops fragment →
      Inside fragments loops fragment
  | loop {fragments body : List Fragment} {item index list source : String} {loops : List LoopNames}
      {fragment : Fragment} :
      .loop item index list source body ∈ fragments → Inside body loops fragment →
      Inside fragments (loops ++ [⟨item, index, list⟩]) fragment

variable {fragments others : List Fragment} {loops : List LoopNames} {fragment : Fragment}

theorem inside_nil (inside : Inside [] loops fragment) : False := by
  cases inside <;> simp_all

theorem inside_append (inside : Inside (fragments ++ others) loops fragment) :
    Inside fragments loops fragment ∨ Inside others loops fragment := by
  cases inside with
  | here member => exact (List.mem_append.1 member).imp .here .here
  | element member below => exact (List.mem_append.1 member).imp (.element · below) (.element · below)
  | tagCall member below => exact (List.mem_append.1 member).imp (.tagCall · below) (.tagCall · below)
  | branch member among below =>
      exact (List.mem_append.1 member).imp (.branch · among below) (.branch · among below)
  | loop member below => exact (List.mem_append.1 member).imp (.loop · below) (.loop · below)

/-- The fragments are inside of the fragment. -/
inductive HasBody : Fragment → List Fragment → Prop
  | element {tag : String} {attributes : List WrittenAttribute} {children : List Fragment} :
      HasBody (.element tag attributes children) children
  | tagCall {name handler : String} {attributes : List WrittenAttribute} {body : List Fragment} :
      HasBody (.tagCall name handler attributes body) body
  | branch {branches : List (Option String × List Fragment)} {test : Option String} {body : List Fragment} :
      (test, body) ∈ branches → HasBody (.branching branches) body
  | loop {item index list source : String} {body : List Fragment} : HasBody (.loop item index list source body) body

/-- All fragments are good, and so are all that stand inside of them. -/
def Throughout (good : Fragment → Prop) (fragments : List Fragment) : Prop :=
  ∀ loops fragment, Inside fragments loops fragment → good fragment

theorem throughout_nil (good : Fragment → Prop) : Throughout good [] :=
  fun _ _ inside => (inside_nil inside).elim

variable {good : Fragment → Prop}

theorem Throughout.append (first : Throughout good fragments) (rest : Throughout good others) :
    Throughout good (fragments ++ others) :=
  fun loops fragment inside => (inside_append inside).elim (first loops fragment) (rest loops fragment)

/-- All is good in a fragment if it is itself, and so is all that is inside of it. -/
theorem throughout_singleton (self : good fragment) (inner : ∀ body, fragment.HasBody body → Throughout good body) :
    Throughout good [fragment] := by
  intro loops other inside
  cases inside with
  | here member => exact List.mem_singleton.1 member ▸ self
  | element member below => exact inner _ (List.mem_singleton.1 member ▸ .element) _ _ below
  | tagCall member below => exact inner _ (List.mem_singleton.1 member ▸ .tagCall) _ _ below
  | branch member among below => exact inner _ (List.mem_singleton.1 member ▸ .branch among) _ _ below
  | loop member below => exact inner _ (List.mem_singleton.1 member ▸ .loop) _ _ below

theorem Inside.mono (subset : fragments ⊆ others) (inside : Inside fragments loops fragment) :
    Inside others loops fragment := by
  cases inside with
  | here member => exact .here (subset member)
  | element member below => exact .element (subset member) below
  | tagCall member below => exact .tagCall (subset member) below
  | branch member among below => exact .branch (subset member) among below
  | loop member below => exact .loop (subset member) below

theorem throughout_append_iff :
    Throughout good (fragments ++ others) ↔ Throughout good fragments ∧ Throughout good others := by
  refine ⟨fun whole => ⟨?_, ?_⟩, fun ⟨first, rest⟩ => first.append rest⟩
  · exact fun loops fragment inside => whole loops fragment (inside.mono (List.subset_append_left _ _))
  · exact fun loops fragment inside => whole loops fragment (inside.mono (List.subset_append_right _ _))

theorem throughout_singleton_iff :
    Throughout good [fragment] ↔ good fragment ∧ ∀ body, fragment.HasBody body → Throughout good body := by
  refine ⟨fun whole => ⟨whole [] fragment (.here List.mem_cons_self), ?_⟩, fun ⟨self, inner⟩ =>
    throughout_singleton self inner⟩
  intro body hasBody loops other inside
  cases hasBody with
  | element => exact whole _ _ (.element List.mem_cons_self inside)
  | tagCall => exact whole _ _ (.tagCall List.mem_cons_self inside)
  | branch among => exact whole _ _ (.branch List.mem_cons_self among inside)
  | loop => exact whole _ _ (.loop List.mem_cons_self inside)

end Fragment

namespace Lowering

theorem throughout_textFragment {good : Fragment → Prop} (plain : ∀ value escape, good (.text value escape))
    (region : Region) (value : String) : Fragment.Throughout good (textFragment region value) := by
  have single : ∀ text escape, Fragment.Throughout good [.text text escape] := fun text escape =>
    Fragment.throughout_singleton (plain text escape) fun _ body => nomatch body
  unfold textFragment
  split
  · exact single _ _
  · split
    · exact single _ _
    · split
      · exact single _ _
      · exact Fragment.throughout_nil good

/-- The variables of the loops in the fragments differ from each other and from other names. -/
def VariablesDiffer (around : List String) (fragments : List Fragment) : Prop :=
  ∀ (loops : List LoopNames) (names : LoopNames) (source : String) (body : List Fragment),
    Fragment.Inside fragments loops (.loop names.item names.index names.list source body) →
      (names.all ++ loops.flatMap LoopNames.all ++ around).Nodup

/-- The loops at the node and below it declare names that differ. -/
def Declaring (tree : Tree) (id : NodeId) : Prop :=
  ∀ below, tree.OnPath id below → ∀ item index source, tree.kind below = .iteration item index source →
    Scope.DeclaresApart item index

variable {tree : Tree} {choices : Preservation}

theorem Declaring.child (wellFormed : tree.WellFormed) {parent : NodeId} (declaring : Declaring tree parent) :
    ∀ child ∈ tree.children parent, Declaring tree child :=
  fun child member below onPath =>
    declaring below (Tree.OnPath.trans (.step ((wellFormed.linked parent child).1 member) .self) onPath)

theorem variablesDiffer_nil (around : List String) : VariablesDiffer around [] :=
  fun _ _ _ _ inside => (Fragment.inside_nil inside).elim

theorem VariablesDiffer.append {around : List String} {first rest : List Fragment}
    (left : VariablesDiffer around first) (right : VariablesDiffer around rest) :
    VariablesDiffer around (first ++ rest) := by
  intro loops names source body inside
  rcases Fragment.inside_append inside with inside | inside
  · exact left loops names source body inside
  · exact right loops names source body inside

theorem variablesDiffer_element {around : List String} {tag : String} {attributes : List WrittenAttribute}
    {children : List Fragment} (below : VariablesDiffer around children) :
    VariablesDiffer around [.element tag attributes children] := by
  intro loops names source body inside
  cases inside with
  | element member inside =>
      obtain ⟨rfl, rfl, rfl⟩ := Fragment.element.inj (List.mem_singleton.1 member)
      exact below _ _ _ _ inside
  | here member => cases List.mem_singleton.1 member
  | tagCall member _ => cases List.mem_singleton.1 member
  | branch member _ _ => cases List.mem_singleton.1 member
  | loop member _ => cases List.mem_singleton.1 member

theorem variablesDiffer_tagCall {around : List String} {name handler : String}
    {attributes : List WrittenAttribute} {children : List Fragment} (below : VariablesDiffer around children) :
    VariablesDiffer around [.tagCall name handler attributes children] := by
  intro loops names source body inside
  cases inside with
  | tagCall member inside =>
      obtain ⟨rfl, rfl, rfl, rfl⟩ := Fragment.tagCall.inj (List.mem_singleton.1 member)
      exact below _ _ _ _ inside
  | here member => cases List.mem_singleton.1 member
  | element member _ => cases List.mem_singleton.1 member
  | branch member _ _ => cases List.mem_singleton.1 member
  | loop member _ => cases List.mem_singleton.1 member

theorem variablesDiffer_branching {around : List String} {branches : List (Option String × List Fragment)}
    (below : ∀ branch ∈ branches, VariablesDiffer around branch.2) :
    VariablesDiffer around [.branching branches] := by
  intro loops names source body inside
  cases inside with
  | branch member among inside =>
      obtain rfl := Fragment.branching.inj (List.mem_singleton.1 member)
      exact below _ among _ _ _ _ inside
  | here member => cases List.mem_singleton.1 member
  | element member _ => cases List.mem_singleton.1 member
  | tagCall member _ => cases List.mem_singleton.1 member
  | loop member _ => cases List.mem_singleton.1 member

/-- A loop has the variables of its own, and those of the loops in its body differ from them as well. -/
theorem variablesDiffer_loop {around : List String} {names : LoopNames} {source : String} {body : List Fragment}
    (distinct : (names.all ++ around).Nodup) (below : VariablesDiffer (names.all ++ around) body) :
    VariablesDiffer around [.loop names.item names.index names.list source body] := by
  intro loops others otherSource otherBody inside
  cases inside with
  | here member =>
      obtain ⟨item, index, list, -, -⟩ := Fragment.loop.inj (List.mem_singleton.1 member)
      rw [List.flatMap_nil, List.append_nil, LoopNames.all, item, index, list]
      exact distinct
  | loop member inside =>
      obtain ⟨rfl, rfl, rfl, rfl, rfl⟩ := Fragment.loop.inj (List.mem_singleton.1 member)
      have differ := below _ _ _ _ inside
      rwa [List.flatMap_append, List.flatMap_singleton, ← List.append_assoc, List.append_assoc]
  | element member _ => cases List.mem_singleton.1 member
  | tagCall member _ => cases List.mem_singleton.1 member
  | branch member _ _ => cases List.mem_singleton.1 member

/-- A fragment without others inside has no loops. -/
theorem variablesDiffer_leaf {around : List String} {fragments : List Fragment}
    (leaves : ∀ fragment ∈ fragments, (∃ value escape, fragment = .text value escape) ∨
      (∃ code escape, fragment = .write code escape) ∨ (∃ value emit, fragment = .comment value emit) ∨
      ∃ name, fragment = .doctype name) : VariablesDiffer around fragments := by
  intro loops names source body inside
  cases inside <;> rename_i member <;> rcases leaves _ ‹_ ∈ fragments› with
    ⟨_, _, equal⟩ | ⟨_, _, equal⟩ | ⟨_, _, equal⟩ | ⟨_, equal⟩ <;> cases equal

theorem textFragment_leaf {region : Region} {value : String} :
    ∀ fragment ∈ textFragment region value, ∃ value escape, fragment = .text value escape := by
  intro fragment member
  unfold textFragment at member
  split at member
  · exact ⟨_, _, List.mem_singleton.1 member⟩
  · split at member
    · exact ⟨_, _, List.mem_singleton.1 member⟩
    · split at member
      · exact ⟨_, _, List.mem_singleton.1 member⟩
      · exact absurd member List.not_mem_nil

mutual

/-- Loops that are lowered while other names are taken share no variable with each other or with those. -/
theorem Lowers.variablesDiffer (wellFormed : tree.WellFormed) {region : Region} {id : NodeId}
    {before after : Scope} {fragments : List Fragment} {around : List String} (declaring : Declaring tree id)
    (distinct : around.Nodup) (taken : ∀ name ∈ around, name ∈ before.takenNames) :
    Lowers tree choices region id before fragments after → VariablesDiffer around fragments
  | .document _ _ inside => inside.variablesDiffer wellFormed (declaring.child wellFormed) distinct taken
  | .element _ inside =>
      variablesDiffer_element (inside.variablesDiffer wellFormed (declaring.child wellFormed) distinct taken)
  | .customTag _ hoists inside =>
      variablesDiffer_tagCall (inside.variablesDiffer wellFormed (declaring.child wellFormed) distinct
        fun name member => (Scope.keeps_hoist hoists).takenNames (taken name member))
  | .text _ => variablesDiffer_leaf fun fragment member => .inl (textFragment_leaf fragment member)
  | .placeholder _ => variablesDiffer_leaf fun _ member => .inr (.inl ⟨_, _, List.mem_singleton.1 member⟩)
  | .conditional _ inside =>
      variablesDiffer_branching (inside.variablesDiffer wellFormed (declaring.child wellFormed) distinct taken)
  | .iteration kind opens inside =>
      have opened := Scope.openLoop_distinct (declaring _ .self _ _ _ kind) opens distinct taken
      variablesDiffer_loop opened.1
        (inside.variablesDiffer wellFormed (declaring.child wellFormed) opened.1 opened.2)
  | .comment _ => variablesDiffer_leaf fun _ member => .inr (.inr (.inl ⟨_, _, List.mem_singleton.1 member⟩))
  | .doctype _ => variablesDiffer_leaf fun _ member => .inr (.inr (.inr ⟨_, List.mem_singleton.1 member⟩))

theorem LowersAll.variablesDiffer (wellFormed : tree.WellFormed) {region : Region} {ids : List NodeId}
    {before after : Scope} {fragments : List Fragment} {around : List String}
    (declaring : ∀ id ∈ ids, Declaring tree id)
    (distinct : around.Nodup) (taken : ∀ name ∈ around, name ∈ before.takenNames) :
    LowersAll tree choices region ids before fragments after → VariablesDiffer around fragments
  | .nil => variablesDiffer_nil around
  | .cons first rest =>
      (first.variablesDiffer wellFormed (declaring _ List.mem_cons_self) distinct taken).append
        (rest.variablesDiffer wellFormed (fun id member => declaring id (List.mem_cons_of_mem _ member)) distinct
          fun name member => first.keeps.takenNames (taken name member))

theorem LowersBranches.variablesDiffer (wellFormed : tree.WellFormed) {region : Region} {closed : Bool}
    {ids : List NodeId} {before after : Scope} {branches : List (Option String × List Fragment)}
    {around : List String} (declaring : ∀ id ∈ ids, Declaring tree id)
    (distinct : around.Nodup) (taken : ∀ name ∈ around, name ∈ before.takenNames) :
    LowersBranches tree choices region closed ids before branches after →
      ∀ branch ∈ branches, VariablesDiffer around branch.2
  | .nil => fun _ impossible => absurd impossible List.not_mem_nil
  | .cons _ body rest =>
      List.forall_mem_cons.2
        ⟨body.variablesDiffer wellFormed ((declaring _ List.mem_cons_self).child wellFormed) distinct taken,
          rest.variablesDiffer wellFormed (fun id member => declaring id (List.mem_cons_of_mem _ member)) distinct
            fun name member => body.keeps.takenNames (taken name member)⟩

end

end Lowering

/-- The variables of a loop and of the loops around it are pairwise different, if every loop below the root
declares names that differ: its counter is called neither as its element nor as the list of its elements. -/
theorem Tree.lower_variables_nodup {tree : Tree} {choices : Preservation} {root : NodeId}
    {fragments : List Fragment} {hoisted : List Declaration} (wellFormed : tree.WellFormed)
    (declaring : Lowering.Declaring tree root) (ran : tree.lower choices root = .ok (fragments, hoisted))
    {loops : List LoopNames} {names : LoopNames} {source : String} {body : List Fragment}
    (inside : Fragment.Inside fragments loops (.loop names.item names.index names.list source body)) :
    (names.all ++ loops.flatMap LoopNames.all).Nodup := by
  obtain ⟨after, lowers, -⟩ := Lowering.lowers_of_lower wellFormed ran
  have differ := lowers.variablesDiffer wellFormed declaring List.nodup_nil fun _ impossible =>
    absurd impossible List.not_mem_nil
  have distinct := differ loops names source body inside
  rwa [List.append_nil] at distinct

namespace Fragment

/-- The variables and the body of a loop that stands alone. -/
def soleLoop? : List Fragment → Option (LoopNames × List Fragment)
  | [.loop item index list _ body] => some (⟨item, index, list⟩, body)
  | _ => none

theorem eq_of_soleLoop? {fragments body : List Fragment} {names : LoopNames}
    (sole : soleLoop? fragments = some (names, body)) :
    ∃ source, fragments = [.loop names.item names.index names.list source body] := by
  unfold soleLoop? at sole
  split at sole
  · obtain ⟨rfl, rfl⟩ := Prod.mk.inj (Option.some.inj sole)
    exact ⟨_, rfl⟩
  · cases sole

/-- The variables of loops of which each stands alone in the one before, as many as the budget says. -/
def soleLoops : Nat → List Fragment → List LoopNames
  | 0, _ => []
  | budget + 1, fragments =>
      match soleLoop? fragments with
      | some (names, body) => names :: soleLoops budget body
      | none => []

theorem inside_of_soleLoops {budget : Nat} {fragments : List Fragment} (around : List LoopNames)
    {names : LoopNames} (chain : soleLoops budget fragments = around ++ [names]) :
    ∃ source body,
      Inside fragments around.reverse (.loop names.item names.index names.list source body) := by
  induction budget generalizing fragments around with
  | zero => exact absurd chain (by simp [soleLoops])
  | succ budget hypothesis =>
      unfold soleLoops at chain
      split at chain
      · next own body sole =>
          obtain ⟨source, rfl⟩ := eq_of_soleLoop? sole
          cases around with
          | nil =>
              obtain ⟨rfl, -⟩ := List.cons.inj chain
              exact ⟨source, body, .here List.mem_cons_self⟩
          | cons outer around =>
              obtain ⟨rfl, rest⟩ := List.cons.inj chain
              obtain ⟨inner, innerBody, inside⟩ := hypothesis around rest
              refine ⟨inner, innerBody, ?_⟩
              rw [List.reverse_cons]
              exact .loop List.mem_cons_self inside
      · exact absurd chain.symm (by simp)

end Fragment

/-- Two loops of one name are apart: the inner one has variables with numbers. -/
theorem Tree.lower_variables_nodup_items :
    let tree : Tree := { file := "page", nodes := [
      { kind := .document, children := [⟨1⟩] },
      { kind := .iteration "item" none "data.rows", children := [⟨2⟩], parent := some ⟨0⟩ },
      { kind := .iteration "item" (some "place") "item.cells", parent := some ⟨1⟩ }] }
    let names : LoopNames := ⟨"item_1", "place", "item_list_1"⟩
    let around : LoopNames := ⟨"item", "item_index", "item_list"⟩
    tree.WellFormed ∧ Lowering.Declaring tree ⟨0⟩ ∧
      ∃ fragments hoisted source body, tree.lower .standard ⟨0⟩ = .ok (fragments, hoisted) ∧
        Fragment.Inside fragments [around] (.loop names.item names.index names.list source body) ∧
        (names.all ++ [around].flatMap LoopNames.all).Nodup := by
  intro tree names around
  have wellFormed : tree.WellFormed := Tree.Ordered.wellFormed (by decide)
  have declaring : Lowering.Declaring tree ⟨0⟩ := by
    rintro ⟨below⟩ - item index source kind name rfl
    match below with
    | 0 => cases kind
    | 1 => cases kind
    | 2 => cases kind; decide
    | below + 3 => cases kind
  have chain : ((tree.lower .standard ⟨0⟩).map fun result => Fragment.soleLoops 2 result.1) =
      .ok [around, names] := by decide +kernel
  refine ⟨wellFormed, declaring, ?_⟩
  cases ran : tree.lower .standard ⟨0⟩ with
  | error fault =>
      rw [ran] at chain
      cases chain
  | ok result =>
      rw [ran] at chain
      obtain ⟨source, body, inside⟩ := Fragment.inside_of_soleLoops [around] (Except.ok.inj chain)
      exact ⟨result.1, result.2, source, body, rfl, inside,
        Tree.lower_variables_nodup wellFormed declaring ran inside⟩

/-- A second declaration of a name hides the identifier that the first one got, so that a loop inside takes
it again: the inner loop writes the counter of the loop around it. -/
theorem Tree.lower_shares :
    let tree : Tree := { file := "page", nodes := [
      { kind := .document, children := [⟨1⟩] },
      { kind := .iteration "a_list" none "data.xs", children := [⟨2⟩], parent := some ⟨0⟩ },
      { kind := .iteration "a" (some "a_list") "data.ys", children := [⟨3⟩], parent := some ⟨1⟩ },
      { kind := .iteration "a_list_1" none "data.zs", parent := some ⟨2⟩ }] }
    ∃ (fragments : List Fragment) (hoisted : List Declaration) (names : LoopNames) (around : List LoopNames)
      (source : String) (body : List Fragment), tree.WellFormed ∧
      tree.lower .standard ⟨0⟩ = .ok (fragments, hoisted) ∧
      Fragment.Inside fragments around (.loop names.item names.index names.list source body) ∧
      ¬(names.all ++ around.flatMap LoopNames.all).Nodup := by
  intro tree
  have chain : ((tree.lower .standard ⟨0⟩).map fun result => Fragment.soleLoops 3 result.1) =
      .ok [⟨"a_list", "a_list_index", "a_list_list"⟩, ⟨"a", "a_list_1", "a_list_2"⟩,
        ⟨"a_list_1", "a_list_1_index", "a_list_1_list"⟩] := by decide +kernel
  cases ran : tree.lower .standard ⟨0⟩ with
  | error fault =>
      rw [ran] at chain
      cases chain
  | ok result =>
      rw [ran] at chain
      obtain ⟨source, body, inside⟩ := Fragment.inside_of_soleLoops
        [⟨"a_list", "a_list_index", "a_list_list"⟩, ⟨"a", "a_list_1", "a_list_2"⟩]
        (Except.ok.inj chain)
      exact ⟨result.1, result.2, _, _, source, body, Tree.Ordered.wellFormed (by decide), rfl, inside, by decide⟩

end HtmlTemplate
