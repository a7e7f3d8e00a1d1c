import HtmlTemplate.CodeModule
import HtmlTemplate.Proofs.Naming.Distinct

/-!
# Names of the module and names of loops

One scope gives out the identifiers for the variables of loops and the identifiers for declarations of the module, in
whatever order they are asked for. The two never meet, although a variable may be called again what it was called in a
frame that is closed. So in a generated module no loop gets in the way of a handler or a helper.
-/

namespace HtmlTemplate

/-! ## Operations on a scope -/

namespace Scope

/-- An operation on a scope. -/
inductive Step
  | push
  | pop
  | declare (name : String)
  | hoist (hint init : String)

/-- What an operation gives. -/
inductive Answer
  | nothing
  /-- The identifier for a name that was declared. -/
  | declared (identifier : String)
  /-- The identifier for a value of the module. -/
  | hoisted (init identifier : String)
  deriving DecidableEq

/-- What one operation gives, and the scope after it. -/
def Step.run (scope : Scope) : Step → Answer × Scope
  | push => (.nothing, scope.push)
  | pop => (.nothing, scope.pop)
  | declare name => (.declared (scope.declare name).1, (scope.declare name).2)
  | hoist hint init => (.hoisted init (scope.hoist hint init).1, (scope.hoist hint init).2)

/-- What operations give one after the other, and the scope after them. -/
def run (scope : Scope) : List Step → List Answer × Scope
  | [] => ([], scope)
  | step :: steps =>
      ((step.run scope).1 :: (run (step.run scope).2 steps).1, (run (step.run scope).2 steps).2)

variable {scope before after : Scope} {steps more : List Step} {answers : List Answer}
variable {name hint init identifier : String}

theorem run_append (scope : Scope) (steps more : List Step) :
    scope.run (steps ++ more) =
      ((scope.run steps).1 ++ ((scope.run steps).2.run more).1, ((scope.run steps).2.run more).2) := by
  induction steps generalizing scope with
  | nil => rfl
  | cons step steps hypothesis => rw [List.cons_append, run, run, hypothesis, List.cons_append]

/-- An identifier is the name itself, or the name with a number. -/
theorem unique_eq (taken : List String) (name : String) :
    unique taken name = name ∨ ∃ n, unique taken name = numbered name n := by
  obtain ⟨n, -, -, same⟩ := exists_isLeast taken name
  cases n with
  | zero => exact .inl same
  | succ n => exact .inr ⟨n + 1, same⟩

/-! ## What all scopes have in common -/

/-- The declarations of the module have names and values of their own. Their names are kept apart from those that the
module binds itself and from all that were ever written for the names of frames. -/
structure Hygienic (scope : Scope) : Prop where
  names : (scope.hoisted.map Declaration.name).Nodup
  inits : (scope.hoisted.map Declaration.init).Nodup
  unreserved : ∀ declaration ∈ scope.hoisted, declaration.name ∉ reservedNames
  emitted : ∀ identifier ∈ scope.emitted, identifier ∉ reservedNames
  apart : ∀ declaration ∈ scope.hoisted, declaration.name ∉ scope.emitted

theorem hygienic_empty : ({} : Scope).Hygienic :=
  ⟨.nil, .nil, fun _ none => absurd none List.not_mem_nil, fun _ none => absurd none List.not_mem_nil,
    fun _ none => absurd none List.not_mem_nil⟩

theorem notMem_reservedNames (free : name ∉ scope.takenNames) : name ∉ reservedNames :=
  fun reserved => free (mem_takenNames.2 (.inl reserved))

theorem ne_hoisted (free : name ∉ scope.takenNames) : ∀ declaration ∈ scope.hoisted, declaration.name ≠ name :=
  fun declaration member same => free (mem_takenNames.2 (.inr (.inl ⟨declaration, member, same⟩)))

theorem Hygienic.declare (hygienic : scope.Hygienic) (name : String) : (scope.declare name).2.Hygienic := by
  have free : unique scope.takenNames name ∉ scope.takenNames := unique_notMem _ _
  refine ⟨hygienic.names, hygienic.inits, hygienic.unreserved, ?_, ?_⟩
  · intro identifier member
    rcases List.mem_cons.1 member with rfl | earlier
    · exact notMem_reservedNames free
    · exact hygienic.emitted identifier earlier
  · intro declaration hoisted member
    rcases List.mem_cons.1 member with same | earlier
    · exact ne_hoisted free declaration hoisted same
    · exact hygienic.apart declaration hoisted earlier

/-- A value is either declared already, or it gets a new name. -/
theorem hoist_cases (scope : Scope) (hint init : String) :
    (∃ declaration ∈ scope.hoisted, declaration.init = init ∧ scope.hoist hint init = (declaration.name, scope)) ∨
      (∀ declaration ∈ scope.hoisted, declaration.init ≠ init) ∧
        ∃ name, name = unique (scope.takenNames ++ scope.emitted) hint ∧
          scope.hoist hint init = (name, { scope with hoisted := scope.hoisted ++ [{ name, init }] }) := by
  unfold hoist
  cases found : scope.hoisted.find? fun declaration => declaration.init == init with
  | some declaration =>
      exact .inl ⟨declaration, List.mem_of_find?_eq_some found, by simpa using List.find?_some found, rfl⟩
  | none => exact .inr ⟨by simpa using List.find?_eq_none.1 found, _, rfl, rfl⟩

theorem Hygienic.hoist (hygienic : scope.Hygienic) (hint init : String) : (scope.hoist hint init).2.Hygienic := by
  rcases scope.hoist_cases hint init with ⟨declaration, -, -, same⟩ | ⟨new, name, chosen, same⟩
  · rw [same]
    exact hygienic
  · have free : name ∉ scope.takenNames ++ scope.emitted := chosen ▸ unique_notMem _ _
    rw [List.mem_append, not_or] at free
    have others := ne_hoisted free.1
    rw [same]
    refine ⟨?_, ?_, ?_, hygienic.emitted, ?_⟩
    · rw [List.map_append, List.nodup_append]
      exact ⟨hygienic.names, by simp, by simpa using others⟩
    · rw [List.map_append, List.nodup_append]
      exact ⟨hygienic.inits, by simp, by simpa using new⟩
    · intro declaration member
      rcases List.mem_append.1 member with earlier | last
      · exact hygienic.unreserved declaration earlier
      · exact List.mem_singleton.1 last ▸ notMem_reservedNames free.1
    · intro declaration member
      rcases List.mem_append.1 member with earlier | last
      · exact hygienic.apart declaration earlier
      · rw [List.mem_singleton.1 last]
        exact free.2

theorem pop_names (scope : Scope) : scope.pop.hoisted = scope.hoisted ∧ scope.pop.emitted = scope.emitted := by
  unfold pop
  split <;> exact ⟨rfl, rfl⟩

theorem Hygienic.step (hygienic : scope.Hygienic) (step : Step) : (step.run scope).2.Hygienic := by
  cases step with
  | push => exact ⟨hygienic.names, hygienic.inits, hygienic.unreserved, hygienic.emitted, hygienic.apart⟩
  | pop =>
      obtain ⟨hoisted, emitted⟩ := scope.pop_names
      refine ⟨?_, ?_, ?_, ?_, ?_⟩ <;> simp only [Step.run, hoisted, emitted]
      · exact hygienic.names
      · exact hygienic.inits
      · exact hygienic.unreserved
      · exact hygienic.emitted
      · exact hygienic.apart
  | declare name => exact hygienic.declare name
  | hoist hint init => exact hygienic.hoist hint init

theorem Hygienic.run (hygienic : scope.Hygienic) (steps : List Step) : (scope.run steps).2.Hygienic := by
  induction steps generalizing scope with
  | nil => exact hygienic
  | cons step steps hypothesis => exact hypothesis (hygienic.step step)

/-! ## What was given out -/

/-- The scope knows an identifier that was given out. -/
def Knows (scope : Scope) : Answer → Prop
  | .nothing => True
  | .declared identifier => identifier ∈ scope.emitted
  | .hoisted init identifier => { name := identifier, init } ∈ scope.hoisted

theorem knows_step (scope : Scope) (step : Step) : (step.run scope).2.Knows (step.run scope).1 := by
  cases step with
  | push => exact trivial
  | pop => exact trivial
  | declare name => exact List.mem_cons_self
  | hoist hint init =>
      unfold Step.run
      dsimp only
      rcases scope.hoist_cases hint init with ⟨declaration, member, rfl, same⟩ | ⟨-, name, -, same⟩
      · rw [same]
        exact member
      · rw [same]
        exact List.mem_append_right _ List.mem_cons_self

/-- No operation takes back an identifier. -/
theorem Knows.step {answer : Answer} (knows : scope.Knows answer) (step : Step) : (step.run scope).2.Knows answer := by
  have hoisted : scope.hoisted ⊆ (step.run scope).2.hoisted := by
    cases step with
    | push => exact List.Subset.refl _
    | pop => exact (scope.pop_names).1 ▸ List.Subset.refl _
    | declare name => exact List.Subset.refl _
    | hoist hint init => exact (keeps_hoist rfl).hoisted
  have emitted : scope.emitted ⊆ (step.run scope).2.emitted := by
    cases step with
    | push => exact List.Subset.refl _
    | pop => exact (scope.pop_names).2 ▸ List.Subset.refl _
    | declare name => exact List.subset_cons_self _ _
    | hoist hint init =>
        unfold Step.run
        dsimp only
        rcases scope.hoist_cases hint init with ⟨declaration, -, -, same⟩ | ⟨-, name, -, same⟩ <;> rw [same]
        · exact List.Subset.refl _
        · exact List.Subset.refl _
  cases answer with
  | nothing => exact trivial
  | declared identifier => exact emitted knows
  | hoisted init identifier => exact hoisted knows

theorem Knows.run {answer : Answer} (knows : scope.Knows answer) (steps : List Step) : (scope.run steps).2.Knows answer := by
  induction steps generalizing scope with
  | nil => exact knows
  | cons step steps hypothesis => exact hypothesis (knows.step step)

/-- In the end a scope knows all that it gave out. -/
theorem knows_of_mem_run {answer : Answer} (member : answer ∈ (scope.run steps).1) : (scope.run steps).2.Knows answer := by
  induction steps generalizing scope with
  | nil => exact absurd member List.not_mem_nil
  | cons step steps hypothesis =>
      rcases List.mem_cons.1 member with rfl | later
      · exact (scope.knows_step step).run steps
      · exact hypothesis later

/-- The identifiers that operations gave out do not meet: those of the module differ from each other, from the names that
the module binds itself and from all that were declared, and they tell values of the module apart. -/
structure KeptApart (answers : List Answer) (scope : Scope) : Prop where
  names : (scope.hoisted.map Declaration.name).Nodup
  unreserved : ∀ declaration ∈ scope.hoisted, declaration.name ∉ reservedNames
  declared : ∀ identifier, .declared identifier ∈ answers →
    identifier ∉ reservedNames ∧ ∀ declaration ∈ scope.hoisted, declaration.name ≠ identifier
  hoisted : ∀ init identifier, .hoisted init identifier ∈ answers → { name := identifier, init } ∈ scope.hoisted
  same : ∀ init identifier other handler, .hoisted init identifier ∈ answers → .hoisted other handler ∈ answers →
    (identifier = handler ↔ init = other)

/-- Whatever operations a scope goes through, the identifiers that it gives out do not meet. -/
theorem Hygienic.keptApart (hygienic : scope.Hygienic) (steps : List Step) :
    KeptApart (scope.run steps).1 (scope.run steps).2 := by
  have last := hygienic.run steps
  have hoisted : ∀ init identifier, .hoisted init identifier ∈ (scope.run steps).1 →
      { name := identifier, init } ∈ (scope.run steps).2.hoisted := fun _ _ member => knows_of_mem_run member
  refine ⟨last.names, last.unreserved, fun identifier member => ?_, hoisted, ?_⟩
  · have emitted : identifier ∈ (scope.run steps).2.emitted := knows_of_mem_run member
    exact ⟨last.emitted identifier emitted, fun declaration among same => last.apart declaration among (same ▸ emitted)⟩
  · intro init identifier other handler member among
    have first := hoisted init identifier member
    have second := hoisted other handler among
    constructor
    · intro same
      exact congrArg Declaration.init (List.inj_on_of_nodup_map last.names first second same)
    · intro same
      exact congrArg Declaration.name (List.inj_on_of_nodup_map last.inits first second same)

/-! ## Names of handlers -/

/-- If hints have a property that numbers do not take away, then so have the names of all declarations. -/
theorem forall_hoisted_run (good : String → Prop) (numbers : ∀ name n, good name → good (numbered name n))
    (hints : ∀ hint init, .hoist hint init ∈ steps → good hint)
    (known : ∀ declaration ∈ scope.hoisted, good declaration.name) :
    ∀ declaration ∈ (scope.run steps).2.hoisted, good declaration.name := by
  induction steps generalizing scope with
  | nil => exact known
  | cons step steps hypothesis =>
      refine hypothesis (fun hint init member => hints hint init (List.mem_cons_of_mem _ member)) ?_
      cases step with
      | push => exact known
      | pop => exact (scope.pop_names).1 ▸ known
      | declare name => exact known
      | hoist hint init =>
          unfold Step.run
          dsimp only
          rcases scope.hoist_cases hint init with ⟨declaration, -, -, same⟩ | ⟨-, name, chosen, same⟩
          · rw [same]
            exact known
          · rw [same]
            intro declaration member
            rcases List.mem_append.1 member with earlier | last
            · exact known declaration earlier
            · rw [List.mem_singleton.1 last, chosen]
              rcases unique_eq (scope.takenNames ++ scope.emitted) hint with plain | ⟨n, counted⟩
              · rw [plain]
                exact hints hint init List.mem_cons_self
              · rw [counted]
                exact numbers hint n (hints hint init List.mem_cons_self)

end Scope

namespace Name

/-- The name is an identifier, and an underscore keeps it from being a word of the language. -/
def IsHandler (name : String) : Prop :=
  isIdentifier name = true ∧ '_' ∈ name.toList

variable {name : String}

theorem isIdentifier_append {ending : String} (identifier : isIdentifier name = true)
    (parts : ending.toList.all isIdentifierPart = true) : isIdentifier (name ++ ending) = true := by
  unfold isIdentifier at identifier ⊢
  rw [String.toList_append]
  split at identifier
  · cases identifier
  · next first rest same =>
      rw [Bool.and_eq_true] at identifier
      rw [same, List.cons_append]
      simp only [Bool.and_eq_true, List.all_append]
      exact ⟨identifier.1, identifier.2, parts⟩

theorem isIdentifier_numbered (identifier : isIdentifier name = true) (n : Nat) :
    isIdentifier (Scope.numbered name n) = true := by
  refine isIdentifier_append (isIdentifier_append identifier (by decide)) ?_
  rw [Nat.toString_eq_repr, Nat.toList_repr, List.all_eq_true]
  intro digit member
  have isDigit := Nat.isDigit_of_mem_toDigits (by decide) (by decide) member
  simp [isIdentifierPart, Char.isAlphanum, isDigit]

theorem IsHandler.numbered (handler : IsHandler name) (n : Nat) : IsHandler (Scope.numbered name n) :=
  ⟨isIdentifier_numbered handler.1 n, by simp [Scope.numbered, handler.2]⟩

theorem isIdentifier_identifierHint (name : String) : isIdentifier (identifierHint name) = true := by
  have parts : (name.toList.map fun c => if c.isAlphanum then c else '_').all isIdentifierPart = true := by
    rw [List.all_map, List.all_eq_true]
    intro c _
    dsimp only [Function.comp]
    split
    · next alphanumeric => simp [isIdentifierPart, alphanumeric]
    · rfl
  unfold identifierHint
  generalize (name.toList.map fun c => if c.isAlphanum then c else '_') = hint at parts
  cases hint with
  | nil => decide
  | cons first rest =>
      dsimp only
      split
      · rw [isIdentifier, String.toList_ofList]
        simp only [Bool.and_eq_true]
        exact ⟨by decide, parts⟩
      · next noDigit =>
          rw [isIdentifier, String.toList_ofList]
          rw [List.all_cons, Bool.and_eq_true] at parts
          simp only [Bool.and_eq_true]
          refine ⟨?_, parts.2⟩
          have part := parts.1
          rw [isIdentifierPart, Char.isAlphanum] at part
          rw [isIdentifierStart]
          simpa [noDigit] using part

theorem isHandler_hint (name : String) : IsHandler (identifierHint name ++ "_tag") :=
  ⟨isIdentifier_append (isIdentifier_identifierHint name) (by decide), by simp⟩

/-- No word that is reserved has an underscore. -/
theorem IsHandler.isFreeWord (handler : IsHandler name) : Script.isFreeWord name = true := by
  unfold Script.isFreeWord
  rw [Bool.not_eq_true', ← Bool.not_eq_true, List.contains_iff_mem]
  intro reserved
  have plain : ∀ word ∈ Script.reservedWords, '_' ∉ word.toList := by decide
  exact plain name reserved handler.2

end Name

/-! ## Identifiers in fragments -/

namespace Fragment

/-- The identifiers of the fragment were given out: those of a loop were declared, and that of a handler stands for a
value of the module. -/
def IsNamed (answers : List Scope.Answer) : Fragment → Prop
  | loop item index list _ _ => ∀ identifier ∈ [item, index, list], .declared identifier ∈ answers
  | tagCall _ handler _ _ => ∃ init, .hoisted init handler ∈ answers
  | _ => True

/-- The identifiers of the fragments and of all that is inside of them were given out. -/
def AllNamed (answers : List Scope.Answer) (fragments : List Fragment) : Prop :=
  ∀ loops fragment, Inside fragments loops fragment → fragment.IsNamed answers

variable {answers more : List Scope.Answer} {fragments others : List Fragment}

theorem IsNamed.mono {fragment : Fragment} (named : fragment.IsNamed answers) (subset : answers ⊆ more) :
    fragment.IsNamed more := by
  cases fragment with
  | loop item index list source body => exact fun identifier member => subset (named identifier member)
  | tagCall name handler attributes body => exact named.imp fun _ member => subset member
  | _ => exact trivial

theorem AllNamed.mono (named : AllNamed answers fragments) (subset : answers ⊆ more) : AllNamed more fragments :=
  fun loops fragment inside => (named loops fragment inside).mono subset

theorem allNamed_nil : AllNamed answers [] :=
  throughout_nil (IsNamed answers)

theorem AllNamed.append (first : AllNamed answers fragments) (rest : AllNamed answers others) :
    AllNamed answers (fragments ++ others) :=
  Throughout.append first rest

/-- A fragment is named if it is itself, and so is all that is inside of it. -/
theorem allNamed_singleton {fragment : Fragment} (named : fragment.IsNamed answers)
    (inner : ∀ body, fragment.HasBody body → AllNamed answers body) : AllNamed answers [fragment] :=
  throughout_singleton named inner

/-- A loop is named by what was declared for it, and by what was given out in its body. -/
theorem allNamed_loop {names : LoopNames} {source : String} {body : List Fragment}
    (declared : ∀ identifier ∈ [names.item, names.index, names.list], .declared identifier ∈ answers)
    (below : AllNamed more body) :
    AllNamed (answers ++ more) [.loop names.item names.index names.list source body] :=
  allNamed_singleton (fun identifier member => List.mem_append_left _ (declared identifier member))
    fun | _, .loop => below.mono (List.subset_append_right _ _)

end Fragment

/-! ## Lowering in operations -/

namespace Lowering

/-- The operations ask for declarations of the module as handlers only. -/
def HoistsHandlers (steps : List Scope.Step) : Prop :=
  ∀ hint init, .hoist hint init ∈ steps → Name.IsHandler hint

/-- Operations lead from one scope to the other one, and give out what is named. -/
def Operates (before after : Scope) (named : List Scope.Answer → Prop) : Prop :=
  ∃ steps, HoistsHandlers steps ∧ (before.run steps).2 = after ∧ named (before.run steps).1

variable {before middle after : Scope} {named more whole : List Scope.Answer → Prop}

theorem operates_nil (holds : named []) : Operates before before named :=
  ⟨[], fun _ _ none => absurd none List.not_mem_nil, rfl, holds⟩

theorem Operates.weaken (operates : Operates before after named) (ending : ∀ answers, named answers → more answers) :
    Operates before after more := by
  obtain ⟨steps, handlers, leads, holds⟩ := operates
  exact ⟨steps, handlers, leads, ending _ holds⟩

theorem Operates.trans (first : Operates before middle named) (second : Operates middle after more)
    (both : ∀ answers others, named answers → more others → whole (answers ++ others)) :
    Operates before after whole := by
  obtain ⟨steps, handlers, rfl, holds⟩ := first
  obtain ⟨others, further, rfl, meets⟩ := second
  refine ⟨steps ++ others, ?_, ?_, ?_⟩
  · intro hint init member
    exact (List.mem_append.1 member).elim (handlers hint init) (further hint init)
  · rw [Scope.run_append]
  · rw [Scope.run_append]
    exact both _ _ holds meets

theorem operates_hoist {name init handler : String}
    (hoists : before.hoist (Name.identifierHint name ++ "_tag") init = (handler, after)) :
    Operates before after (.hoisted init handler ∈ ·) := by
  refine ⟨[.hoist (Name.identifierHint name ++ "_tag") init], ?_, ?_, ?_⟩
  · intro hint other member
    obtain ⟨rfl, -⟩ := Scope.Step.hoist.inj (List.mem_singleton.1 member)
    exact Name.isHandler_hint name
  · exact congrArg Prod.snd hoists
  · exact List.mem_singleton.2 (congrArg (Scope.Answer.hoisted init) (congrArg Prod.fst hoists).symm)

theorem operates_openLoop {item : String} {index : Option String} {names : LoopNames}
    (opens : before.openLoop item index = (names, after)) :
    Operates before after fun answers =>
      ∀ identifier ∈ [names.item, names.index, names.list], .declared identifier ∈ answers := by
  obtain ⟨first, second, ofItem, ofIndex, ofList⟩ := Scope.openLoop_eq_iff.1 opens
  refine ⟨[.push, .declare item, .declare (index.getD (item ++ "_index")), .declare (item ++ "_list")], ?_, ?_, ?_⟩
  · intro hint init member
    simp at member
  · simp [Scope.run, Scope.Step.run, ofItem, ofIndex, ofList]
  · simp [Scope.run, Scope.Step.run, ofItem, ofIndex, ofList]

theorem operates_pop : Operates before before.pop fun _ => True :=
  ⟨[.pop], fun _ _ member => by simp at member, rfl, trivial⟩

variable {tree : Tree} {choices : Preservation}

open Fragment (AllNamed allNamed_nil allNamed_singleton)

theorem allNamed_textFragment (region : Region) (value : String) (answers : List Scope.Answer) :
    AllNamed answers (textFragment region value) :=
  throughout_textFragment (fun _ _ => trivial) region value

mutual

/-- Lowering a node works on the scope by its operations alone, and names loops and handlers as they say. -/
theorem Lowers.operates {region : Region} {id : NodeId} {before after : Scope} {fragments : List Fragment} :
    Lowers tree choices region id before fragments after → Operates before after (AllNamed · fragments)
  | .document _ _ inside => inside.operates
  | .element _ inside =>
      inside.operates.weaken fun _ below => allNamed_singleton trivial fun | _, .element => below
  | .customTag _ hoists inside =>
      (operates_hoist hoists).trans inside.operates fun _ _ handler below =>
        allNamed_singleton ⟨_, List.mem_append_left _ handler⟩
          fun | _, .tagCall => below.mono (List.subset_append_right _ _)
  | .text _ => operates_nil (allNamed_textFragment _ _ _)
  | .placeholder _ => operates_nil (allNamed_singleton trivial fun _ body => nomatch body)
  | .conditional _ inside =>
      inside.operates.weaken fun _ below => allNamed_singleton trivial fun | _, .branch among => below _ among
  | .iteration _ opens inside =>
      have looped : Operates _ _ fun answers => AllNamed answers _ :=
        (operates_openLoop opens).trans inside.operates fun _ _ declared below => Fragment.allNamed_loop declared below
      looped.trans operates_pop fun _ _ named _ => named.mono (List.subset_append_left _ _)
  | .comment _ => operates_nil (allNamed_singleton trivial fun _ body => nomatch body)
  | .doctype _ => operates_nil (allNamed_singleton trivial fun _ body => nomatch body)

theorem LowersAll.operates {region : Region} {ids : List NodeId} {before after : Scope} {fragments : List Fragment} :
    LowersAll tree choices region ids before fragments after → Operates before after (AllNamed · fragments)
  | .nil => operates_nil allNamed_nil
  | .cons first rest =>
      first.operates.trans rest.operates fun _ _ named others =>
        (named.mono (List.subset_append_left _ _)).append (others.mono (List.subset_append_right _ _))

theorem LowersBranches.operates {region : Region} {closed : Bool} {ids : List NodeId} {before after : Scope}
    {branches : List (Option String × List Fragment)} :
    LowersBranches tree choices region closed ids before branches after →
      Operates before after fun answers => ∀ branch ∈ branches, AllNamed answers branch.2
  | .nil => operates_nil fun _ none => absurd none List.not_mem_nil
  | .cons _ body rest =>
      body.operates.trans rest.operates fun _ _ named others => List.forall_mem_cons.2
        ⟨named.mono (List.subset_append_left _ _), fun branch member =>
          (others branch member).mono (List.subset_append_right _ _)⟩

end

end Lowering

/-! ## Generated modules -/

theorem LoopNames.mem_all (names : LoopNames) {identifier : String} :
    identifier ∈ names.all ↔ identifier ∈ [names.item, names.index, names.list] := by
  simp [all, or_comm, or_left_comm]

/-- In the module nothing is in the way of anything else: its declarations have identifiers of their own for names, every
tag is rendered by one of them, and no loop has a variable that is called like one of them or like what the module binds
itself. -/
structure CodeModule.IsHygienic (result : CodeModule) : Prop where
  names : (result.hoisted.map Declaration.name).Nodup
  valid : ∀ declaration ∈ result.hoisted, Name.isIdentifier declaration.name = true ∧
    Script.isFreeWord declaration.name = true ∧ declaration.name ∉ reservedNames
  handlers : ∀ loops name handler attributes body,
    Fragment.Inside result.fragments loops (.tagCall name handler attributes body) →
      ∃ declaration ∈ result.hoisted, declaration.name = handler
  loops : ∀ (around : List LoopNames) (names : LoopNames) (source : String) (body : List Fragment),
    Fragment.Inside result.fragments around (.loop names.item names.index names.list source body) →
      ∀ identifier ∈ names.all, identifier ∉ reservedNames ∧
        ∀ declaration ∈ result.hoisted, declaration.name ≠ identifier

theorem CodeModule.lower_of_generate {tree : Tree} {choices : Preservation} {root : NodeId} {result : CodeModule}
    (generated : CodeModule.generate tree choices root = .ok result) :
    tree.lower choices root = .ok (result.fragments, result.hoisted) := by
  unfold CodeModule.generate at generated
  cases ran : tree.lower choices root with
  | error fault =>
      rw [ran] at generated
      cases generated
  | ok lowered =>
      rw [ran] at generated
      obtain rfl := Except.ok.inj generated
      rfl

/-- Whatever operations a scope goes through from the start, in whatever order, the identifiers that it gives out do not
meet. So in every module that is generated no loop gets in the way of a handler or a helper, and handlers are called by
identifiers. -/
theorem Scope.run_keptApart :
    (∀ steps, Scope.KeptApart (Scope.run {} steps).1 (Scope.run {} steps).2) ∧
      ∀ {tree : Tree} {choices : Preservation} {root : NodeId} {result : CodeModule}, tree.WellFormed →
        CodeModule.generate tree choices root = .ok result → result.IsHygienic := by
  constructor
  · intro steps
    exact Scope.hygienic_empty.keptApart steps
  · intro tree choices root result wellFormed generated
    obtain ⟨after, lowers, hoisted⟩ := Lowering.lowers_of_lower wellFormed (CodeModule.lower_of_generate generated)
    obtain ⟨work, handlers, leads, named⟩ := lowers.operates
    have apart := Scope.hygienic_empty.keptApart work
    have good : ∀ declaration ∈ (Scope.run {} work).2.hoisted, Name.IsHandler declaration.name :=
      Scope.forall_hoisted_run Name.IsHandler (fun _ n handler => handler.numbered n) handlers
        fun _ none => absurd none List.not_mem_nil
    rw [leads] at apart good
    refine ⟨?_, ?_, ?_, ?_⟩
    · rw [← hoisted]
      exact apart.names
    · intro declaration member
      rw [← hoisted] at member
      exact ⟨(good declaration member).1, (good declaration member).isFreeWord, apart.unreserved declaration member⟩
    · intro loops name handler attributes body inside
      obtain ⟨init, given⟩ := named _ _ inside
      exact ⟨_, hoisted ▸ apart.hoisted init handler given, rfl⟩
    · intro loops names source body inside identifier member
      rw [← hoisted]
      exact apart.declared identifier (named _ _ inside identifier (names.mem_all.1 member))

/-- A loop, then a custom tag with a handler that would be called like the variable of the loop, although its frame is
closed by then. -/
theorem Scope.run_keptApart_card :
    let steps : List Scope.Step := [.push, .declare "card_tag", .pop, .hoist "card_tag" "card"]
    let tree : Tree := { file := "page", nodes := [
      { kind := .document, children := [⟨1⟩, ⟨2⟩] },
      { kind := .iteration "card_tag" none "data.cards", parent := some ⟨0⟩ },
      { kind := .customTag "card" "card.js", parent := some ⟨0⟩ }] }
    (Scope.run {} steps).1 = [.nothing, .declared "card_tag", .nothing, .hoisted "card" "card_tag_1"] ∧
      Scope.KeptApart (Scope.run {} steps).1 (Scope.run {} steps).2 ∧ tree.WellFormed ∧
        ∃ result, CodeModule.generate tree .standard ⟨0⟩ = .ok result ∧
          result.hoisted.map Declaration.name = ["card_tag_1"] ∧ result.IsHygienic := by
  intro steps tree
  have wellFormed : tree.WellFormed := Tree.Ordered.wellFormed (by decide)
  refine ⟨by rfl, Scope.run_keptApart.1 steps, wellFormed, ?_⟩
  have names : ((CodeModule.generate tree .standard ⟨0⟩).map fun result => result.hoisted.map Declaration.name) =
      .ok ["card_tag_1"] := by rfl
  cases generated : CodeModule.generate tree .standard ⟨0⟩ with
  | error fault =>
      rw [generated] at names
      cases names
  | ok result =>
      rw [generated] at names
      exact ⟨result, rfl, Except.ok.inj names, Scope.run_keptApart.2 wellFormed generated⟩

end HtmlTemplate
