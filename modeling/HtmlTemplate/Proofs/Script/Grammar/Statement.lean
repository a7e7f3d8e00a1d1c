import HtmlTemplate.Proofs.Script.Grammar.Operator
import HtmlTemplate.Script.Grammar.Statement

/-!
# Agreement on statements, and on the whole grammar

An expression is read from the first token of a text on. The level of the grammar grows with the text, so that
it is enough wherever a cursor stands in it.
-/

namespace HtmlTemplate
namespace Script

variable {A : Account} {station : A.Station} {level : Nat} {rules rules' : Rules} {c : Cursor}

@[simp] theorem lacksValue_move (distance : Nat) (word : String) (declarator : Syntax) :
    lacksValue word (move distance declarator) = lacksValue word declarator := by
  rw [lacksValue, lacksValue, Syntax.form_move]

theorem any_lacksValue_move (distance : Nat) (word : String) (declarators : List Syntax) :
    (move distance declarators).any (lacksValue word) = declarators.any (lacksValue word) := by
  refine List.any_map.trans (congrArg (List.any declarators) (funext fun declarator => ?_))
  exact lacksValue_move distance word declarator

/-! ## What starts a declaration -/

/-- A word that has to be there is there. -/
theorem token_of_expectWord {α : Type} {word : String} {f : Unit → Read α} {found : α × Cursor}
    (read : (Read.expectWord word >>= f) c = some found) : c.token = .name word false := by
  rw [Read.expectWord_bind, Read.eatWord_bind] at read
  cases there : c.token == .name word false with
  | true => exact beq_iff_eq.1 there
  | false =>
      have fails : (Read.atWord word >>= fun there =>
          if there then Read.advance >>= fun _ => if true then f () else failure
          else if false then f () else failure) c = none := by
        show (if c.token == .name word false then _ else _ : Read α) c = none
        rw [there]
        rfl
      cases fails.symm.trans read

/-- The word `using` is there when a declaration with it starts. -/
theorem token_of_usingDeclares {d : Cursor} (declares : usingDeclares c = some (true, d)) :
    c.token = .name "using" false := by
  have glance := congrArg Prod.fst (Option.some.inj declares)
  obtain ⟨found, read, -⟩ := Option.map_eq_some_iff.1 (beq_iff_eq.1 glance)
  exact token_of_expectWord read

theorem agrees_usingDeclares {α : Type} [Movable α] {next : α → A.Place} {f f' : Bool → Read α}
    (goesOn : ∀ declares, usingDeclares c = some (declares, c) → Agrees (.code station) next (f declares) (f' declares) c) :
    Agrees (.code station) next (usingDeclares >>= f) (usingDeclares >>= f') c := by
  refine .nest (.lookahead (.expectWord fun d _ => .token fun token _ => .atWord fun there _ => .onNewLine fun broken =>
    .pure rfl rfl) (fun _ => rfl) fun answer seen => .given (goesOn _ ?_))
  rw [← seen]
  rfl

/-- A declaration of variables starts with a plain token, and with two if its values are waited for. -/
def Declares (word : String) (c : Cursor) : Prop :=
  c.token.isPlain = true ∧ (word = "await" → ∀ d, c.next? = some d → d.token.isPlain = true)

theorem agrees_variableWord {α : Type} [Movable α] {next : α → A.Place} (setting : Setting)
    {f f' : Option String → Read α} (goesOn : ∀ found, (∀ word, found = some word → Declares word c) →
      Agrees (.code station) next (f found) (f' found) c) :
    Agrees (.code station) next (variableWord? setting >>= f) (variableWord? setting >>= f') c := by
  have nothing : Agrees (.code station) next (f none) (f' none) c := goesOn none fun _ impossible => nomatch impossible
  have plainWord {word : String} (plain : c.token.isPlain = true) (other : word ≠ "await") :
      Agrees (.code station) next (f (some word)) (f' (some word)) c := by
    refine goesOn _ fun found same => ?_
    cases same
    exact ⟨plain, fun same => absurd same other⟩
  unfold variableWord?
  refine .nest (.atWord fun there known => .iteBind (fun isThere => ?_) fun _ => ?_)
  · exact .given (plainWord (known isThere ▸ rfl) (by decide))
  refine .nest (.atWord fun there known => .iteBind (fun isThere => ?_) fun _ => ?_)
  · exact .given (plainWord (known isThere ▸ rfl) (by decide))
  refine .nest (.atWord fun there known => .iteBind (fun isThere => ?_) fun _ => ?_)
  · have plain : c.token.isPlain = true := known isThere ▸ rfl
    refine .nest (.lookahead (.advance plain fun d _ => .token fun token _ => .pure rfl rfl) (fun _ => rfl)
      fun answer _ => .given ?_)
    split
    · exact plainWord plain (by decide)
    · exact nothing
  refine .nest (agrees_usingDeclares fun declares glance => .iteBind (fun isThere => ?_) fun _ => ?_)
  · exact .given (plainWord (token_of_usingDeclares (isThere ▸ glance) ▸ rfl) (by decide))
  refine .nest (.atWord fun there known => .iteBind (fun isThere => ?_) fun _ => .given nothing)
  have plain : c.token.isPlain = true := known (Bool.and_eq_true_iff.1 isThere).2 ▸ rfl
  refine .nest (.lookahead (.advance plain fun d _ => .onNewLine fun broken => agrees_usingDeclares fun declares _ =>
    .pure rfl rfl) (fun _ => rfl) fun answer seen => .given ?_)
  split
  · next declares =>
      refine goesOn _ fun found same => ?_
      cases same
      refine ⟨plain, fun _ d following => ?_⟩
      obtain ⟨second, glance⟩ : ∃ second, usingDeclares d = some (second, d) := ⟨_, rfl⟩
      have both : some (!d.broken && second) = answer := by
        rw [← seen]
        show _ = ((c.next?.map fun next => ((), next)).bind fun found =>
          (usingDeclares found.2).bind fun answer => some (!found.2.broken && answer.1, answer.2)).map Prod.fst
        rw [following, Option.map_some, Option.bind_some, glance]
        rfl
      rw [beq_iff_eq.1 declares] at both
      have isUsing := (Bool.and_eq_true_iff.1 (Option.some.inj both)).2
      exact token_of_usingDeclares (isUsing ▸ glance) ▸ rfl
  · exact nothing

theorem agrees_startsListed {α : Type} [Movable α] {next : α → A.Place} (setting : Setting) {f f' : Bool → Read α}
    (goesOn : ∀ listed, Agrees (.code station) next (f listed) (f' listed) c) :
    Agrees (.code station) next (startsListed setting >>= f) (startsListed setting >>= f') c := by
  unfold startsListed
  refine .nest (agrees_variableWord setting fun found _ => ?_)
  cases found with
  | some word => exact .given (goesOn _)
  | none =>
      refine .nest (.lookahead (.flag .eatWordOnly fun isAsync d _ => .onNewLine fun broken => .expectWord fun e _ =>
        .atPunct fun there _ => .pure rfl rfl) (fun _ => rfl) fun answer _ => ?_)
      exact .nest (.atWord fun there _ => .given (goesOn _))

theorem keeps_jumpRule {start start' : Nat} (starts : start' = start + A.distance) (plain : c.token.isPlain = true) :
    Keeps station (jumpRule start) (jumpRule start') c := by
  unfold jumpRule
  refine .advance plain fun d _ => .token fun token here => .onNewLine fun broken => ?_
  extract_lets finish finish'
  have finishes (e : Cursor) : Keeps station (finish ()) (finish' ()) e :=
    keeps_endStatement.bind fun _ f _ => .finishNode starts rfl fun _ => rfl
  refine .ite (fun labelled => ?_) fun _ => finishes d
  have label : d.token.isPlain = true := here ▸ isPlain_of_isBindable (Bool.and_eq_true_iff.1 labelled).1
  exact .advance label fun e _ => finishes e

namespace Twins

variable (twins : Twins A level rules rules')
include twins

theorem headExpression (setting : Setting) (deep : 6 * c.text.length ≤ level) :
    Keeps station (headExpression rules setting) (headExpression rules' setting) c := by
  unfold Script.headExpression
  refine .expectPunct (by decide) fun d shorter => (twins.sequence _ (by omega)).bind fun expression e _ => ?_
  exact .expectPunct (by decide) fun f _ => .pure rfl rfl

theorem variablesRule (setting : Setting) {word : String} (inLoopHead : Bool) (declares : Declares word c)
    (deep : 6 * c.text.length ≤ level) :
    Keeps station (variablesRule rules setting word inLoopHead) (variablesRule rules' setting word inLoopHead) c := by
  unfold Script.variablesRule
  refine .start (.advanceTo declares.1 fun d shorter following => ?_)
  extract_lets list list'
  have lists {e : Cursor} (less : e.text.length ≤ d.text.length) : Keeps station (list ()) (list' ()) e := by
    refine .loop rfl (fun found f further => .start ?_) fun found f _ => .finishNode rfl rfl fun _ => rfl
    refine (twins.binding setting (by omega)).bind fun target g onward => ?_
    extract_lets declared declared'
    have goesOn {declarator : Syntax} {h : Cursor} :
        Keeps station (declared declarator) (declared' (move A.distance declarator)) h :=
      .eatPunct (by decide) (fun i _ => .pure rfl rfl) (.pure (by simp) rfl)
    refine .eatPunct (by decide) (fun h after => ?_) (.flawIf (by simp) fun h _ _ => .given goesOn)
    exact (twins.assignment setting (by omega)).bind fun value i _ => .node rfl rfl fun tree => goesOn
  refine .ite (fun waits => ?_) fun _ => lists (Nat.le_refl _)
  exact .advance (declares.2 (beq_iff_eq.1 waits) d following) fun e less => lists (by omega)

theorem partRule (setting : Setting) (deep : 6 * c.text.length + 5 ≤ level) :
    Keeps station (partRule rules setting) (partRule rules' setting) c := by
  unfold Script.partRule
  refine .start (agrees_startsListed setting fun listed => ?_)
  refine .lookahead (.expectWord fun d _ => .onNewLine fun broken => .atPunct fun there _ => .pure rfl rfl)
    (fun _ => rfl) fun answer seen => .ite (fun isName => ?_) fun _ => ?_
  · have word : c.token.isPlain = true := by
      rw [beq_iff_eq.1 (Bool.and_eq_true_iff.1 isName).2, Option.map_eq_some_iff] at seen
      obtain ⟨found, read, -⟩ := seen
      exact token_of_expectWord read ▸ rfl
    exact .advance word fun d _ => .node rfl rfl fun tree => .finishNode rfl rfl fun _ => rfl
  · exact .flawIf rfl fun d same _ => twins.statement setting (by omega)

theorem loopHead (setting : Setting) (waits : Bool) (deep : 6 * c.text.length + 4 ≤ level) :
    Keeps station (loopHead rules setting waits) (loopHead rules' setting waits) c := by
  unfold Script.loopHead
  extract_lets noIn withIn
  refine .lookahead (.expectWord fun d _ => ?_) (fun _ => rfl) fun asyncOf _ => .atPunct fun there _ => ?_
  · rw [← bind_pure (Read.atWord "of")]
    exact .atWord fun there _ => .pure rfl rfl
  extract_lets ranged behind ranged' behind'
  have ranges {initial : Syntax} {d : Cursor} (shorter : d.text.length ≤ c.text.length) :
      Keeps station (ranged initial) (ranged' (move A.distance initial)) d := by
    refine .eatWord (fun e less => .flawIf rfl fun f same _ => ?_) (.eatWord (fun e less => .flawIf rfl fun f same _ => ?_)
      .failure)
    · exact (twins.assignment _ (by omega)).bind fun value g _ => .pure rfl rfl
    · exact (twins.sequence _ (by omega)).bind fun value g _ => .pure rfl rfl
  have goesOn (initial : Option (Option String × Syntax)) {d : Cursor} (shorter : d.text.length ≤ c.text.length) :
      Keeps station (behind initial) (behind' (move A.distance initial)) d := by
    dsimp -zeta only [behind, behind']
    refine .atPunct fun there known => .ite (fun isThere => .flawIf rfl fun e same kept => ?_) fun _ => ?_
    · extract_lets tested counting tested' counting'
      have tests {test : List Syntax} {f : Cursor} (less : f.text.length ≤ e.text.length) :
          Keeps station (tested test) (tested' (move A.distance test)) f := by
        refine .expectPunct (by decide) fun g further => .atPunct fun there _ => ?_
        refine .ite (fun _ => .given (.pure (by cases initial <;> simp) rfl)) fun _ => ?_
        refine (twins.sequence _ (by omega)).bind fun step h _ => .given (.pure ?_ rfl)
        cases initial <;> simp
      have counts {f : Cursor} (equal : f.text.length = e.text.length) (semicolon : f.token = e.token) :
          Keeps station (counting ()) (counting' ()) f := by
        have plain : f.token.isPlain = true := semicolon.trans (kept.trans (known isThere)) ▸ rfl
        refine .advance plain fun g less => .atPunct fun there _ => ?_
        refine .ite (fun _ => .given (tests (by omega))) fun _ => ?_
        exact (twins.sequence _ (by omega)).bind fun test h further => .given (tests (by omega))
      match initial with
      | none => exact counts rfl rfl
      | some (none, expression) => exact counts rfl rfl
      | some (some word, declaration) =>
          refine .flawIf ?_ fun f equal semicolon => counts equal semicolon
          rw [Syntax.parts_move]
          exact any_lacksValue_move _ word declaration.parts
    · match initial with
      | none => exact .failure
      | some (some word, declaration) => exact .given (ranges shorter)
      | some (none, expression) =>
          simp only [move_some, move_pair, move_none, Syntax.target_move]
          cases expression.target? with
          | none => exact .failed
          | some target => exact .given (ranges shorter)
  refine .ite (fun _ => .given (goesOn none (Nat.le_refl _))) fun _ => agrees_variableWord setting fun found declares => ?_
  cases found with
  | some word =>
      refine (twins.variablesRule _ true (declares word rfl) (by omega)).bind fun declaration d shorter => ?_
      exact .given (goesOn (some (some word, declaration)) shorter)
  | none =>
      exact (twins.sequence _ deep).bind fun expression d shorter => .given (goesOn (some (none, expression)) shorter)

theorem forRule (setting : Setting) (deep : 6 * c.text.length ≤ level) :
    Keeps station (forRule rules setting) (forRule rules' setting) c := by
  unfold Script.forRule
  refine .start (.expectWord fun d shorter => .flag .eatWordOnly fun waits e less => .flawIf rfl fun f same _ => ?_)
  refine .expectPunct (by decide) fun g further => ?_
  refine (twins.loopHead setting waits (by omega)).bind fun head h onward => .expectPunct (by decide) fun i after => ?_
  exact (twins.partRule setting (by omega)).bind fun body j _ => .finishNode rfl (by simp) fun _ => rfl

theorem casesRule (setting : Setting) (deep : 6 * c.text.length ≤ level) :
    Keeps station (casesRule rules setting) (casesRule rules' setting) c := by
  unfold Script.casesRule
  refine .start (.expectOpen fun d shorter => .loopTo (.code station) rfl (fun found e less => ?_) fun parts e _ => ?_)
  · refine .eatClose (fun f _ => .pure (by simp) rfl) ?_
    extract_lets tested tested'
    have body {test : List Syntax} {f : Cursor} (further : f.text.length ≤ e.text.length) :
        Agrees (.code (A.inBraces station)) (Sum.elim (fun _ => .code (A.inBraces station)) fun _ => .code station)
          (tested test)
          (tested' (move A.distance test)) f := by
      refine .expectPunct (by decide) fun g onward => .loop rfl (fun body h after => ?_) fun body h _ => ?_
      · refine .atWord fun _ _ => .atWord fun _ _ => .atPunct fun _ _ => .ite (fun _ => .pure rfl rfl) fun _ => ?_
        exact (twins.statement setting (by omega)).bind fun statement i _ => .pure rfl rfl
      · exact .pure (by simp) rfl
    refine .ite (fun impossible => nomatch impossible) fun _ => ?_
    refine .eatWord (fun f further => ?_) (.expectWord fun f further => .given (body (by omega)))
    exact (twins.sequence _ (by omega)).bind fun test g onward => .given (body (by omega))
  · exact .finishNode rfl rfl fun _ => rfl

theorem tryRule (setting : Setting) (deep : 6 * c.text.length ≤ level) :
    Keeps station (tryRule rules setting) (tryRule rules' setting) c := by
  unfold Script.tryRule
  refine .start (.expectWord fun d shorter => (twins.blockRule setting (by omega)).bind fun body e less => .start ?_)
  extract_lets handled bound handled' bound'
  have lasts {handler : List Syntax} {f : Cursor} (further : f.text.length ≤ e.text.length) :
      Keeps station (handled handler) (handled' (move A.distance handler)) f := by
    dsimp -zeta only [handled, handled']
    extract_lets ends ends'
    have finishes {last : List Syntax} {g : Cursor} : Keeps station (ends last) (ends' (move A.distance last)) g :=
      .flawIf (by simp) fun h _ _ => .finishNode rfl (by simp) fun _ => rfl
    refine .eatWord (fun g onward => ?_) (.given finishes)
    exact (twins.blockRule setting (by omega)).bind fun last h _ => .given finishes
  have binds {binding : List Syntax} {f : Cursor} (further : f.text.length ≤ e.text.length) :
      Keeps station (bound binding) (bound' (move A.distance binding)) f := by
    refine (twins.blockRule setting (by omega)).bind fun body g onward => ?_
    exact .node rfl (by simp) fun handler => .given (lasts (by omega))
  refine .eatWord (fun f further => ?_) (.given (lasts (Nat.le_refl _)))
  refine .eatPunct (by decide) (fun g onward => ?_) (.given (binds (by omega)))
  refine (twins.binding setting (by omega)).bind fun binding h after => .expectPunct (by decide) fun i least => ?_
  exact .given (binds (by omega))

theorem expressionStatement (setting : Setting) {start start' : Nat} (starts : start' = start + A.distance)
    (deep : 6 * c.text.length + 4 ≤ level) :
    Keeps station (expressionStatement rules setting start) (expressionStatement rules' setting start') c := by
  unfold Script.expressionStatement
  refine (twins.sequence _ deep).bind fun expression d shorter => .atPunct fun colon known => ?_
  rw [Syntax.isReference_move]
  refine .ite (fun labelled => ?_) fun _ => ?_
  · refine .advance (known (Bool.and_eq_true_iff.1 labelled).2 ▸ rfl) fun e less => ?_
    exact (twins.partRule setting (by omega)).bind fun body f _ => .finishNode starts rfl fun _ => rfl
  · exact keeps_endStatement.bind fun _ e _ => .finishNode starts rfl fun _ => rfl

theorem keywordStatement (setting : Setting) {word : String} {start start' : Nat} (starts : start' = start + A.distance)
    (here : c.token = .name word false) (deep : 6 * c.text.length + 4 ≤ level) :
    Keeps station (keywordStatement rules setting word start) (keywordStatement rules' setting word start') c := by
  have plain : c.token.isPlain = true := here ▸ rfl
  have heritage {station : A.Station} {d : Cursor} (shorter : d.text.length < c.text.length) :
      Keeps station (Script.callRule rules setting) (Script.callRule rules' setting) d :=
    twins.callRule setting (by omega)
  unfold Script.keywordStatement
  extract_lets withIn
  split
  · refine .advance plain fun d shorter => (twins.headExpression setting (by omega)).bind fun test e less => ?_
    refine (twins.partRule setting (by omega)).bind fun first f further => .eatWord (fun g onward => ?_) ?_
    · exact (twins.partRule setting (by omega)).bind fun second h _ => .given (.finishNode starts rfl fun _ => rfl)
    · exact .given (.finishNode starts rfl fun _ => rfl)
  · exact twins.forRule setting (by omega)
  · refine .advance plain fun d shorter => (twins.headExpression setting (by omega)).bind fun test e less => ?_
    exact (twins.partRule setting (by omega)).bind fun body f _ => .finishNode starts rfl fun _ => rfl
  · refine .advance plain fun d shorter => (twins.partRule setting (by omega)).bind fun body e less => ?_
    refine .expectWord fun f further => (twins.headExpression setting (by omega)).bind fun test g _ => ?_
    exact .flag (.eatPunctOnly (by decide)) fun _ h _ => .finishNode starts rfl fun _ => rfl
  · refine .advance plain fun d shorter => (twins.headExpression setting (by omega)).bind fun object e less => ?_
    exact (twins.partRule setting (by omega)).bind fun body f _ => .finishNode starts rfl fun _ => rfl
  · refine .advance plain fun d shorter => (twins.headExpression setting (by omega)).bind fun value e less => ?_
    exact (twins.casesRule setting (by omega)).bind fun parts f _ => .finishNode starts rfl fun _ => rfl
  · exact twins.tryRule setting (by omega)
  · exact keeps_jumpRule starts plain
  · exact keeps_jumpRule starts plain
  · refine .advance plain fun d _ => keeps_endStatement.bind fun _ e _ => .finishNode starts rfl fun _ => rfl
  · refine .flawIf rfl fun d same kept => .advance (kept ▸ plain) fun e shorter => ?_
    refine .atPunct fun _ _ => .atPunct fun _ _ => .token fun _ _ => .onNewLine fun broken => ?_
    refine .ite (fun _ => .given ?_) fun _ => (twins.sequence _ (by omega)).bind fun value f _ => .given ?_
    · exact keeps_endStatement.bind fun _ f _ => .finishNode starts rfl fun _ => rfl
    · exact keeps_endStatement.bind fun _ g _ => .finishNode starts rfl fun _ => rfl
  · refine .advance plain fun d shorter => .onNewLine fun broken => .flawIf rfl fun e same _ => ?_
    refine (twins.sequence _ (by omega)).bind fun value f _ => ?_
    exact keeps_endStatement.bind fun _ g _ => .finishNode starts rfl fun _ => rfl
  · exact twins.functionRule setting false true starts (by omega)
  · exact twins.classRule setting true (by omega) heritage
  · exact twins.expressionStatement setting starts deep

theorem statementRule (setting : Setting) (deep : 6 * c.text.length + 4 ≤ level) :
    Keeps station (statementRule rules setting) (statementRule rules' setting) c := by
  unfold Script.statementRule
  refine .start (.token fun token here => ?_)
  split
  · exact twins.blockRule setting (by omega)
  · exact .advance (here ▸ rfl) fun d _ => .finishNode rfl rfl fun _ => rfl
  · next word =>
      have plain : c.token.isPlain = true := here ▸ rfl
      refine agrees_variableWord setting fun found declares => ?_
      cases found with
      | some word =>
          refine (twins.variablesRule _ false (declares word rfl) (by omega)).bind fun declaration d _ => ?_
          exact keeps_endStatement.bind fun _ e _ => .pure rfl rfl
      | none =>
          refine .lookahead (.advance plain fun d _ => .atWord fun there _ => .onNewLine fun broken => .pure rfl rfl)
            (fun _ => rfl) fun answer _ => .ite (fun _ => ?_) fun _ => ?_
          · exact .advance plain fun d shorter => twins.functionRule setting true true rfl (by omega)
          · exact twins.keywordStatement setting rfl here deep
  · exact twins.expressionStatement setting rfl deep

end Twins

/-- Levels that are enough for a text read it alike. -/
theorem grammar_twins (A : Account) (level more : Nat) : Twins A level (grammar level) (grammar (level + more)) := by
  induction level with
  | zero =>
      exact
        { member := fun _ deep => absurd deep (by omega)
          binding := fun _ deep => absurd deep (by omega)
          unary := fun _ deep => absurd deep (by omega)
          binary := fun _ _ deep => absurd deep (by omega)
          assignment := fun _ deep => absurd deep (by omega)
          statement := fun _ deep => absurd deep (by omega) }
  | succ level twins =>
      rw [Nat.succ_add]
      exact
        { member := fun setting deep => twins.memberRule setting (by omega)
          binding := fun setting deep => twins.bindingRule setting (by omega)
          unary := fun setting deep => twins.unaryRule setting (by omega)
          binary := fun setting least deep => twins.binaryRule setting least (by omega)
          assignment := fun setting deep => twins.assignmentRule setting (by omega)
          statement := fun setting deep => twins.statementRule setting (by omega) }

/-! ## Reading a text from its start -/

variable {text rest : List Char} {tree : Syntax}

/-- The text is one expression, from its first to its last character. -/
def IsExpression (text : List Char) : Prop :=
  ∃ tree, parse? text = some ⟨tree, []⟩

/-- The cursor before the first token of a text. -/
def Cursor.before (text : List Char) : Cursor :=
  { size := text.length, text, token := .finish, rest := text, broken := false, lastStop := 0, flawed := false }

theorem Cursor.before_sound (text : List Char) : (before text).Sound :=
  ⟨Nat.le_refl _, Nat.le_refl _, fun more => absurd rfl more⟩

/-- What is read when a text starts with an expression. -/
theorem parse_eq_some : parse? text = some ⟨tree, rest⟩ ↔ ∃ c d, (Cursor.before text).next? = some c ∧
    sequenceOf (grammar (levelFor text.length)) moduleSetting c = some (tree, d) ∧ d.flawed = false ∧
    tree.hasForm isUnfinished = false ∧ d.text = rest := by
  constructor
  · intro read
    unfold parse? at read
    simp only [Option.bind_eq_bind, Option.bind_eq_some_iff] at read
    obtain ⟨c, begins, ⟨found, d⟩, reads, ends⟩ := read
    split at ends
    · cases ends
    · next good =>
        cases ends
        obtain ⟨clean, whole⟩ := Bool.or_eq_false_iff.1 (Bool.not_eq_true _ ▸ good)
        exact ⟨c, d, begins, reads, clean, whole, rfl⟩
  · rintro ⟨c, d, begins, reads, clean, whole, rfl⟩
    unfold parse?
    rw [show Cursor.ofText? text = some c from begins]
    simp only [Option.bind_eq_bind, Option.bind_some, reads, clean, whole, Bool.or_self, Bool.false_eq_true, if_false]

theorem levelFor_enough (begins : (Cursor.before text).next? = some c) :
    6 * c.text.length + 12 ≤ levelFor text.length := by
  have shorter : c.text.length ≤ text.length := Cursor.next_text begins
  unfold levelFor
  omega

end Script
end HtmlTemplate
