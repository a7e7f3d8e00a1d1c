import HtmlTemplate.Proofs.Script.Grammar.Function

/-!
# Agreement on primary expressions, accesses and calls
-/

namespace HtmlTemplate
namespace Script

variable {A : Account} {station : A.Station} {level : Nat} {rules rules' : Rules} {c : Cursor}

/-- A glance at the next token sees what the cursor comes to. -/
theorem token_of_glance {d : Cursor} {answer : Option Token} (following : c.next? = some d)
    (seen : ((do Read.advance; Read.token : Read Token) c).map Prod.fst = answer) : some d.token = answer := by
  rw [← seen]
  show _ = ((c.next?.map fun next => ((), next)).bind _).map Prod.fst
  rw [following]
  rfl

/-- A regular expression is read anew from its slash on. -/
theorem keeps_patternRule (slash : c.token = .punct "/" ∨ c.token = .punct "/=") :
    Keeps station patternRule patternRule c := by
  unfold patternRule
  refine .cursor ?_
  rw [Cursor.text_move]
  cases read : pattern? (c.text.drop 1) with
  | none => exact .failure
  | some rest => exact .start (.advancePattern slash read fun d _ => .finishNode rfl rfl fun _ => rfl)

/-- The brace that ends a substitution is read anew as the start of the next piece. -/
theorem agrees_continueTemplate :
    Agrees (.code (A.inSubstitution station)) (fun _ => .piece station) continueTemplate continueTemplate c := by
  unfold continueTemplate
  refine .atPunct fun there known => .ite (fun isThere => .cursor ?_) fun _ => .failed
  rw [Cursor.text_move]
  cases read : templateTail true (c.text.drop 1) with
  | none => exact .failure
  | some piece =>
      intro stands
      refine ⟨rfl, fun value d same => ?_⟩
      cases same
      obtain ⟨part, source, spelled⟩ := behind_templateTail read
      refine ⟨⟨(A.sound stands).anew source spelled.full, _, _, rfl, fun d following => ?_⟩, Nat.le_refl _⟩
      exact A.continues stands (known isThere) read following

theorem keeps_memberName : Keeps station memberName memberName c := by
  unfold memberName
  refine .token fun token here => ?_
  cases token with
  | name text escaped => exact .advanceOnly (here ▸ rfl)
  | privateName => exact .advanceOnly (here ▸ rfl)
  | _ => exact .failure

theorem keeps_superRule : Keeps station superRule superRule c := by
  unfold superRule
  refine .start (.expectWord fun d _ => ?_)
  refine .atPunct fun _ _ => .atPunct fun _ _ => .atPunct fun _ _ => .flawIf rfl fun e _ _ => ?_
  exact .finishNode rfl rfl fun _ => rfl

namespace Twins

variable (twins : Twins A level rules rules')
include twins

theorem spreadOr (setting : Setting) (deep : 6 * c.text.length + 4 ≤ level) :
    Keeps station (spreadOr rules setting) (spreadOr rules' setting) c := by
  unfold Script.spreadOr
  refine .start (.eatPunct (by decide) (fun d shorter => ?_) (twins.assignment _ deep))
  exact (twins.assignment _ (by omega)).bind fun argument e _ => .finishNode rfl rfl fun _ => rfl

theorem arrayRule (setting : Setting) (deep : 6 * c.text.length ≤ level) :
    Keeps station (arrayRule rules setting) (arrayRule rules' setting) c := by
  unfold Script.arrayRule
  refine .start (.expectPunct (by decide) fun d shorter => ?_)
  refine (Agrees.elementsUntil fun e less => ?_).bind fun found e _ => ?_
  · refine .atPunct fun there _ => .ite (fun _ => .start (.pure rfl rfl)) fun _ => ?_
    exact twins.spreadOr setting (by omega)
  · exact .expectPunct (by decide) fun f _ => .finishNode rfl rfl fun _ => rfl

theorem propertyRule (setting : Setting) (deep : 6 * c.text.length + 4 ≤ level) :
    Keeps station (propertyRule rules setting) (propertyRule rules' setting) c := by
  unfold Script.propertyRule
  refine .atPunct fun there _ => .ite (fun _ => twins.spreadOr setting deep) fun _ => .start ?_
  refine .flag (keeps_qualifier "async" true) fun isAsync d shorter => ?_
  refine agrees_accessorWords fun isGetter isSetter e less => ?_
  refine .flag (.eatPunctOnly (by decide)) fun isGenerator f further => .token fun token _ => ?_
  refine (twins.propertyKey setting false (by omega)).bind fun key g onward => ?_
  refine .atPunct fun parenthesis _ => .ite (fun _ => .start ?_) fun _ => .atPunct fun colon _ => ?_
  · refine (twins.functionTail isAsync isGenerator rfl rfl (by omega)).bind fun method h _ => ?_
    exact .flawIf (by simp) fun i _ _ => .finishNode rfl (by simp) fun _ => rfl
  · rw [name_move]
    split
    · refine .atPunct fun equals known => .ite (fun isThere => ?_) fun _ => .finishNode rfl rfl fun _ => rfl
      refine .node rfl rfl fun reference => .advance (known isThere ▸ rfl) fun h after => ?_
      exact (twins.assignment _ (by omega)).bind fun value i _ => .finishNode rfl rfl fun _ => rfl
    · refine .expectPunct (by decide) fun h after => ?_
      exact (twins.assignment _ (by omega)).bind fun value i _ => .finishNode rfl (by simp) fun _ => rfl

theorem objectRule (setting : Setting) (deep : 6 * c.text.length ≤ level) :
    Keeps station (objectRule rules setting) (objectRule rules' setting) c := by
  unfold Script.objectRule
  refine .start (.expectOpen fun d shorter => ?_)
  refine (Agrees.elementsUntil fun e less => twins.propertyRule setting (by omega)).bind fun found e _ => ?_
  exact .expectClose fun f _ => .finishNode rfl rfl fun _ => rfl

theorem groupRule (setting : Setting) (deep : 6 * c.text.length ≤ level) :
    Keeps station (groupRule rules setting) (groupRule rules' setting) c := by
  unfold Script.groupRule
  refine .start (.expectPunct (by decide) fun d shorter => .start ?_)
  refine (Agrees.elementsUntil fun e less => twins.assignment _ (by omega)).bind fun found e _ => ?_
  obtain ⟨expressions, trailingComma⟩ := found
  refine .ite (fun _ => .failed) fun _ => ?_
  match expressions with
  | [] => exact .failed
  | [expression] => exact .given (.expectPunct (by decide) fun f _ => .finishNode rfl rfl fun _ => rfl)
  | first :: second :: others =>
      exact .node rfl rfl fun inner => .expectPunct (by decide) fun f _ => .finishNode rfl rfl fun _ => rfl

theorem templateRule (setting : Setting) (tagged : Bool) (deep : 6 * c.text.length ≤ level)
    (piece : ∃ closed wellFormed, c.token = .template closed wellFormed) :
    Keeps station (templateRule rules setting tagged) (templateRule rules' setting tagged) c := by
  unfold Script.templateRule
  refine .start (.inPiece piece (.loopTo (.code station) rfl (fun found d shorter => .token fun token here => ?_) ?_))
  · split
    · next closed wellFormed =>
        refine .flawIf rfl fun e same known => ?_
        refine .advancePiece (known.trans here) fun f less => ?_
        cases closed with
        | true => exact .pure (by simp) rfl
        | false =>
            refine (twins.sequence _ (by omega)).bind fun substitution g _ => ?_
            exact agrees_continueTemplate.bind fun _ h _ => .pure rfl rfl
    · exact .failure
  · exact fun substitutions d _ => .finishNode rfl rfl fun _ => rfl

theorem argumentsRule (setting : Setting) (deep : 6 * c.text.length ≤ level) :
    Keeps station (argumentsRule rules setting) (argumentsRule rules' setting) c := by
  unfold Script.argumentsRule
  refine .expectPunct (by decide) fun d shorter => ?_
  refine (Agrees.elementsUntil fun e less => twins.spreadOr setting (by omega)).bind fun found e _ => ?_
  exact .expectPunct (by decide) fun f _ => .pure rfl rfl

theorem accesses (setting : Setting) {start start' : Nat} {object object' : Syntax} (chained : Bool)
    (starts : start' = start + A.distance) (moved : object' = move A.distance object)
    (deep : 6 * c.text.length ≤ level) :
    Keeps station (accesses rules setting start object chained) (accesses rules' setting start' object' chained) c := by
  unfold Script.accesses
  refine .cycle (by rw [moved]; rfl) fun found d shorter => ?_
  obtain ⟨object, chained⟩ := found
  refine .token fun token here => ?_
  have key {e : Cursor} (less : e.text.length < d.text.length) (chained : Bool) :
      Keeps (α := (Syntax × Bool) ⊕ (Syntax × Bool)) station
        (do
          let key ← sequenceOf rules { setting with allowIn := true }
          Read.expectPunct "]"
          return .inl (← Read.finishNode .member start [object, key], chained))
        (do
          let key ← sequenceOf rules' { setting with allowIn := true }
          Read.expectPunct "]"
          return .inl (← Read.finishNode .member start' [move A.distance object, key], chained)) e := by
    refine (twins.sequence _ (by omega)).bind fun key f _ => .expectPunct (by decide) fun g _ => ?_
    exact .node starts rfl fun tree => .pure rfl rfl
  split
  · refine .advance (here ▸ rfl) fun e _ => keeps_memberName.bind fun _ f _ => ?_
    exact .node starts rfl fun tree => .pure rfl rfl
  · exact .advance (here ▸ rfl) fun e less => key less chained
  · have plain : d.token.isPlain = true := here ▸ rfl
    refine .lookahead (.advance plain fun e _ => .token fun token _ => .pure rfl rfl) (fun _ => rfl) fun answer seen => ?_
    have access : Keeps (α := (Syntax × Bool) ⊕ (Syntax × Bool)) station
        (do
          Read.advance
          memberName
          return .inl (← Read.finishNode .member start [object], true))
        (do
          Read.advance
          memberName
          return .inl (← Read.finishNode .member start' [move A.distance object], true)) d := by
      refine .advance plain fun e _ => keeps_memberName.bind fun _ f _ => ?_
      exact .node starts rfl fun tree => .pure rfl rfl
    split
    · exact access
    · exact access
    · refine .advanceTo plain fun e less following => ?_
      have bracket : e.token = .punct "[" := Option.some.inj (token_of_glance following seen)
      exact .advance (bracket ▸ rfl) fun f further => key (by omega) true
    · exact .pure rfl rfl
    · exact .failure
  · refine .flawIf rfl fun e same known => ?_
    refine (twins.templateRule setting true (by omega) ⟨_, _, known.trans here⟩).bind fun quasi f _ => ?_
    exact .node starts rfl fun tree => .pure rfl rfl
  · exact .pure rfl rfl

theorem callRule (setting : Setting) (deep : 6 * c.text.length + 1 ≤ level) :
    Keeps station (callRule rules setting) (callRule rules' setting) c := by
  unfold Script.callRule
  refine .start ((twins.member setting deep).bind fun found d shorter => ?_)
  obtain ⟨callee, chained⟩ := found
  refine .loop rfl (fun found e less => ?_) fun found e less => ?_
  · obtain ⟨callee, chained⟩ := found
    refine (twins.accesses setting chained rfl rfl (by omega)).bind fun found f further => ?_
    obtain ⟨callee, chained⟩ := found
    refine .eatPunct (by decide) (fun g onward => ?_) (.atPunct fun there _ => .ite (fun _ => ?_) fun _ => ?_)
    · refine (twins.argumentsRule setting (by omega)).bind fun given h _ => ?_
      exact .node rfl rfl fun tree => .pure rfl rfl
    · refine (twins.argumentsRule setting (by omega)).bind fun given h _ => ?_
      exact .node rfl rfl fun tree => .pure rfl rfl
    · exact .pure rfl rfl
  · exact .ite (fun _ => .finishNode rfl rfl fun _ => rfl) fun _ => .pure rfl rfl

theorem newRule (setting : Setting) (deep : 6 * c.text.length ≤ level) :
    Keeps station (newRule rules setting) (newRule rules' setting) c := by
  unfold Script.newRule
  refine .start (.expectWord fun d shorter => .eatPunct (by decide) (fun e _ => ?_) ?_)
  · exact .expectWord fun f _ => .finishNode rfl rfl fun _ => rfl
  · refine (twins.member setting (by omega)).bind fun found e less => ?_
    obtain ⟨callee, chained⟩ := found
    refine .atPunct fun there _ => ?_
    have construction {given : List Syntax} {f : Cursor} : Keeps station
        (do
          Read.flawIf (chained || callee.form == .importCall)
          Read.finishNode .call c.start (callee :: given))
        (do
          Read.flawIf (chained || (move A.distance callee).form == .importCall)
          Read.finishNode .call (c.start + A.distance) (move A.distance callee :: move A.distance given)) f :=
      .flawIf (by simp) fun g _ _ => .finishNode rfl rfl fun _ => rfl
    refine .ite (fun _ => (twins.argumentsRule setting (by omega)).bind fun given f _ => construction) fun _ => ?_
    exact .atPunct fun there _ => .flawIf rfl fun f _ _ => .given construction

theorem importArguments (setting : Setting) {start start' : Nat} (starts : start' = start + A.distance)
    (deep : 6 * c.text.length ≤ level) :
    Keeps station (importArguments rules setting start) (importArguments rules' setting start') c := by
  unfold Script.importArguments
  refine .expectPunct (by decide) fun d shorter => ?_
  refine (twins.assignment _ (by omega)).bind fun specifier e less => ?_
  extract_lets ends ends'
  have finishes {options : List Syntax} {f : Cursor} : Keeps station (ends options) (ends' (move A.distance options)) f :=
    .flag (.eatPunctOnly (by decide)) fun _ g _ => .expectPunct (by decide) fun h _ => .finishNode starts rfl fun _ => rfl
  refine .eatPunct (by decide) (fun f further => .atPunct fun there _ => .ite (fun _ => .given finishes) fun _ => ?_) ?_
  · exact (twins.assignment _ (by omega)).bind fun option g _ => .given finishes
  · exact .given finishes

theorem importRule (setting : Setting) (deep : 6 * c.text.length ≤ level) :
    Keeps station (importRule rules setting) (importRule rules' setting) c := by
  unfold Script.importRule
  refine .start (.expectWord fun d shorter => .eatPunct (by decide) (fun e less => .eatWord (fun f _ => ?_) ?_) ?_)
  · exact .finishNode rfl rfl fun _ => rfl
  · refine .atWord fun source isSource => .atWord fun later isLater => .ite (fun phase => ?_) fun _ => .failure
    have plain : e.token.isPlain = true := by
      rcases Bool.or_eq_true_iff.1 phase with known | known
      · exact isSource known ▸ rfl
      · exact isLater known ▸ rfl
    exact .advance plain fun f further => twins.importArguments setting rfl (by omega)
  · exact twins.importArguments setting rfl (by omega)

theorem wordRule (setting : Setting) {text : String} {escaped : Bool} (here : c.token = .name text escaped)
    (deep : 6 * c.text.length ≤ level) :
    Keeps station (wordRule rules setting text escaped) (wordRule rules' setting text escaped) c := by
  have plain : c.token.isPlain = true := here ▸ rfl
  have heritage {station : A.Station} {d : Cursor} (shorter : d.text.length < c.text.length) :
      Keeps station (Script.callRule rules setting) (Script.callRule rules' setting) d :=
    twins.callRule setting (by omega)
  unfold Script.wordRule
  refine .start (.ite (fun _ => .advance plain fun d _ => .finishNode rfl rfl fun _ => rfl) fun _ => ?_)
  refine .ite (fun _ => twins.functionRule setting false false rfl deep) fun _ => ?_
  refine .ite (fun _ => twins.classRule setting false deep heritage) fun _ => ?_
  refine .ite (fun _ => twins.newRule setting deep) fun _ => ?_
  refine .ite (fun _ => twins.importRule setting deep) fun _ => ?_
  refine .ite (fun _ => keeps_superRule) fun _ => ?_
  refine .lookahead (.advance plain fun d _ => .atWord fun there _ => .onNewLine fun broken => .pure rfl rfl)
    (fun _ => rfl) fun answer _ => ?_
  refine .ite (fun _ => .advance plain fun d shorter => ?_) fun _ => .ite (fun _ => ?_) fun _ => .failure
  · exact twins.functionRule setting true false rfl (by omega)
  · exact .advance plain fun d _ => .finishNode rfl rfl fun _ => rfl

theorem decoratedClass (setting : Setting) (deep : 6 * c.text.length ≤ level) :
    Keeps station (decoratedClass rules setting) (decoratedClass rules' setting) c := by
  unfold Script.decoratedClass
  refine .start (.loop rfl (fun found d shorter => ?_) fun decorators d shorter => ?_)
  · refine .eatPunct (by decide) (fun e less => ?_) (.pure (by simp) rfl)
    exact (twins.callRule setting (by omega)).bind fun decorator f _ => .pure rfl rfl
  · refine (twins.classRule setting false (by omega) fun near => twins.callRule setting (by omega)).bind
      fun inner e _ => ?_
    exact .finishNode rfl (by simp) fun _ => rfl

theorem primaryRule (setting : Setting) (deep : 6 * c.text.length ≤ level) :
    Keeps station (primaryRule rules setting) (primaryRule rules' setting) c := by
  unfold Script.primaryRule
  refine .start (.token fun token here => ?_)
  split
  · exact twins.wordRule setting here deep
  · exact .advance (here ▸ rfl) fun d _ => .finishNode rfl rfl fun _ => rfl
  · exact .advance (here ▸ rfl) fun d _ => .finishNode rfl rfl fun _ => rfl
  · exact twins.templateRule setting false deep ⟨_, _, here⟩
  · exact keeps_patternRule (.inl here)
  · exact keeps_patternRule (.inr here)
  · exact twins.arrayRule setting deep
  · exact twins.objectRule setting deep
  · exact twins.groupRule setting deep
  · exact twins.decoratedClass setting deep
  · exact .failure

theorem memberRule (setting : Setting) (deep : 6 * c.text.length ≤ level) :
    Keeps station (memberRule rules setting) (memberRule rules' setting) c := by
  unfold Script.memberRule
  refine .start ((twins.primaryRule setting deep).bind fun object d shorter => ?_)
  exact twins.accesses setting false rfl rfl (by omega)

end Twins

end Script
end HtmlTemplate
