import HtmlTemplate.Proofs.Script.Grammar.Primary
import HtmlTemplate.Script.Grammar.Operator

/-!
# Agreement on operators, assignments and arrow functions
-/

namespace HtmlTemplate
namespace Script

variable {A : Account} {station : A.Station} {level : Nat} {rules rules' : Rules} {c : Cursor}

@[simp] theorem mayJoin_move (distance : Nat) (operator : Token) (left right : Syntax) (leftInGroup rightInGroup : Bool) :
    mayJoin operator (move distance left) (move distance right) leftInGroup rightInGroup =
      mayJoin operator left right leftInGroup rightInGroup := by
  simp only [mayJoin, Syntax.form_move]

/-! ## Glances -/

theorem agrees_awaitsOnSameLine {α : Type} [Movable α] {next : α → A.Place} {f f' : Bool → Read α}
    (here : c.token = .name "await" false) (goesOn : ∀ waits, Agrees (.code station) next (f waits) (f' waits) c) :
    Agrees (.code station) next (awaitsOnSameLine >>= f) (awaitsOnSameLine >>= f') c := by
  unfold awaitsOnSameLine
  rw [bind_assoc, bind_assoc]
  refine .lookahead (.advance (here ▸ rfl) fun d _ => .onNewLine fun broken => ?_) (fun _ => rfl) fun answer _ => ?_
  · refine .ite (fun _ => .pure rfl rfl) fun _ => .token fun token _ => ?_
    split <;> exact .pure rfl rfl
  · exact .given (goesOn _)

/-! ## Plain tokens -/

theorem isPlain_punct {text : String} (notOpen : text ≠ "\x7b") (notClose : text ≠ "\x7d") :
    (Token.punct text).isPlain = true := by
  simp [Token.isPlain, notOpen, notClose]

theorem isPlain_of_isBindable {token : Token} (bindable : isBindable token = true) : token.isPlain = true := by
  cases token <;> first | rfl | cases bindable

theorem isPlain_of_isUnaryOperator {token : Token} (operator : isUnaryOperator token = true) : token.isPlain = true := by
  cases token with
  | punct text =>
      exact isPlain_punct (fun same => absurd operator (same ▸ by decide)) fun same =>
        absurd operator (same ▸ by decide)
  | name text escaped => rfl
  | _ => cases operator

theorem isPlain_of_strength {token : Token} (strong : token.strength? ≠ none) : token.isPlain = true := by
  cases token with
  | punct text =>
      exact isPlain_punct (fun same => absurd strong (same ▸ by decide)) fun same => absurd strong (same ▸ by decide)
  | name text escaped => rfl
  | _ => exact absurd rfl strong

theorem isPlain_of_assignmentOperator {text : String} (operator : assignmentOperators.contains text = true) :
    (Token.punct text).isPlain = true :=
  isPlain_punct (fun same => absurd operator (same ▸ by decide)) fun same => absurd operator (same ▸ by decide)

theorem keeps_arrowGlance : Keeps station arrowGlance arrowGlance c := by
  unfold arrowGlance
  extract_lets rest
  have glance (d : Cursor) : Keeps station (rest ()) (rest ()) d := by
    refine .eatPunct (by decide) (fun e _ => .token fun second here => ?_) (.pure rfl rfl)
    split
    · refine .advance (here ▸ rfl) fun f _ => .atPunct fun arrow _ => .atPunct fun brace _ => ?_
      exact .ite (fun _ => .pure rfl rfl) fun _ => .pure rfl rfl
    · exact .pure rfl rfl
    · exact .pure rfl rfl
    · exact .pure rfl rfl
    · refine .ite (fun _ => .pure rfl rfl) fun isName => ?_
      have plain : e.token.isPlain = true := by
        rw [here]
        cases bindable : isBindable second with
        | true => exact isPlain_of_isBindable bindable
        | false =>
            rw [bindable, Bool.not_false, Bool.true_and, bne_iff_ne, Decidable.not_not] at isName
            rw [isName]
            rfl
      refine .advance plain fun f _ => .token fun third after => ?_
      split
      · exact .pure rfl rfl
      · refine .advance (after ▸ rfl) fun g _ => ?_
        refine .atPunct fun colon _ => .atPunct fun comma _ => .atPunct fun equals _ => .atPunct fun close _ => ?_
        exact .ite (fun _ => .pure rfl rfl) fun _ => .pure rfl rfl
      · exact .pure rfl rfl
      · exact .pure rfl rfl
      · exact .pure rfl rfl
      · exact .pure rfl rfl
  refine .eatWord (fun d _ => .onNewLine fun broken => ?_) (glance c)
  exact .ite (fun _ => .pure rfl rfl) fun _ => glance d

namespace Twins

variable (twins : Twins A level rules rules')
include twins

theorem updateRule (setting : Setting) (deep : 6 * c.text.length + 1 ≤ level) :
    Keeps station (updateRule rules setting) (updateRule rules' setting) c := by
  unfold Script.updateRule
  refine .start (.atPunct fun up isUp => .atPunct fun down isDown => .ite (fun either => ?_) fun _ => ?_)
  · have plain : c.token.isPlain = true := by
      rcases Bool.or_eq_true_iff.1 either with known | known
      · exact isUp known ▸ rfl
      · exact isDown known ▸ rfl
    refine .advance plain fun d shorter => (twins.unary setting (by omega)).bind fun operand e _ => ?_
    rw [Syntax.simpleTarget_move]
    cases operand.simpleTarget? with
    | none => exact .failure
    | some target => exact .finishNode rfl rfl fun _ => rfl
  · refine (twins.callRule setting deep).bind fun operand d shorter => ?_
    refine .atPunct fun up isUp => .atPunct fun down isDown => .onNewLine fun broken => .ite (fun either => ?_) fun _ => ?_
    · have plain : d.token.isPlain = true := by
        rcases Bool.or_eq_true_iff.1 (Bool.and_eq_true_iff.1 either).1 with known | known
        · exact isUp known ▸ rfl
        · exact isDown known ▸ rfl
      refine .advance plain fun e _ => ?_
      rw [Syntax.simpleTarget_move]
      cases operand.simpleTarget? with
      | none => exact .failure
      | some target => exact .finishNode rfl rfl fun _ => rfl
    · exact .pure rfl rfl

theorem unaryRule (setting : Setting) (deep : 6 * c.text.length + 1 ≤ level) :
    Keeps station (unaryRule rules setting) (unaryRule rules' setting) c := by
  unfold Script.unaryRule
  refine .start (.token fun token here => .ite (fun operator => ?_) fun _ => ?_)
  · have plain : c.token.isPlain = true := isPlain_of_isUnaryOperator (here ▸ operator)
    refine .advance plain fun d shorter => (twins.unary setting (by omega)).bind fun operand e _ => ?_
    exact .finishNode rfl rfl fun _ => rfl
  · refine .atWord fun there known => .ite (fun isThere => ?_) fun _ => twins.updateRule setting deep
    have plain : c.token.isPlain = true := known isThere ▸ rfl
    refine .ite (fun _ => .advance plain fun d shorter => ?_) fun _ => ?_
    · refine (twins.unary setting (by omega)).bind fun operand e _ => .finishNode rfl rfl fun _ => rfl
    · refine agrees_awaitsOnSameLine (known isThere) fun waits => ?_
      refine .ite (fun _ => .flaw fun d same known => .advance (known ▸ plain) fun e shorter => ?_) fun _ => ?_
      · exact (twins.unary _ (by omega)).bind fun operand f _ => .finishNode rfl rfl fun _ => rfl
      · exact twins.updateRule setting deep

theorem binaryTail (setting : Setting) {start start' : Nat} (leftInGroup : Bool) (least : Nat) {left left' : Syntax}
    (starts : start' = start + A.distance) (moved : left' = move A.distance left)
    (deep : 6 * c.text.length ≤ level) :
    Keeps station (binaryTail rules setting start leftInGroup least left)
      (binaryTail rules' setting start' leftInGroup least left') c := by
  unfold Script.binaryTail
  refine .cycle moved fun left d shorter => .token fun operator here => ?_
  cases strong : operator.strength? with
  | none => exact .pure rfl rfl
  | some strength =>
      have plain : d.token.isPlain = true := by
        rw [here]
        exact isPlain_of_strength fun weak => nomatch weak.symm.trans strong
      refine .ite (fun _ => .pure rfl rfl) fun _ => .advance plain fun e less => .atPunct fun rightInGroup _ => ?_
      refine (twins.binary setting strength (by omega)).bind fun right f _ => .flawIf (by simp) fun g _ _ => ?_
      exact .node starts rfl fun tree => .pure rfl rfl

theorem binaryRule (setting : Setting) (least : Nat) (deep : 6 * c.text.length + 2 ≤ level) :
    Keeps station (binaryRule rules setting least) (binaryRule rules' setting least) c := by
  unfold Script.binaryRule
  refine .start (.atPunct fun leftInGroup _ => .token fun token here => ?_)
  extract_lets tail tail'
  have operators {left : Syntax} {d : Cursor} (shorter : d.text.length ≤ c.text.length) :
      Keeps station (tail left) (tail' (move A.distance left)) d :=
    twins.binaryTail setting leftInGroup least rfl rfl (by omega)
  refine .ite (fun isPrivate => ?_) fun _ => ?_
  · have plain : c.token.isPlain = true := by
      rw [here, beq_iff_eq.1 (Bool.and_eq_true_iff.1 isPrivate).2]
      rfl
    refine .advance plain fun d shorter => .expectWord fun e less => ?_
    refine (twins.binary setting comparisonStrength (by omega)).bind fun object f further => ?_
    rw [Syntax.form_move]
    exact .ite (fun _ => .failed) fun _ => .node rfl rfl fun tree => operators (by omega)
  · exact (twins.unary setting (by omega)).bind fun left d shorter => operators shorter

theorem arrowTail (setting : Setting) {start start' : Nat} {parameters parameters' : Syntax} (isAsync : Bool)
    (starts : start' = start + A.distance) (moved : parameters' = move A.distance parameters)
    (deep : 6 * c.text.length ≤ level) :
    Keeps station (arrowTail rules setting start parameters isAsync)
      (arrowTail rules' setting start' parameters' isAsync) c := by
  unfold Script.arrowTail
  subst moved
  refine .onNewLine fun broken => .flawIf rfl fun d same _ => .expectPunct (by decide) fun e shorter => ?_
  refine .atPunct fun there _ => .ite (fun _ => ?_) fun _ => ?_
  · exact (twins.blockRule _ (by omega)).bind fun body f _ => .finishNode starts rfl fun _ => rfl
  · exact (twins.assignment _ (by omega)).bind fun body f _ => .finishNode starts rfl fun _ => rfl

theorem loneArrow (setting : Setting) {start start' : Nat} {parameter parameter' : Syntax} (isAsync : Bool)
    (starts : start' = start + A.distance) (moved : parameter' = move A.distance parameter)
    (deep : 6 * c.text.length ≤ level) :
    Keeps station (loneArrow rules setting start parameter isAsync)
      (loneArrow rules' setting start' parameter' isAsync) c := by
  subst moved
  obtain ⟨form, nameStart, nameStop, parts⟩ := parameter
  cases form with
  | reference name =>
      exact .flawIf rfl fun d same _ => twins.arrowTail setting isAsync starts rfl (by omega)
  | _ => exact .failure

theorem arrowHead (setting : Setting) (deep : 6 * c.text.length ≤ level) :
    Keeps station (arrowHead rules setting) (arrowHead rules' setting) c := by
  unfold Script.arrowHead
  refine .flag .eatWordOnly fun isAsync d shorter => ?_
  refine (twins.parametersRule _ (by omega)).bind fun parameters e _ => ?_
  exact .atPunct fun there _ => .ite (fun _ => .pure rfl rfl) fun _ => .failed

theorem groupedArrow (setting : Setting) (deep : 6 * c.text.length ≤ level) :
    Keeps station (groupedArrow? rules setting) (groupedArrow? rules' setting) c := by
  unfold groupedArrow?
  refine .start (.lookahead keeps_arrowGlance (fun _ => rfl) fun answer _ => ?_)
  split
  · exact .pure rfl rfl
  · refine (twins.arrowHead setting deep).bind fun head d shorter => ?_
    obtain ⟨parameters, isAsync⟩ := head
    exact (twins.arrowTail setting isAsync rfl rfl (by omega)).bind fun arrow e _ => .pure rfl rfl
  · refine .attempt (twins.arrowHead setting deep) (fun head d shorter => ?_) (.pure rfl rfl)
    obtain ⟨parameters, isAsync⟩ := head
    exact (twins.arrowTail setting isAsync rfl rfl (by omega)).bind fun arrow e _ => .pure rfl rfl

theorem asyncArrow (setting : Setting) (deep : 6 * c.text.length ≤ level) :
    Keeps station (asyncArrow? rules setting) (asyncArrow? rules' setting) c := by
  unfold asyncArrow?
  refine .atWord fun there known => .ite (fun isThere => .start ?_) fun _ => .pure rfl rfl
  have plain : c.token.isPlain = true := known isThere ▸ rfl
  refine .lookahead (.advance plain fun d shorter => ?_) (fun _ => rfl) fun answer _ => ?_
  · refine .onNewLine fun broken => .atPunct fun arrow _ => .ite (fun _ => .pure rfl rfl) fun _ => ?_
    refine (twins.binary setting 0 (by omega)).bind fun parameter e _ => ?_
    exact .onNewLine fun broken => .atPunct fun arrow _ => .pure (by simp) rfl
  · refine .ite (fun _ => .advance plain fun d shorter => ?_) fun _ => .pure rfl rfl
    refine (twins.binary setting 0 (by omega)).bind fun parameter e less => ?_
    exact (twins.loneArrow setting true rfl rfl (by omega)).bind fun arrow f _ => .pure rfl rfl

theorem yieldRule (setting : Setting) (deep : 6 * c.text.length ≤ level) :
    Keeps station (yieldRule rules setting) (yieldRule rules' setting) c := by
  unfold Script.yieldRule
  refine .start (.expectWord fun d shorter => .onNewLine fun broken => .ite (fun _ => ?_) fun _ => ?_)
  · exact .finishNode rfl rfl fun _ => rfl
  · refine .flag (.eatPunctOnly (by decide)) fun delegates e less => .token fun token _ => ?_
    refine .ite (fun _ => .finishNode rfl rfl fun _ => rfl) fun _ => ?_
    exact (twins.assignment setting (by omega)).bind fun operand f _ => .finishNode rfl rfl fun _ => rfl

theorem assignmentTail (setting : Setting) {start start' : Nat} {left left' : Syntax}
    (starts : start' = start + A.distance) (moved : left' = move A.distance left)
    (deep : 6 * c.text.length ≤ level) :
    Keeps station (assignmentTail rules setting start left) (assignmentTail rules' setting start' left') c := by
  subst moved
  unfold Script.assignmentTail
  refine .token fun token here => ?_
  rw [Syntax.isReference_move]
  split
  · refine .ite (fun _ => twins.loneArrow setting false starts rfl deep) fun _ => .pure rfl rfl
  · refine .advance (here ▸ rfl) fun d shorter => ?_
    refine (twins.assignment _ (by omega)).bind fun first e less => .expectPunct (by decide) fun f further => ?_
    exact (twins.assignment _ (by omega)).bind fun second g _ => .finishNode starts rfl fun _ => rfl
  · next text _ _ =>
      refine .ite (fun operator => ?_) fun _ => .pure rfl rfl
      have plain : c.token.isPlain = true := here ▸ isPlain_of_assignmentOperator operator
      have target : (if text == "=" then (move A.distance left).target? else (move A.distance left).simpleTarget?) =
          move A.distance (if text == "=" then left.target? else left.simpleTarget?) := by
        rw [Syntax.target_move, Syntax.simpleTarget_move]
        split <;> rfl
      rw [target]
      cases if text == "=" then left.target? else left.simpleTarget? with
      | none => exact .failure
      | some target =>
          refine .advance plain fun d shorter => ?_
          exact (twins.assignment setting (by omega)).bind fun value e _ => .finishNode starts rfl fun _ => rfl
  · exact .pure rfl rfl

theorem assignmentRule (setting : Setting) (deep : 6 * c.text.length + 3 ≤ level) :
    Keeps station (assignmentRule rules setting) (assignmentRule rules' setting) c := by
  unfold Script.assignmentRule
  refine .atWord fun there _ => .ite (fun _ => twins.yieldRule setting (by omega)) fun _ => ?_
  refine (twins.groupedArrow setting (by omega)).bind fun arrow d shorter => ?_
  cases arrow with
  | some arrow => exact .pure rfl rfl
  | none =>
      refine (twins.asyncArrow setting (by omega)).bind fun arrow e less => ?_
      cases arrow with
      | some arrow => exact .pure rfl rfl
      | none =>
          refine .start ((twins.binary setting 0 (by omega)).bind fun left f further => ?_)
          exact twins.assignmentTail setting rfl rfl (by omega)

end Twins

end Script
end HtmlTemplate
