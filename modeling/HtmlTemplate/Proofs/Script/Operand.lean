import HtmlTemplate.Proofs.Script.Grammar.Statement

/-!
# Operands

Most expressions are operands and nothing more: a primary expression with accesses and calls behind it. At the
first token of one, all rules from assignments down to calls read the same.
-/

namespace HtmlTemplate
namespace Script

/--
The token stands before no operand and starts no arrow function: what is read from it on is an operand, if
anything is.
-/
def Token.isBare : Token → Bool
  | .name text _ => ! ["async", "await", "yield", "typeof", "void", "delete"].contains text
  | .privateName => false
  | .punct text => ! ["(", "++", "--", "+", "-", "!", "~"].contains text
  | _ => true

/-- An operand ends before the token, and so does every expression without commas. -/
def Token.endsOperand : Token → Bool
  | .finish => true
  | .punct text => text == ")" || text == ","
  | _ => false

variable {c d e : Cursor} {rules : Rules} {setting : Setting} {α β : Type}

theorem Token.ne_of_isBare {token other : Token} (bare : token.isBare = true) (standing : other.isBare = false) :
    (token == other) = false := by
  rw [beq_eq_false_iff_ne]
  rintro rfl
  rw [bare] at standing
  cases standing

theorem Token.ne_of_endsOperand {token other : Token} (ends : token.endsOperand = true)
    (goesOn : other.endsOperand = false) : (token == other) = false := by
  rw [beq_eq_false_iff_ne]
  rintro rfl
  rw [ends] at goesOn
  cases goesOn

/-! ## Readers at a cursor -/

namespace Read

theorem bind_apply (reader : Read α) (f : α → Read β) :
    (reader >>= f) c = (reader c).bind fun found => f found.1 found.2 := rfl

theorem bind_eq_some {reader : Read α} {f : α → Read β} {result : β × Cursor} :
    (reader >>= f) c = some result ↔ ∃ value d, reader c = some (value, d) ∧ f value d = some result := by
  rw [bind_apply, Option.bind_eq_some_iff]
  exact Prod.exists

theorem token_bind (f : Token → Read β) : (token >>= f) c = f c.token c := rfl

theorem start_bind (f : Nat → Read β) : (start >>= f) c = f c.start c := rfl

theorem atPunct_bind (text : String) (f : Bool → Read β) : (atPunct text >>= f) c = f (c.token == .punct text) c := rfl

theorem atWord_bind (text : String) (f : Bool → Read β) : (atWord text >>= f) c = f (c.token == .name text false) c := rfl

theorem lookahead_bind (reader : Read α) (f : Option α → Read β) :
    (lookahead reader >>= f) c = f ((reader c).map Prod.fst) c := rfl

theorem advance_bind (following : c.next? = some d) (f : Unit → Read β) : (advance >>= f) c = f () d := by
  rw [bind_apply, advance, following]
  rfl

theorem eatPunct_absent {text : String} (absent : (c.token == .punct text) = false) (f : Bool → Read β) :
    (eatPunct text >>= f) c = f false c := by
  rw [Read.eatPunct_bind, atPunct_bind, absent]
  rfl

theorem eatPunct_there {text : String} (there : c.token = .punct text) (following : c.next? = some d)
    (f : Bool → Read β) : (eatPunct text >>= f) c = f true d := by
  rw [Read.eatPunct_bind, atPunct_bind, there, beq_self_eq_true, if_pos rfl, advance_bind following]

theorem expectPunct_there {text : String} (there : c.token = .punct text) (following : c.next? = some d)
    (f : Unit → Read β) : (expectPunct text >>= f) c = f () d := by
  rw [Read.expectPunct_bind, eatPunct_there there following]
  rfl

theorem eatWord_absent {text : String} (absent : (c.token == .name text false) = false) (f : Bool → Read β) :
    (eatWord text >>= f) c = f false c := by
  rw [Read.eatWord_bind, atWord_bind, absent]
  rfl

theorem repeatWithin_more {step : α → Read (α ⊕ β)} {budget : Nat} {state next : α}
    (more : step state c = some (.inl next, d)) :
    repeatWithin step (budget + 1) state c = repeatWithin step budget next d := by
  rw [repeatWithin, bind_apply, more]
  rfl

theorem repeatWithin_done {step : α → Read (α ⊕ β)} {budget : Nat} {state : α} {result : β}
    (done : step state c = some (.inr result, d)) : repeatWithin step (budget + 1) state c = some (result, d) := by
  rw [repeatWithin, bind_apply, done]
  rfl

theorem repeatFrom_apply {step : α → Read (α ⊕ β)} {state : α} :
    repeatFrom state step c = repeatWithin step (c.text.length + 2) state c := rfl

end Read

open Read

/-! ## From assignments down to calls -/

theorem groupedArrow_bare (bare : c.token.isBare = true) : groupedArrow? rules setting c = some (none, c) := by
  have glance : arrowGlance c = some (.no, c) := by
    unfold arrowGlance
    rw [eatWord_absent (Token.ne_of_isBare bare rfl)]
    simp only [Bool.false_eq_true, if_false]
    rw [eatPunct_absent (Token.ne_of_isBare bare rfl)]
    rfl
  unfold groupedArrow?
  rw [start_bind, lookahead_bind, glance]
  rfl

theorem asyncArrow_bare (bare : c.token.isBare = true) : asyncArrow? rules setting c = some (none, c) := by
  unfold asyncArrow?
  rw [atWord_bind, Token.ne_of_isBare bare rfl]
  rfl

theorem assignment_bare (bare : c.token.isBare = true) : assignmentRule rules setting c =
    (rules.binary setting 0 >>= assignmentTail rules setting c.start) c := by
  unfold assignmentRule
  rw [atWord_bind, Token.ne_of_isBare bare rfl, Bool.and_false, if_neg Bool.false_ne_true, bind_apply,
    groupedArrow_bare bare]
  show (asyncArrow? rules setting >>= _) c = _
  rw [bind_apply, asyncArrow_bare bare]
  rfl

theorem binary_bare {least : Nat} (bare : c.token.isBare = true) : binaryRule rules setting least c =
    (rules.unary setting >>= binaryTail rules setting c.start false least) c := by
  unfold binaryRule
  rw [start_bind, atPunct_bind, Token.ne_of_isBare bare rfl]
  extract_lets joined
  rw [token_bind, Token.ne_of_isBare bare rfl, Bool.and_false]
  rfl

theorem isUnaryOperator_bare {token : Token} (bare : token.isBare = true) : isUnaryOperator token = false := by
  unfold Token.isBare at bare
  unfold isUnaryOperator
  split at bare
  · simp only [List.contains_eq_mem] at bare ⊢
    grind
  · rfl
  · simp only [List.contains_eq_mem] at bare ⊢
    grind
  · grind

/-- The tokens behind an operand neither go on with it nor take it as one of theirs. -/
theorem update_bare (bare : c.token.isBare = true)
    (ends : ∀ found ∈ callRule rules setting c, found.2.token.endsOperand = true) :
    updateRule rules setting c = callRule rules setting c := by
  unfold updateRule
  rw [start_bind, atPunct_bind, Token.ne_of_isBare bare rfl, atPunct_bind, Token.ne_of_isBare bare rfl, Bool.or_self,
    if_neg Bool.false_ne_true, bind_apply]
  cases read : callRule rules setting c with
  | none => rfl
  | some found =>
      have last := ends found read
      show (atPunct "++" >>= _) found.2 = _
      rw [atPunct_bind, Token.ne_of_endsOperand last rfl, atPunct_bind, Token.ne_of_endsOperand last rfl]
      rfl

theorem unary_bare (bare : c.token.isBare = true) : unaryRule rules setting c = updateRule rules setting c := by
  unfold unaryRule
  rw [start_bind, token_bind, isUnaryOperator_bare bare, if_neg Bool.false_ne_true, atWord_bind,
    Token.ne_of_isBare bare rfl]
  rfl

theorem strength_of_endsOperand {token : Token} (ends : token.endsOperand = true) : token.strength? = none := by
  cases token with
  | finish => rfl
  | punct text =>
      rcases Bool.or_eq_true_iff.1 ends with closes | separates
      · rw [beq_iff_eq.1 closes]
        rfl
      · rw [beq_iff_eq.1 separates]
        rfl
  | _ => cases ends

theorem binaryTail_ends {start least : Nat} {grouped : Bool} {left : Syntax} (ends : c.token.endsOperand = true) :
    binaryTail rules setting start grouped least left c = some (left, c) := by
  unfold binaryTail
  rw [repeatFrom_apply]
  refine repeatWithin_done ?_
  rw [token_bind, strength_of_endsOperand ends]
  rfl

theorem assignmentTail_ends {start : Nat} {left : Syntax} (ends : c.token.endsOperand = true) :
    assignmentTail rules setting start left c = some (left, c) := by
  unfold assignmentTail
  rw [token_bind]
  cases token : c.token with
  | finish => rfl
  | punct text =>
      rw [token] at ends
      rcases Bool.or_eq_true_iff.1 ends with closes | separates
      · rw [beq_iff_eq.1 closes]
        rfl
      · rw [beq_iff_eq.1 separates]
        rfl
  | _ =>
      rw [token] at ends
      cases ends

/-- From the token on, an expression without commas is an operand. -/
theorem assignment_eq_call {level : Nat} (bare : c.token.isBare = true)
    (ends : ∀ found ∈ callRule (grammar level) setting c, found.2.token.endsOperand = true) :
    (grammar (level + 3)).assignment setting c = callRule (grammar level) setting c := by
  have unary : (grammar (level + 1)).unary setting c = callRule (grammar level) setting c :=
    (unary_bare bare).trans (update_bare bare ends)
  have binary : (grammar (level + 2)).binary setting 0 c = callRule (grammar level) setting c := by
    refine (binary_bare bare).trans ?_
    rw [bind_apply, unary]
    cases read : callRule (grammar level) setting c with
    | none => rfl
    | some found => exact binaryTail_ends (ends found read)
  refine (assignment_bare bare).trans ?_
  rw [bind_apply, binary]
  cases read : callRule (grammar level) setting c with
  | none => rfl
  | some found => exact assignmentTail_ends (ends found read)

end Script
end HtmlTemplate
