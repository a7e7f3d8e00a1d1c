import HtmlTemplate.Proofs.Script.Operand

/-!
# What stands before an expression

Where the token before an expression ends is only asked for when a node ends there, and no node of an expression
ends before its first token. So a blank before the expression makes no difference to it.
-/

namespace HtmlTemplate
namespace Script

variable {α β : Type} {rules : Rules} {setting : Setting}

/-- The reader does not ask where the token before its first one ends. -/
def Heedless (reader : Read α) : Prop :=
  ∀ c stop, reader { c with lastStop := stop } = reader c

/-- The answer of the reader does not depend on where the token before its first one ends. -/
def AnswersHeedless (reader : Read α) : Prop :=
  ∀ c stop, (reader { c with lastStop := stop }).map Prod.fst = (reader c).map Prod.fst

namespace Heedless

variable {f : α → Read β}

theorem answers {reader : Read α} (heedless : Heedless reader) : AnswersHeedless reader :=
  fun c stop => congrArg (Option.map Prod.fst) (heedless c stop)

theorem failure : Heedless (failure : Read α) :=
  fun _ _ => rfl

/-- What follows the first token may ask. -/
theorem advance {f : Unit → Read β} : Heedless (Read.advance >>= f) :=
  fun _ _ => rfl

theorem bind {reader : Read α} (heedless : Heedless reader) : Heedless (reader >>= f) :=
  fun c stop => congrArg (Option.bind · _) (heedless c stop)

theorem start {f : Nat → Read β} (goesOn : ∀ start, Heedless (f start)) : Heedless (Read.start >>= f) :=
  fun c stop => goesOn c.start c stop

/-- The reader may look at the whole cursor, as long as it does not ask for the end of the token before. -/
theorem get {f : Cursor → Read β}
    (goesOn : ∀ c stop, f { c with lastStop := stop } { c with lastStop := stop } = f c c) :
    Heedless (MonadState.get >>= f) :=
  goesOn

theorem token {f : Token → Read β} (goesOn : ∀ token, Heedless (f token)) : Heedless (Read.token >>= f) :=
  fun c stop => goesOn c.token c stop

theorem atPunct {text : String} {f : Bool → Read β} (goesOn : ∀ there, Heedless (f there)) :
    Heedless (Read.atPunct text >>= f) :=
  fun c stop => goesOn (c.token == .punct text) c stop

theorem atWord {text : String} {f : Bool → Read β} (goesOn : ∀ there, Heedless (f there)) :
    Heedless (Read.atWord text >>= f) :=
  fun c stop => goesOn (c.token == .name text false) c stop

theorem ite {condition : Prop} [Decidable condition] {yes no : Read α} (first : Heedless yes) (second : Heedless no) :
    Heedless (if condition then yes else no) := by
  split
  · exact first
  · exact second

theorem eatPunct {text : String} {f : Bool → Read β} (other : Heedless (f false)) :
    Heedless (Read.eatPunct text >>= f) := by
  rw [Read.eatPunct_bind]
  exact atPunct fun there => ite advance other

theorem eatWord {text : String} {f : Bool → Read β} (other : Heedless (f false)) :
    Heedless (Read.eatWord text >>= f) := by
  rw [Read.eatWord_bind]
  exact atWord fun there => ite advance other

theorem expectPunct {text : String} {f : Unit → Read β} : Heedless (Read.expectPunct text >>= f) := by
  rw [Read.expectPunct_bind]
  exact eatPunct failure

theorem expectWord {text : String} {f : Unit → Read β} : Heedless (Read.expectWord text >>= f) := by
  rw [Read.expectWord_bind]
  exact eatWord failure

theorem flaw {f : Unit → Read β} (goesOn : Heedless (f ())) : Heedless (Read.flaw >>= f) :=
  fun c stop => goesOn { c with flawed := true } stop

theorem flawIf {condition : Bool} {f : Unit → Read β} (goesOn : Heedless (f ())) :
    Heedless (Read.flawIf condition >>= f) := by
  intro c stop
  cases condition with
  | true => exact flaw goesOn c stop
  | false => exact goesOn c stop

theorem lookahead {reader : Read α} {f : Option α → Read β} (glance : AnswersHeedless reader)
    (goesOn : ∀ answer, Heedless (f answer)) : Heedless (Read.lookahead reader >>= f) := by
  intro c stop
  rw [Read.lookahead_bind, Read.lookahead_bind, glance]
  exact goesOn _ c stop

theorem attempt {reader : Read α} {f : Option α → Read β} (trial : Heedless reader) (defeat : Heedless (f none)) :
    Heedless (Read.attempt reader >>= f) := by
  intro c stop
  rw [Read.bind_apply, Read.bind_apply, Read.attempt, Read.attempt, trial]
  cases reader c with
  | none => exact defeat c stop
  | some found => rfl

theorem repeatFrom {step : α → Read (α ⊕ β)} {state : α} (round : Heedless (step state)) :
    Heedless (Read.repeatFrom state step) := by
  intro c stop
  rw [Read.repeatFrom_apply, Read.repeatFrom_apply, Read.repeatWithin]
  exact round.bind c stop

/-- A repetition that goes on as long as it takes a punctuator, and what follows it. -/
theorem repeatEat {γ : Type} {text : String} {more : α → Read (α ⊕ β)} {done : α → β} {state : α} {f : β → Read γ}
    (goesOn : Heedless (f (done state))) : Heedless (Read.repeatFrom state (fun state => do
      if ← Read.eatPunct text then more state else return .inr (done state)) >>= f) := by
  intro c stop
  rw [Read.bind_apply, Read.bind_apply, Read.repeatFrom_apply, Read.repeatFrom_apply, ← Read.bind_apply,
    ← Read.bind_apply, Read.repeatWithin, bind_assoc, bind_assoc]
  exact eatPunct goesOn c stop

end Heedless

/-! ## The grammar -/

open Heedless

namespace AnswersHeedless

theorem pure {value : α} : AnswersHeedless (Pure.pure value) :=
  fun _ _ => rfl

theorem ite {condition : Prop} [Decidable condition] {yes no : Read α} (first : AnswersHeedless yes)
    (second : AnswersHeedless no) : AnswersHeedless (if condition then yes else no) := by
  split
  · exact first
  · exact second

theorem eatPunct {text : String} {f : Bool → Read β} (other : AnswersHeedless (f false)) :
    AnswersHeedless (Read.eatPunct text >>= f) := by
  rw [Read.eatPunct_bind]
  exact fun c stop => ite Heedless.advance.answers other c stop

theorem eatWord {text : String} {f : Bool → Read β} (other : AnswersHeedless (f false)) :
    AnswersHeedless (Read.eatWord text >>= f) := by
  rw [Read.eatWord_bind]
  exact fun c stop => ite Heedless.advance.answers other c stop

end AnswersHeedless

theorem answersHeedless_arrowGlance : AnswersHeedless arrowGlance := by
  unfold arrowGlance
  exact .eatWord (.eatPunct .pure)

theorem heedless_patternRule : Heedless patternRule := by
  unfold patternRule
  refine get fun c stop => ?_
  dsimp only
  cases pattern? (c.text.drop 1) with
  | none => rfl
  | some rest => rfl

theorem heedless_wordRule {text : String} {escaped : Bool} : Heedless (wordRule rules setting text escaped) := by
  unfold wordRule
  refine start fun _ => ite advance (ite ?_ (ite ?_ (ite ?_ (ite ?_ (ite ?_ ?_)))))
  · exact expectWord
  · exact start fun _ => expectWord
  · exact start fun _ => expectWord
  · exact start fun _ => expectWord
  · exact start fun _ => expectWord
  · exact lookahead advance.answers fun _ => ite advance (ite advance failure)

theorem heedless_templateRule {tagged : Bool} : Heedless (templateRule rules setting tagged) := by
  unfold templateRule
  refine start fun _ => bind (repeatFrom (token fun token => ?_))
  cases token with
  | template closed wellFormed => exact flawIf advance
  | _ => exact failure

theorem heedless_decoratedClass : Heedless (decoratedClass rules setting) := by
  unfold decoratedClass
  exact start fun _ => repeatEat (bind (start fun _ => expectWord))

theorem heedless_primaryRule : Heedless (primaryRule rules setting) := by
  unfold primaryRule
  refine start fun _ => token fun token => ?_
  split
  · exact heedless_wordRule
  · exact advance
  · exact advance
  · exact heedless_templateRule
  · exact heedless_patternRule
  · exact heedless_patternRule
  · exact start fun _ => expectPunct
  · exact start fun _ => expectPunct
  · exact start fun _ => expectPunct
  · exact heedless_decoratedClass
  · exact failure

theorem heedless_arrowHead : Heedless (arrowHead rules setting) := by
  unfold arrowHead
  exact eatWord (bind (start fun _ => expectPunct))

/-- Where no arrow function starts nothing has been read. -/
theorem heedless_groupedArrow {f : Option Syntax → Read α} (goesOn : Heedless (f none)) :
    Heedless (groupedArrow? rules setting >>= f) := by
  unfold groupedArrow?
  rw [bind_assoc]
  refine start fun _ => ?_
  rw [bind_assoc]
  refine lookahead answersHeedless_arrowGlance fun answer => ?_
  cases answer.getD .no with
  | no => exact goesOn
  | yes => exact bind (bind heedless_arrowHead)
  | maybe =>
      rw [bind_assoc]
      exact attempt heedless_arrowHead goesOn

theorem heedless_asyncArrow {f : Option Syntax → Read α} (goesOn : Heedless (f none)) :
    Heedless (asyncArrow? rules setting >>= f) := by
  unfold asyncArrow?
  rw [bind_assoc]
  refine atWord fun there => ?_
  cases there with
  | false => exact goesOn
  | true =>
      dsimp only
      rw [if_pos rfl, bind_assoc]
      refine start fun _ => ?_
      rw [bind_assoc]
      refine lookahead advance.answers fun answer => ?_
      by_cases fits : (answer == some true) = true
      · rw [if_pos fits]
        exact bind advance
      · rw [if_neg fits]
        exact goesOn

/-- The rules of an expression are heedless. -/
structure HeedlessRules (rules : Rules) : Prop where
  member (setting : Setting) : Heedless (rules.member setting)
  unary (setting : Setting) : Heedless (rules.unary setting)
  binary (setting : Setting) (least : Nat) : Heedless (rules.binary setting least)
  assignment (setting : Setting) : Heedless (rules.assignment setting)

namespace HeedlessRules

variable (heedless : HeedlessRules rules)
include heedless

theorem updateRule : Heedless (updateRule rules setting) := by
  unfold Script.updateRule Script.callRule
  exact start fun _ => atPunct fun _ => atPunct fun _ => ite advance (bind (start fun _ => bind (heedless.member setting)))

theorem unaryRule : Heedless (unaryRule rules setting) := by
  unfold Script.unaryRule
  refine start fun _ => token fun token => ite advance (atWord fun _ => ite (ite advance ?_) heedless.updateRule)
  unfold awaitsOnSameLine
  rw [bind_assoc]
  exact lookahead advance.answers fun answer => ite (flaw advance) heedless.updateRule

theorem binaryRule {least : Nat} : Heedless (binaryRule rules setting least) := by
  unfold Script.binaryRule
  refine start fun _ => atPunct fun _ => ?_
  extract_lets joined
  exact token fun _ => ite advance (bind (heedless.unary setting))

theorem assignmentRule : Heedless (assignmentRule rules setting) := by
  unfold Script.assignmentRule
  refine atWord fun there => ite (start fun _ => expectWord) (heedless_groupedArrow (heedless_asyncArrow ?_))
  exact start fun _ => bind (heedless.binary setting 0)

end HeedlessRules

theorem grammar_heedless (level : Nat) : HeedlessRules (grammar level) := by
  induction level with
  | zero =>
      exact
        { member := fun _ => failure
          unary := fun _ => failure
          binary := fun _ _ => failure
          assignment := fun _ => failure }
  | succ level heedless =>
      exact
        { member := fun setting => start fun _ => bind heedless_primaryRule
          unary := fun setting => heedless.unaryRule
          binary := fun setting least => heedless.binaryRule
          assignment := fun setting => heedless.assignmentRule }

end Script
end HtmlTemplate
