import HtmlTemplate.Proofs.Script.Agreement

/-!
# Agreement on bindings, parameters, functions and classes
-/

namespace HtmlTemplate
namespace Script

variable {A : Account} {station : A.Station} {level : Nat} {rules rules' : Rules} {c : Cursor}

theorem keeps_bindingName (setting : Setting) : Keeps station (bindingName setting) (bindingName setting) c := by
  unfold bindingName
  refine .start (.token fun token here => ?_)
  cases token with
  | name text escaped =>
      refine .ite (fun _ => .flawIf rfl fun d _ same => ?_) fun _ => .failure
      refine .advance (by rw [same, here]; rfl) fun e _ => ?_
      exact .finishNode rfl rfl fun _ => rfl
  | _ => exact .failure

namespace Twins

variable (twins : Twins A level rules rules')
include twins

theorem propertyKey (setting : Setting) (inClass : Bool) (deep : 6 * c.text.length ≤ level) :
    Keeps station (propertyKey rules setting inClass) (propertyKey rules' setting inClass) c := by
  unfold Script.propertyKey
  refine .token fun token here => ?_
  split
  · exact .advance (here ▸ rfl) fun d _ => .pure rfl rfl
  · exact .advance (here ▸ rfl) fun d _ => .pure rfl rfl
  · exact .advance (here ▸ rfl) fun d _ => .pure rfl rfl
  · refine .flawIf rfl fun d _ same => ?_
    exact .advance (by rw [same, here]; rfl) fun e _ => .pure rfl rfl
  · refine .advance (here ▸ rfl) fun d shorter => ?_
    refine (twins.assignment _ (by omega)).bind fun key e less => ?_
    exact .expectPunct (by decide) fun f _ => .pure rfl rfl
  · exact .failure

theorem bindingWithDefault (setting : Setting) (deep : 6 * c.text.length + 1 ≤ level) :
    Keeps station (bindingWithDefault rules setting) (bindingWithDefault rules' setting) c := by
  unfold Script.bindingWithDefault
  refine .start ?_
  refine (twins.binding setting deep).bind fun target d shorter => ?_
  refine .eatPunct (by decide) (fun e less => ?_) (.pure rfl rfl)
  refine (twins.assignment _ (by omega)).bind fun value f further => ?_
  exact .finishNode rfl rfl fun _ => rfl

theorem restBinding (setting : Setting) (deep : 6 * c.text.length ≤ level) :
    Keeps station (restBinding rules setting) (restBinding rules' setting) c := by
  unfold Script.restBinding
  refine .start (.expectPunct (by decide) fun d shorter => ?_)
  refine (twins.binding setting (by omega)).bind fun target e less => ?_
  extract_lets finish last finish' last'
  have finishes (f : Cursor) : Keeps station (finish ()) (finish' ()) f :=
    .finishNode rfl rfl fun _ => rfl
  have isLast (f : Cursor) : Keeps station (last ()) (last' ()) f := by
    refine .atPunct fun there known => .ite (fun isThere => ?_) fun _ => finishes f
    refine .lookahead (.advance (known isThere ▸ rfl) fun g _ => .token fun token _ => .pure rfl rfl) (fun _ => rfl)
      fun answer _ => .ite (fun _ => .flaw fun g _ _ => finishes g) fun _ => .failed
  refine .eatPunct (by decide) (fun f further => ?_) (isLast e)
  refine .flaw fun g same _ => ?_
  exact (twins.assignment _ (by omega)).bind fun value h _ => isLast h

theorem elementBinding (setting : Setting) (deep : 6 * c.text.length + 1 ≤ level) :
    Keeps station (elementBinding rules setting) (elementBinding rules' setting) c := by
  unfold Script.elementBinding
  refine .atPunct fun there _ => .ite (fun _ => .start (.pure rfl rfl)) fun _ => ?_
  refine .atPunct fun there _ => .ite (fun _ => ?_) fun _ => ?_
  · exact twins.restBinding setting (by omega)
  · exact twins.bindingWithDefault setting deep

theorem propertyBinding (setting : Setting) (deep : 6 * c.text.length ≤ level) :
    Keeps station (propertyBinding rules setting) (propertyBinding rules' setting) c := by
  unfold Script.propertyBinding
  refine .atPunct fun there _ => .ite (fun _ => twins.restBinding setting deep) fun _ => ?_
  refine .start (.token fun token _ => ?_)
  refine (twins.propertyKey setting false deep).bind fun key d shorter => ?_
  refine .atPunct fun colon _ => ?_
  rw [name_move]
  split
  · refine .flawIf rfl fun e same _ => .node rfl rfl fun target => ?_
    refine .eatPunct (by decide) (fun f less => ?_) (.finishNode rfl rfl fun _ => rfl)
    refine (twins.assignment _ (by omega)).bind fun value g further => .node rfl rfl fun whole => ?_
    exact .finishNode rfl rfl fun _ => rfl
  · refine .expectPunct (by decide) fun e less => ?_
    refine (twins.bindingWithDefault setting (by omega)).bind fun target f further => ?_
    exact .finishNode rfl (by simp) fun _ => rfl

theorem bindingRule (setting : Setting) (deep : 6 * c.text.length ≤ level) :
    Keeps station (bindingRule rules setting) (bindingRule rules' setting) c := by
  unfold Script.bindingRule
  refine .start (.token fun token here => ?_)
  split
  · refine .advance (here ▸ rfl) fun d shorter => ?_
    refine (Agrees.elementsUntil fun e less => twins.elementBinding setting (by omega)).bind fun found f further => ?_
    refine .expectPunct (by decide) fun g _ => .finishNode rfl rfl fun _ => rfl
  · refine .advanceOpen here fun d shorter => ?_
    refine (Agrees.elementsUntil fun e less => twins.propertyBinding setting (by omega)).bind fun found f further => ?_
    exact .expectClose fun g _ => .finishNode rfl rfl fun _ => rfl
  · exact keeps_bindingName setting

theorem parametersRule (setting : Setting) (deep : 6 * c.text.length ≤ level) :
    Keeps station (parametersRule rules setting) (parametersRule rules' setting) c := by
  unfold Script.parametersRule
  refine .start (.expectPunct (by decide) fun d shorter => ?_)
  refine (Agrees.elementsUntil fun e less => ?_).bind fun found f further => ?_
  · refine .atPunct fun there _ => .ite (fun _ => ?_) fun _ => ?_
    · exact twins.restBinding setting (by omega)
    · exact twins.bindingWithDefault setting (by omega)
  · exact .expectPunct (by decide) fun g _ => .finishNode rfl rfl fun _ => rfl

end Twins

/-! ## Functions and classes -/

theorem keeps_qualifier (word : String) (sameLine : Bool) :
    Keeps station (qualifier word sameLine) (qualifier word sameLine) c := by
  unfold qualifier
  refine .atWord fun there known => .ite (fun isThere => ?_) fun _ => .pure rfl rfl
  have plain : c.token.isPlain = true := known isThere ▸ rfl
  refine .lookahead (.advance plain fun d _ => .token fun token _ => .onNewLine fun broken => .pure rfl rfl)
    (fun _ => rfl) fun answer _ => .ite (fun _ => ?_) fun _ => .pure rfl rfl
  exact .advance plain fun d _ => .pure rfl rfl

/-- The words before an accessor. -/
theorem agrees_accessorWords {α : Type} [Movable α] {next : α → A.Place} {isAsync : Bool} {f f' : Bool → Bool → Read α}
    (goesOn : ∀ isGetter isSetter d, d.text.length ≤ c.text.length →
      Agrees (.code station) next (f isGetter isSetter) (f' isGetter isSetter) d) :
    Agrees (.code station) next
      (do
        let isGetter ← if isAsync then pure false else qualifier "get" false
        let isSetter ← if isAsync || isGetter then pure false else qualifier "set" false
        f isGetter isSetter)
      (do
        let isGetter ← if isAsync then pure false else qualifier "get" false
        let isSetter ← if isAsync || isGetter then pure false else qualifier "set" false
        f' isGetter isSetter) c := by
  extract_lets getter getter'
  have known (isGetter : Bool) {d : Cursor} (shorter : d.text.length ≤ c.text.length) :
      Agrees (.code station) next (getter isGetter) (getter' isGetter) d := by
    refine .ite (fun _ => .given (goesOn isGetter false d shorter)) fun _ => ?_
    exact .flag (keeps_qualifier "set" false) fun isSetter e less => goesOn isGetter isSetter e (by omega)
  refine .ite (fun _ => .given (known false (Nat.le_refl _))) fun _ => ?_
  exact .flag (keeps_qualifier "get" false) fun isGetter d shorter => known isGetter shorter

theorem keeps_endStatement : Keeps station endStatement endStatement c := by
  unfold endStatement
  refine .eatPunct (by decide) (fun d _ => .pure rfl rfl) ?_
  refine .atPunct fun there _ => .token fun token _ => .onNewLine fun broken => ?_
  exact .ite (fun _ => .pure rfl rfl) fun _ => .failure

@[simp] theorem accessorFits_move (distance : Nat) (isGetter : Bool) (method : Syntax) :
    accessorFits isGetter (move distance method) = accessorFits isGetter method := by
  obtain ⟨form, start, stop, parts⟩ := method
  cases form with
  | function =>
      match parts with
      | [] => rfl
      | .node form _ _ [] :: _ => cases form <;> cases isGetter <;> rfl
      | .node form _ _ [.node _ _ _ _] :: _ => cases form <;> cases isGetter <;> rfl
      | .node form _ _ (_ :: _ :: _) :: _ => cases form <;> rfl
  | _ => rfl

namespace Twins

variable (twins : Twins A level rules rules')
include twins

theorem blockRule (setting : Setting) (deep : 6 * c.text.length ≤ level) :
    Keeps station (blockRule rules setting) (blockRule rules' setting) c := by
  unfold Script.blockRule
  refine .start (.expectOpen fun d shorter => ?_)
  refine .loopTo (.code station) rfl (fun found e less => ?_) fun statements e less => .finishNode rfl rfl fun _ => rfl
  refine .eatClose (fun f _ => .pure (by simp) rfl) ?_
  exact (twins.statement setting (by omega)).bind fun statement f _ => .pure (by simp) rfl

theorem functionTail {start start' : Nat} {name name' : List Syntax} (isAsync isGenerator : Bool)
    (starts : start' = start + A.distance) (named : name' = move A.distance name) (deep : 6 * c.text.length ≤ level) :
    Keeps station (functionTail rules start name isAsync isGenerator)
      (functionTail rules' start' name' isAsync isGenerator) c := by
  unfold Script.functionTail
  refine (twins.parametersRule _ deep).bind fun parameters d shorter => ?_
  refine (twins.blockRule _ (by omega)).bind fun body e less => ?_
  exact .finishNode starts (by simp [named]) fun _ => rfl

theorem functionRule {start start' : Nat} (setting : Setting) (isAsync isDeclaration : Bool)
    (starts : start' = start + A.distance) (deep : 6 * c.text.length ≤ level) :
    Keeps station (functionRule rules setting start isAsync isDeclaration)
      (functionRule rules' setting start' isAsync isDeclaration) c := by
  unfold Script.functionRule
  refine .expectWord fun d shorter => ?_
  refine .flag (.eatPunctOnly (by decide)) fun isGenerator e less => ?_
  refine .atPunct fun there _ => ?_
  have tail {name name' : List Syntax} {f : Cursor} (named : name' = move A.distance name)
      (further : f.text.length ≤ e.text.length) :
      Keeps station (Script.functionTail rules start name isAsync isGenerator)
        (Script.functionTail rules' start' name' isAsync isGenerator) f :=
    twins.functionTail isAsync isGenerator starts named (by omega)
  refine .ite (fun _ => .ite (fun _ => .failed) fun _ => .given (tail rfl (Nat.le_refl _))) fun _ => ?_
  exact (keeps_bindingName _).bind fun name f further => .given (tail rfl further)

theorem elementRule {heritage heritage' : Read Syntax} (setting : Setting) (deep : 6 * c.text.length ≤ level)
    (parent : ∀ {station : A.Station} {d : Cursor}, d.text.length < c.text.length → Keeps station heritage heritage' d) :
    Keeps station (elementRule rules heritage setting) (elementRule rules' heritage' setting) c := by
  unfold Script.elementRule
  refine .start (.loop rfl (fun found d shorter => ?_) fun decorators d shorter => ?_)
  · refine .eatPunct (by decide) (fun e less => ?_) (.pure (by simp) rfl)
    exact (parent (by omega)).bind fun value f _ => .pure (by simp) rfl
  refine .flag (keeps_qualifier "static" false) fun isStatic e less => ?_
  refine .atPunct fun brace _ => .ite (fun _ => ?_) fun _ => ?_
  · refine (twins.blockRule _ (by omega)).bind fun body f _ => ?_
    exact .finishNode rfl (by simp) fun _ => rfl
  refine .flag (keeps_qualifier "accessor" true) fun _ f further => ?_
  refine .flag (keeps_qualifier "async" true) fun isAsync g onward => ?_
  refine agrees_accessorWords fun isGetter isSetter h ahead => ?_
  refine .flag (.eatPunctOnly (by decide)) fun isGenerator i least => ?_
  refine .atSpelling fun reserved => .flawIf rfl fun j same _ => ?_
  refine (twins.propertyKey setting true (by omega)).bind fun key k after => ?_
  refine .atPunct fun parenthesis _ => .ite (fun _ => ?_) fun _ => ?_
  · refine .flawIf rfl fun l same₁ _ => .flawIf rfl fun m same₂ _ => .start ?_
    refine (twins.functionTail isAsync isGenerator rfl rfl (by omega)).bind fun method n _ => ?_
    refine .flawIf (by simp) fun o _ _ => .finishNode rfl (by simp) fun _ => rfl
  · refine .flawIf rfl fun l same₁ _ => ?_
    extract_lets ends ends'
    have finishes {value : List Syntax} {m : Cursor} :
        Keeps station (ends value) (ends' (move A.distance value)) m :=
      keeps_endStatement.bind fun _ n _ => .finishNode rfl (by simp) fun _ => rfl
    refine .eatPunct (by decide) (fun m onward => ?_) (.given finishes)
    exact (twins.assignment _ (by omega)).bind fun value n _ => .given finishes

theorem classRule {heritage heritage' : Read Syntax} (setting : Setting) (isDeclaration : Bool)
    (deep : 6 * c.text.length ≤ level)
    (parent : ∀ {station : A.Station} {d : Cursor}, d.text.length < c.text.length → Keeps station heritage heritage' d) :
    Keeps station (classRule rules heritage setting isDeclaration) (classRule rules' heritage' setting isDeclaration)
      c := by
  unfold Script.classRule
  refine .start (.expectWord fun d shorter => .token fun token _ => ?_)
  extract_lets named named'
  have elements {parts : List Syntax} {e : Cursor} (less : e.text.length ≤ d.text.length) :
      Keeps station (named parts) (named' (move A.distance parts)) e := by
    dsimp -zeta only [named, named']
    extract_lets heir heir'
    have body {more : List Syntax} {f : Cursor} (further : f.text.length ≤ e.text.length) :
        Keeps station (heir more) (heir' (move A.distance more)) f := by
      refine .expectOpen fun g onward => .loopTo (.code station) rfl (fun found h after => ?_) fun found h _ => ?_
      · refine .eatClose (fun i _ => .pure (by simp) rfl) ?_
        refine .eatPunct (by decide) (fun i _ => .pure rfl rfl) ?_
        exact (twins.elementRule setting (by omega) fun near => parent (by omega)).bind fun value i _ =>
          .pure (by simp) rfl
      · exact .finishNode rfl (by simp) fun _ => rfl
    refine .eatWord (fun f further => ?_) (.given (body (Nat.le_refl _)))
    exact (parent (by omega)).bind fun value g onward => .given (body (by omega))
  refine .ite (fun _ => ?_) fun _ => .ite (fun _ => .failed) fun _ => .given (elements (Nat.le_refl _))
  exact (keeps_bindingName setting).bind fun name e less => .given (elements less)

end Twins

end Script
end HtmlTemplate
