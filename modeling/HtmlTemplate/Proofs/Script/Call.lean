import HtmlTemplate.Proofs.Script.Operand

/-!
# Calls and what is between their commas

Expressions with commas between them are read by the rule for sequences, by the rule for parentheses and by the
one for arguments. All of them find the same items.
-/

namespace HtmlTemplate

namespace Script

variable {α : Type} {element other : Read α} {values : List α} {c d e f : Cursor} {level : Nat} {setting : Setting}

/-- The items from a cursor on, with commas between them, and the cursor behind the last one. -/
inductive Items (element : Read α) : Cursor → List α → Cursor → Prop
  | last {c d : Cursor} {value : α} (read : element c = some (value, d)) (ends : d.token ≠ .punct ",") :
      Items element c [value] d
  | more {c d e f : Cursor} {value : α} {values : List α} (read : element c = some (value, d))
      (comma : d.token = .punct ",") (following : d.next? = some e) (shorter : e.text.length < c.text.length)
      (items : Items element e values f) : Items element c (value :: values) f

theorem Items.map (same : ∀ c value d, element c = some (value, d) → other c = some (value, d))
    (items : Items element c values d) : Items other c values d := by
  induction items with
  | last read ends => exact .last (same _ _ _ read) ends
  | more read comma following shorter _ hypothesis => exact .more (same _ _ _ read) comma following shorter hypothesis

/-- A list up to a closing punctuator consists of the items before it. -/
theorem Items.elementsUntil {close : String} (items : Items element c values d) (closes : d.token = .punct close)
    (separates : close ≠ ",") (opens : ∀ c value d, element c = some (value, d) → (c.token == .punct close) = false) :
    Read.elementsUntil close element c = some ((values, false), d) := by
  suffices general : ∀ found budget, c.text.length < budget → Read.repeatWithin (fun elements => do
      if ← Read.atPunct close then return .inr (elements.reverse, !elements.isEmpty)
      let elements := (← element) :: elements
      if ← Read.atPunct close then return .inr (elements.reverse, false)
      Read.expectPunct ","
      return .inl elements) budget found c = some ((found.reverse ++ values, false), d) by
    exact general [] (c.text.length + 2) (by omega)
  induction items with
  | @last c d value read ends =>
      intro found budget enough
      obtain ⟨budget, rfl⟩ : ∃ rounds, budget = rounds + 1 := ⟨budget - 1, by omega⟩
      refine Read.repeatWithin_done ?_
      rw [Read.atPunct_bind, opens c value d read]
      simp only [Bool.false_eq_true, if_false]
      rw [Read.bind_apply, read, Option.bind_some, Read.atPunct_bind, closes, beq_self_eq_true, if_pos rfl]
      simp
      rfl
  | @more c d e f value values read comma following shorter items hypothesis =>
      intro found budget enough
      obtain ⟨budget, rfl⟩ : ∃ rounds, budget = rounds + 1 := ⟨budget - 1, by omega⟩
      have goesOn : (d.token == .punct close) = false := by
        rw [comma, beq_eq_false_iff_ne]
        exact fun same => separates (Token.punct.inj same).symm
      refine (Read.repeatWithin_more ?_).trans ((hypothesis closes (value :: found) budget (by omega)).trans ?_)
      · rw [Read.atPunct_bind, opens c value d read]
        simp only [Bool.false_eq_true, if_false]
        rw [Read.bind_apply, read, Option.bind_some, Read.atPunct_bind, goesOn]
        simp only [Bool.false_eq_true, if_false]
        rw [Read.expectPunct_there comma following]
        rfl
      · simp

/-! ## Texts that begin later -/

/-- The account that only knows that a cursor stands at its token, in a text of some size. -/
def relocation (distance : Nat) : Account where
  distance
  Station := Nat
  At size c := c.Lexed ∧ c.size = size
  inBraces size := size
  inSubstitution size := size
  sound stands := stands.1.toSound
  flawed := fun ⟨lexed, size⟩ => ⟨⟨⟨lexed.text, lexed.rest, lexed.token⟩, lexed.read⟩, size⟩
  plain := fun ⟨lexed, size⟩ _ next => ⟨lexed.toSound.lexed next, (Cursor.next_size next).trans size⟩
  opens := fun ⟨lexed, size⟩ _ next => ⟨lexed.toSound.lexed next, (Cursor.next_size next).trans size⟩
  closes := fun ⟨lexed, size⟩ _ next => ⟨lexed.toSound.lexed next, (Cursor.next_size next).trans size⟩
  substitution := fun ⟨lexed, size⟩ _ next => ⟨lexed.toSound.lexed next, (Cursor.next_size next).trans size⟩
  continues := fun {_ _ _ closed _ _} ⟨lexed, size⟩ _ piece next => by
    obtain ⟨part, source, spelled⟩ := behind_templateTail piece
    cases closed <;> exact ⟨(lexed.anew source spelled.full).lexed next, (Cursor.next_size next).trans size⟩
  pattern := fun ⟨lexed, size⟩ _ read next => by
    obtain ⟨part, source, full⟩ := behind_pattern read
    exact ⟨(lexed.anew source full).lexed next, (Cursor.next_size next).trans size⟩

variable {distance more : Nat} {tree : Syntax}

/-- An expression is read alike where the text begins later, at a level that is no lower. -/
theorem sequence_move (distance more : Nat) (lexed : c.Lexed) (deep : 6 * c.text.length + 4 ≤ level)
    (read : sequenceOf (grammar level) setting c = some (tree, d)) :
    sequenceOf (grammar (level + more)) setting (c.move distance) = some (move distance tree, d.move distance) ∧
      d.Lexed ∧ d.size = c.size := by
  obtain ⟨same, leads⟩ := (grammar_twins (relocation distance) level more).sequence setting deep ⟨lexed, rfl⟩
  rw [read] at same
  exact ⟨same, (leads tree d read).1⟩

/-- The same without commas. -/
theorem assignment_move (distance more : Nat) (lexed : c.Lexed) (deep : 6 * c.text.length + 4 ≤ level)
    (read : (grammar level).assignment setting c = some (tree, d)) :
    (grammar (level + more)).assignment setting (c.move distance) = some (move distance tree, d.move distance) ∧
      d.Lexed ∧ d.text.length ≤ c.text.length := by
  obtain ⟨same, leads⟩ := (grammar_twins (relocation distance) level more).assignment setting deep ⟨lexed, rfl⟩
  obtain ⟨⟨behind, -⟩, shorter⟩ := leads tree d read
  rw [read] at same
  exact ⟨same, behind, shorter⟩

theorem Items.move (distance more : Nat) {values : List Syntax} (lexed : c.Lexed) (deep : 6 * c.text.length + 4 ≤ level)
    (items : Items ((grammar level).assignment setting) c values d) :
    Items ((grammar (level + more)).assignment setting) (c.move distance) (Movable.move distance values)
      (d.move distance) := by
  induction items with
  | last read ends =>
      obtain ⟨moved, -⟩ := assignment_move distance more lexed deep read
      exact .last moved ends
  | @more c d e f value values read comma following shorter items hypothesis =>
      obtain ⟨moved, behind, -⟩ := assignment_move distance more lexed deep read
      have next : (d.move distance).next? = some (e.move distance) := by
        rw [behind.toSound.next_move, following]
        rfl
      exact .more moved comma next shorter (hypothesis (behind.toSound.lexed following) (by omega))

/-! ## Sequences -/

/-- Items as one expression. -/
def joined (start stop : Nat) : List Syntax → Syntax
  | [tree] => tree
  | trees => .node .sequence start stop trees

theorem items_of_loop {first all : List Syntax} (budget : Nat) (lexed : d.Lexed) (deep : 6 * d.text.length + 4 ≤ level)
    (read : Read.repeatWithin (fun found => do
      if ← Read.eatPunct "," then return .inl ((← (grammar level).assignment setting) :: found)
      else return .inr found.reverse) budget first d = some (all, f)) :
    (d.token ≠ .punct "," ∧ all = first.reverse ∧ f = d) ∨ ∃ e values, d.token = .punct "," ∧ d.next? = some e ∧
      Items ((grammar level).assignment setting) e values f ∧ all = first.reverse ++ values := by
  induction budget generalizing first d with
  | zero => cases read
  | succ budget hypothesis =>
      rw [Read.repeatWithin] at read
      obtain ⟨answer, g, round, read⟩ := Read.bind_eq_some.1 read
      by_cases comma : d.token = .punct ","
      · rw [Read.eatPunct_bind, Read.atPunct_bind, comma, beq_self_eq_true, if_pos rfl] at round
        obtain ⟨_, e, advanced, round⟩ := Read.bind_eq_some.1 round
        obtain ⟨_, following, same⟩ := Option.map_eq_some_iff.1 advanced
        cases same
        obtain ⟨value, g, item, round⟩ := Read.bind_eq_some.1 round
        cases round
        have standing := lexed.toSound.lexed following
        have nearer : e.text.length < d.text.length :=
          Nat.lt_of_le_of_lt (Cursor.next_text following) (lexed.token (by simp [comma]))
        obtain ⟨-, behind, shorter⟩ := assignment_move 0 0 standing (by omega) item
        refine .inr ⟨e, ?_⟩
        rcases hypothesis behind (by omega) read with ⟨ends, rfl, rfl⟩ | ⟨h, values, again, next, items, rfl⟩
        · exact ⟨[value], comma, following, .last item ends, by simp⟩
        · have still : h.text.length < g.text.length :=
            Nat.lt_of_le_of_lt (Cursor.next_text next) (behind.token (by simp [again]))
          exact ⟨value :: values, comma, following, .more item again next (by omega) items, by simp⟩
      · rw [Read.eatPunct_absent (beq_eq_false_iff_ne.2 comma)] at round
        cases round
        cases read
        exact .inl ⟨comma, rfl, rfl⟩

/-- A sequence consists of items. -/
theorem items_of_sequence (lexed : c.Lexed) (deep : 6 * c.text.length + 4 ≤ level)
    (read : sequenceOf (grammar level) setting c = some (tree, f)) :
    ∃ values, Items ((grammar level).assignment setting) c values f ∧ tree = joined c.start f.lastStop values := by
  unfold sequenceOf at read
  rw [Read.start_bind] at read
  obtain ⟨first, d, item, read⟩ := Read.bind_eq_some.1 read
  obtain ⟨-, behind, shorter⟩ := assignment_move 0 0 lexed deep item
  rw [Read.atPunct_bind] at read
  by_cases comma : d.token = .punct ","
  · rw [comma, beq_self_eq_true, if_pos rfl] at read
    obtain ⟨all, g, loop, read⟩ := Read.bind_eq_some.1 read
    cases read
    rcases items_of_loop _ behind (by omega) loop with ⟨ends, -, -⟩ | ⟨e, values, -, following, items, rfl⟩
    · exact absurd comma ends
    · have nearer : e.text.length < d.text.length :=
        Nat.lt_of_le_of_lt (Cursor.next_text following) (behind.token (by simp [comma]))
      refine ⟨first :: values, .more item comma following (by omega) items, ?_⟩
      cases items with
      | last => rfl
      | more => rfl
  · rw [beq_eq_false_iff_ne.2 comma, if_neg Bool.false_ne_true] at read
    cases read
    exact ⟨_, .last item comma, rfl⟩

end Script

/-!
## Calls of words

The call of a word is read as that call, and its arguments are the items between the parentheses.
-/

namespace Script

open Read

variable {c d e p q : Cursor} {rules : Rules} {setting : Setting} {level : Nat}

/-! ### Where nothing starts -/

/-- No operand starts with a closing parenthesis or with three dots. -/
theorem assignment_fails {text : String} (here : c.token = .punct text) (closing : text = ")" ∨ text = "...") :
    (grammar (level + 4)).assignment setting c = none := by
  have bare : c.token.isBare = true := by
    rw [here]
    rcases closing with rfl | rfl <;> rfl
  have fails : callRule (grammar (level + 1)) setting c = none := by
    have primary : primaryRule (grammar level) setting c = none := by
      unfold primaryRule
      rw [start_bind, token_bind, here]
      rcases closing with rfl | rfl <;> rfl
    have member : (grammar (level + 1)).member setting c = none := by
      show memberRule (grammar level) setting c = none
      unfold memberRule
      rw [start_bind, bind_apply, primary]
      rfl
    unfold callRule
    rw [start_bind, bind_apply, member]
    rfl
  rw [assignment_eq_call bare (by rw [fails]; exact nofun), fails]

theorem assignment_starts {text : String} {value : Syntax}
    (read : (grammar (level + 4)).assignment setting c = some (value, d)) (closing : text = ")" ∨ text = "...") :
    (c.token == .punct text) = false := by
  rw [beq_eq_false_iff_ne]
  intro here
  rw [assignment_fails here closing] at read
  cases read

/-! ### Calls -/

theorem accesses_end {start : Nat} {object : Syntax} {chained : Bool}
    (ends : c.token.endsOperand = true ∨ c.token = .punct "(") :
    accesses rules setting start object chained c = some ((object, chained), c) := by
  unfold accesses
  rw [repeatFrom_apply]
  refine repeatWithin_done ?_
  dsimp only
  rw [token_bind]
  rcases ends with ends | opens
  · cases token : c.token with
    | finish => rfl
    | punct text =>
        rw [token] at ends
        rcases Bool.or_eq_true_iff.1 ends with closes | separates
        · rw [beq_iff_eq.1 closes]
          rfl
        · rw [beq_iff_eq.1 separates]
          rfl
    | _ =>
        rw [token] at ends
        cases ends
  · rw [opens]
    rfl

/-- One call of a callee, or the end of the calls. -/
def callRound (rules : Rules) (setting : Setting) (start : Nat) :
    Syntax × Bool → Read ((Syntax × Bool) ⊕ (Syntax × Bool)) := fun (callee, chained) => do
  let (callee, chained) ← accesses rules setting start callee chained
  if ← Read.eatPunct "?." then
    let arguments ← argumentsRule rules setting
    return .inl (← Read.finishNode .call start (callee :: arguments), true)
  else if ← Read.atPunct "(" then
    let arguments ← argumentsRule rules setting
    return .inl (← Read.finishNode .call start (callee :: arguments), chained)
  else return .inr (callee, chained)

theorem callRule_eq (rules : Rules) (setting : Setting) : callRule rules setting = (do
    let start ← Read.start
    let callee ← rules.member setting
    let (result, chained) ← Read.repeatFrom callee (callRound rules setting start)
    if chained then Read.finishNode .chain start [result] else return result) := rfl

theorem callRound_end {start : Nat} {callee : Syntax} {chained : Bool} (ends : c.token.endsOperand = true) :
    callRound rules setting start (callee, chained) c = some (.inr (callee, chained), c) := by
  unfold callRound
  dsimp only
  rw [bind_apply, accesses_end (.inl ends), Option.bind_some]
  dsimp only
  rw [eatPunct_absent (Token.ne_of_endsOperand ends rfl), if_neg Bool.false_ne_true, atPunct_bind,
    Token.ne_of_endsOperand ends rfl]
  rfl

theorem callRound_call {start : Nat} {callee : Syntax} {chained : Bool} {arguments : List Syntax}
    (opens : c.token = .punct "(") (read : argumentsRule rules setting c = some (arguments, d)) :
    callRound rules setting start (callee, chained) c =
      some (.inl (.node .call start d.lastStop (callee :: arguments), chained), d) := by
  have other : (c.token == .punct "?.") = false := by
    rw [opens]
    rfl
  unfold callRound
  dsimp only
  rw [bind_apply, accesses_end (.inr opens), Option.bind_some]
  dsimp only
  rw [eatPunct_absent other, if_neg Bool.false_ne_true, atPunct_bind, opens, beq_self_eq_true, if_pos rfl, bind_apply,
    read]
  rfl

/-- An operand without calls. -/
theorem call_of_member {value : Syntax} (read : rules.member setting c = some ((value, false), d))
    (ends : d.token.endsOperand = true) : callRule rules setting c = some (value, d) := by
  rw [callRule_eq, start_bind, bind_apply, read, Option.bind_some]
  dsimp only
  rw [bind_apply, repeatFrom_apply, repeatWithin_done (callRound_end ends)]
  rfl

/-- An operand that is called once. -/
theorem call_of_arguments {callee : Syntax} {arguments : List Syntax}
    (read : rules.member setting c = some ((callee, false), p)) (opens : p.token = .punct "(")
    (passed : argumentsRule rules setting p = some (arguments, d)) (ends : d.token.endsOperand = true) :
    callRule rules setting c = some (.node .call c.start d.lastStop (callee :: arguments), d) := by
  rw [callRule_eq, start_bind, bind_apply, read, Option.bind_some]
  dsimp only
  rw [bind_apply, repeatFrom_apply, repeatWithin_more (callRound_call opens passed),
    repeatWithin_done (callRound_end ends)]
  rfl

/-- The arguments of a call are the items between its parentheses. -/
theorem arguments_of_items {arguments : List Syntax} (opens : c.token = .punct "(") (following : c.next? = some d)
    (items : Items ((grammar (level + 4)).assignment moduleSetting) d arguments e) (closes : e.token = .punct ")")
    (last : e.next? = some q) : argumentsRule (grammar (level + 4)) moduleSetting c = some (arguments, q) := by
  have spread (c : Cursor) (value : Syntax) (d : Cursor)
      (read : (grammar (level + 4)).assignment moduleSetting c = some (value, d)) :
      spreadOr (grammar (level + 4)) moduleSetting c = some (value, d) := by
    unfold spreadOr
    rw [start_bind, eatPunct_absent (assignment_starts read (.inr rfl))]
    exact read
  have listed : Read.elementsUntil ")" (spreadOr (grammar (level + 4)) moduleSetting) d = some ((arguments, false), e) := by
    refine (items.map spread).elementsUntil closes (by decide) fun c value d read => ?_
    rw [beq_eq_false_iff_ne]
    intro here
    have other : (c.token == .punct "...") = false := by
      rw [here]
      rfl
    unfold spreadOr at read
    rw [start_bind, eatPunct_absent other] at read
    exact beq_eq_false_iff_ne.1 (assignment_starts read (.inl rfl)) here
  unfold argumentsRule
  rw [expectPunct_there opens following, bind_apply, listed, Option.bind_some]
  dsimp only
  rw [expectPunct_there closes last]
  rfl

/-! ### Callees and names -/

theorem assignment_of_call {value : Syntax} (bare : c.token.isBare = true)
    (call : callRule (grammar level) setting c = some (value, d)) (ends : d.token.endsOperand = true) :
    (grammar (level + 3)).assignment setting c = some (value, d) := by
  refine (assignment_eq_call bare fun found read => ?_).trans call
  cases call.symm.trans read
  exact ends

theorem member_of_primary {value : Syntax} (read : primaryRule (grammar level) setting c = some (value, d))
    (ends : d.token.endsOperand = true ∨ d.token = .punct "(") :
    (grammar (level + 1)).member setting c = some ((value, false), d) := by
  show memberRule (grammar level) setting c = some ((value, false), d)
  unfold memberRule
  rw [start_bind, bind_apply, read, Option.bind_some, accesses_end ends]

theorem primary_string (here : c.token = .string) (following : c.next? = some d) :
    primaryRule rules setting c = some (.node .atom c.start d.lastStop [], d) := by
  unfold primaryRule
  rw [start_bind, token_bind, here]
  dsimp only
  rw [advance_bind following]
  rfl

theorem primary_word {word : String} (free : isFreeWord word = true) (bare : (Token.name word false).isBare = true)
    (here : c.token = .name word false) (following : c.next? = some d) :
    primaryRule rules setting c = some (.node (.reference word) c.start d.lastStop [], d) := by
  have special (other : String) (standing : (Token.name other false).isBare = false) : (word == other) = false := by
    rw [beq_eq_false_iff_ne]
    rintro rfl
    rw [bare] at standing
    cases standing
  have ordinary (other : String) (reserved : isFreeWord other = false) : (word == other) = false := by
    rw [beq_eq_false_iff_ne]
    rintro rfl
    rw [free] at reserved
    cases reserved
  have identifier : setting.isIdentifier (.name word false) = true := by
    unfold Setting.isIdentifier
    simp only [special "await" rfl, special "yield" rfl, free, Bool.false_eq_true, if_false]
  unfold primaryRule
  rw [start_bind, token_bind, here]
  dsimp only
  unfold wordRule
  rw [start_bind]
  simp only [Bool.not_false, Bool.true_and, List.contains_cons, List.contains_nil, ordinary "this" rfl, ordinary "null" rfl,
    ordinary "true" rfl, ordinary "false" rfl, ordinary "function" rfl, ordinary "class" rfl, ordinary "new" rfl,
    ordinary "import" rfl, ordinary "super" rfl, special "async" rfl, Bool.or_self, Bool.false_and, Bool.false_eq_true,
    if_false, identifier, if_true]
  rw [lookahead_bind, advance_bind following]
  rfl

/-- A call of a word is read, and its arguments are the items between the parentheses. -/
theorem sequence_of_call {word : String} {arguments : List Syntax} (free : isFreeWord word = true)
    (bare : (Token.name word false).isBare = true) (here : c.token = .name word false) (named : c.next? = some p)
    (opens : p.token = .punct "(") (inside : p.next? = some d)
    (items : Items ((grammar (level + 4)).assignment moduleSetting) d arguments e) (closes : e.token = .punct ")")
    (last : e.next? = some q) (ends : q.token = .finish) : sequenceOf (grammar (level + 7)) moduleSetting c =
      some (.node .call c.start q.lastStop (.node (.reference word) c.start p.lastStop [] :: arguments), q) := by
  have finished : q.token.endsOperand = true := by
    rw [ends]
    rfl
  have call := call_of_arguments (member_of_primary (primary_word free bare here named) (.inr opens)) opens
    (arguments_of_items opens inside items closes last) finished
  unfold sequenceOf
  rw [start_bind, bind_apply, assignment_of_call (here ▸ bare) call finished, Option.bind_some]
  dsimp only
  rw [atPunct_bind, ends]
  rfl

end Script

end HtmlTemplate
