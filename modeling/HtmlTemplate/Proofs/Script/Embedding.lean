import HtmlTemplate.CodeModule
import HtmlTemplate.Proofs.Script.Call
import HtmlTemplate.Proofs.Script.Heedless
import HtmlTemplate.Proofs.Text.Telling

/-!
# Expressions in parentheses

Code is written into a module as the last argument of a call or between parentheses. If it reads as one expression
up to a closing parenthesis, it stays that expression there: all of the call is read, and nothing else is.
-/

namespace HtmlTemplate
namespace Script

open Read

variable {c d e : Cursor} {level : Nat}

/-! ## Text that a parenthesis closes -/

/-- The text reads as one expression, and a closing parenthesis behind it is the first token that is left. -/
def Closes (code : List Char) (tree : Syntax) : Prop :=
  parse? (code ++ [')']) = some ⟨tree, [')']⟩

/-- What is read of a text up to the parenthesis that closes it. -/
structure Reading (code : List Char) (tree : Syntax) (first last : Cursor) : Prop where
  begins : (Cursor.before (code ++ [')'])).next? = some first
  lexed : first.Lexed
  read : sequenceOf (grammar (levelFor (code.length + 1))) moduleSetting first = some (tree, last)
  closes : last.token = .punct ")"
  ends : last.rest = []
  size : last.size = code.length + 1
  flawless : last.flawed = false
  finished : tree.hasForm isUnfinished = false

theorem Closes.reading {code : List Char} {tree : Syntax} (closes : Closes code tree) :
    ∃ first last, Reading code tree first last := by
  obtain ⟨first, last, begins, read, flawless, finished, text⟩ := parse_eq_some.1 closes
  have lexed := (Cursor.before_sound _).lexed begins
  have enough := levelFor_enough begins
  obtain ⟨-, behind, size⟩ := sequence_move 0 0 lexed (by omega) read
  rw [List.length_append, List.length_singleton] at read
  have token : token? [')'] = some (.punct ")", []) := by
    rfl
  have standing := behind.read
  rw [text, token] at standing
  obtain ⟨closes, ends⟩ := Prod.mk.inj (Option.some.inj standing)
  refine ⟨first, last, begins, lexed, read, closes.symm, ends.symm, ?_, flawless, finished⟩
  rw [size, Cursor.next_size begins]
  simp [Cursor.before]

/-- Where the first token of a text stands behind a gap, the cursor before it moves on to it. -/
theorem next_token {token : Token} {rest : List Char} (gapless : skipGap .between false c.rest = some (false, c.rest))
    (read : token? c.rest = some (token, rest)) :
    c.next? = some { c with text := c.rest, token, rest, broken := false, lastStop := c.stop } := by
  rw [Cursor.next_eq, gapless, Option.bind_some, read]
  rfl

/-- The cursor at the end of the text, behind its last token. -/
def Cursor.atEnd (c : Cursor) : Cursor :=
  { c with text := [], token := .finish, rest := [], broken := false, lastStop := c.stop }

theorem next_atEnd (ends : c.rest = []) : c.next? = some c.atEnd := by
  have finish : token? c.rest = some (.finish, []) := by
    rw [ends]
    rfl
  rw [next_token (by rw [ends]; rfl) finish, ends]
  rfl

variable {code : List Char} {tree : Syntax} {first last : Cursor} {distance stop : Nat}

/-- Behind an opening parenthesis or a blank the text begins later, and that is all. -/
theorem Reading.next (reading : Reading code tree first last)
    (gap : skipGap .between false c.rest = skipGap .between false (code ++ [')']))
    (size : c.size = code.length + 1 + distance) (flawless : c.flawed = false) :
    c.next? = some { first.move distance with lastStop := c.stop } := by
  have begins := reading.begins
  rw [Cursor.next_eq, Option.bind_eq_some_iff] at begins
  obtain ⟨found, skipped, begins⟩ := begins
  obtain ⟨token, read, rfl⟩ := Option.map_eq_some_iff.1 begins
  rw [Cursor.next_eq, gap, show skipGap .between false (code ++ [')']) = some found from skipped, Option.bind_some,
    Option.map_eq_some_iff]
  refine ⟨token, read, ?_⟩
  simp [Cursor.move, Cursor.before, size, flawless]

theorem Items.heedless {α : Type} {element : Read α} {values : List α} (heedless : Heedless element)
    (items : Items element c values d) : Items element { c with lastStop := stop } values d := by
  cases items with
  | last read ends => exact .last ((heedless c stop).trans read) ends
  | more read comma following shorter items => exact .more ((heedless c stop).trans read) comma following shorter items

/-- The items of the expression, where it stands in another text. -/
theorem Reading.items (distance stop : Nat) (reading : Reading code tree first last)
    (enough : levelFor (code.length + 1) ≤ level) :
    ∃ values, tree = joined first.start last.lastStop values ∧ Items ((grammar level).assignment moduleSetting)
      { first.move distance with lastStop := stop } (move distance values) (last.move distance) := by
  obtain ⟨more, rfl⟩ := Nat.exists_eq_add_of_le enough
  have deep := levelFor_enough reading.begins
  rw [List.length_append, List.length_singleton] at deep
  obtain ⟨values, items, whole⟩ := items_of_sequence reading.lexed (by omega) reading.read
  exact ⟨values, whole, (items.move distance more reading.lexed (by omega)).heedless ((grammar_heedless _).assignment _)⟩

/-- An expression without commas at its top is one item. -/
theorem Reading.single (distance stop : Nat) (reading : Reading code tree first last)
    (enough : levelFor (code.length + 1) ≤ level) (single : tree.form ≠ .sequence) : Items ((grammar level).assignment moduleSetting)
      { first.move distance with lastStop := stop } [move distance tree] (last.move distance) := by
  obtain ⟨values, rfl, items⟩ := reading.items distance stop enough
  match values with
  | [] => exact absurd rfl single
  | [value] => exact items
  | _ :: _ :: _ => exact absurd rfl single

/-! ## Words that are called -/

/-- The word can be called: it is read as a name wherever a parenthesis follows it. -/
structure Callee (word : String) : Prop where
  free : isFreeWord word = true
  bare : (Token.name word false).isBare = true
  gapless (rest : List Char) : skipGap .between false (word.toList ++ rest) = some (false, word.toList ++ rest)
  spelled (rest : List Char) : token? (word.toList ++ '(' :: rest) = some (.name word false, '(' :: rest)

theorem callee_escapeXml : Callee "escapeXml" where
  free := by decide
  bare := by decide
  gapless _ := rfl
  spelled _ := rfl

theorem callee_str : Callee "str" where
  free := by decide
  bare := by decide
  gapless _ := rfl
  spelled _ := rfl

theorem callee_attr : Callee "attr" where
  free := by decide
  bare := by decide
  gapless _ := rfl
  spelled _ := rfl

/-- The cursor on the parenthesis behind a word that is called. -/
def Cursor.opening (word : String) (tail : List Char) : Cursor :=
  { size := word.length + (tail.length + 1), text := '(' :: tail, token := .punct "(", rest := tail, broken := false,
    lastStop := word.length, flawed := false }

/-- A text that calls a word is read to its end as that call. -/
theorem Callee.parse {word : String} {tail : List Char} {arguments : List Syntax} (callee : Callee word)
    (inside : (Cursor.opening word tail).next? = some d)
    (items : Items ((grammar (level + 4)).assignment moduleSetting) d arguments e)
    (enough : levelFor (word.length + (tail.length + 1)) = level + 7) (closes : e.token = .punct ")") (ends : e.rest = [])
    (size : e.size = word.length + (tail.length + 1)) (flawless : e.flawed = false)
    (finished : Syntax.anyHasForm isUnfinished arguments = false) :
    parse? (word.toList ++ '(' :: tail) = some
      ⟨.node .call 0 (word.length + (tail.length + 1)) (.node (.reference word) 0 word.length [] :: arguments), []⟩ := by
  have length : (word.toList ++ '(' :: tail).length = word.length + (tail.length + 1) := by
    rw [List.length_append, String.length_toList, List.length_cons]
  let c : Cursor := { Cursor.before (word.toList ++ '(' :: tail) with token := .name word false, rest := '(' :: tail }
  have named : (Cursor.before (word.toList ++ '(' :: tail)).next? = some c := by
    rw [next_token (callee.gapless _) (callee.spelled tail)]
    simp [c, Cursor.before, Cursor.stop]
  have opened : c.next? = some (Cursor.opening word tail) := by
    have parenthesis : token? c.rest = some (.punct "(", tail) := rfl
    rw [next_token rfl parenthesis]
    simp [c, Cursor.before, Cursor.stop, Cursor.opening, length]
  have read := sequence_of_call callee.free callee.bare rfl opened rfl inside items closes (next_atEnd ends) rfl
  refine parse_eq_some.2 ⟨c, e.atEnd, named, ?_, flawless, ?_, rfl⟩
  · rw [length, enough, read]
    simp [c, Cursor.start, Cursor.before, Cursor.stop, Cursor.opening, Cursor.atEnd, ends, size]
  · simp [Syntax.hasForm, Syntax.anyHasForm, isUnfinished, finished]

/-! ## Names of attributes -/

open Text (jsonChar jsonString isHexDigit hexPadded_control)

theorem stringTail_plain {c : Char} {rest : List Char} (plain : c ∉ ['"', '\\', '\n', '\r']) :
    stringTail '"' (c :: rest) = stringTail '"' rest := by
  simp only [List.mem_cons, List.not_mem_nil, or_false, not_or] at plain
  obtain ⟨quote, backslash, feed, carriage⟩ := plain
  rw [stringTail]
  · simp only [beq_eq_false_iff_ne.2 quote, beq_eq_false_iff_ne.2 feed, beq_eq_false_iff_ne.2 carriage, Bool.or_self,
      Bool.false_eq_true, if_false]
  · exact fun _ same _ => backslash same
  · exact fun _ _ same _ => backslash same

theorem isHexDigit_plain : ∀ c ∈ ['"', '\\', '\n', '\r'], isHexDigit c = false := by
  rw [List.forall_mem_cons, List.forall_mem_cons, List.forall_mem_cons, List.forall_mem_singleton]
  decide

/-- The written form of a character is passed in a string literal. -/
theorem stringTail_jsonChar (c : Char) (rest : List Char) : stringTail '"' (jsonChar c ++ rest) = stringTail '"' rest := by
  unfold jsonChar
  split_ifs with quote backslash _ _ feed carriage _ small
  rotate_left 7
  · obtain ⟨a, b, written, -, digits⟩ := hexPadded_control c.toNat small
    have all : ['0', '0', a, b].all isHexDigit = true := digits
    have code : codePoint? ('0' :: '0' :: a :: b :: rest) = some (Text.hexNumber ['0', '0', a, b], rest) :=
      if_pos all
    have digit {d : Char} (member : d ∈ ['0', '0', a, b]) : d ∉ ['"', '\\', '\n', '\r'] := fun special => by
      have fails := isHexDigit_plain d special
      rw [List.all_eq_true.1 all d member] at fails
      cases fails
    have escape : isEscape false 'u' ('0' :: '0' :: a :: b :: rest) = true := by
      show (codePoint? ('0' :: '0' :: a :: b :: rest)).isSome = true
      rw [code]
      rfl
    rw [written]
    show (if isEscape false 'u' ('0' :: '0' :: a :: b :: rest) then stringTail '"' ('0' :: '0' :: a :: b :: rest)
      else none) = _
    rw [if_pos escape, stringTail_plain (by decide), stringTail_plain (by decide), stringTail_plain (digit (by simp)),
      stringTail_plain (digit (by simp))]
  · exact stringTail_plain (by simp_all)
  all_goals rfl

/-- A quoted text is a string literal. -/
theorem token_jsonString (value : String) (rest : List Char) :
    token? ((jsonString value).toList ++ rest) = some (.string, rest) := by
  have passed (text : List Char) : stringTail '"' (text.flatMap jsonChar ++ '"' :: rest) = some rest := by
    induction text with
    | nil => rfl
    | cons c text hypothesis => rw [List.flatMap_cons, List.append_assoc, stringTail_jsonChar, hypothesis]
  simp only [jsonString, String.toList_ofList, List.cons_append, List.append_assoc, List.nil_append]
  exact congrArg (Option.map _) (passed value.toList)

/-! ## The expression where it is written -/

theorem Reading.unfinished_move (reading : Reading code tree first last) (distance : Nat) :
    (move distance tree).hasForm isUnfinished = false :=
  (Syntax.hasForm_move isUnfinished tree).trans reading.finished

/-- Code between the parentheses of a call is its argument, and the only one. -/
theorem Reading.parse_call {word : String} (callee : Callee word) (reading : Reading code tree first last)
    (single : tree.form ≠ .sequence) : parse? (word.toList ++ '(' :: (code ++ [')'])) = some
      ⟨.node .call 0 (word.length + (code.length + 2))
        [.node (.reference word) 0 word.length [], move (word.length + 1) tree], []⟩ := by
  have length : (code ++ [')']).length = code.length + 1 := by
    simp
  have size : (Cursor.opening word (code ++ [')'])).size = code.length + 1 + (word.length + 1) := by
    simp only [Cursor.opening, length]
    omega
  obtain ⟨level, enough⟩ : ∃ level, levelFor (word.length + ((code ++ [')']).length + 1)) = level + 7 :=
    Nat.exists_eq_add_of_le' (by unfold levelFor; omega)
  have deep : levelFor (code.length + 1) ≤ level + 4 := by
    unfold levelFor at enough ⊢
    omega
  have items := reading.single (word.length + 1) (Cursor.opening word (code ++ [')'])).stop deep single
  have total : (last.move (word.length + 1)).size = word.length + ((code ++ [')']).length + 1) := by
    show last.size + (word.length + 1) = _
    rw [reading.size, length]
    omega
  have finished := Bool.or_eq_false_iff.2 ⟨reading.unfinished_move (word.length + 1), rfl⟩
  have whole := callee.parse (reading.next rfl size rfl) items enough reading.closes reading.ends total reading.flawless
    finished
  rwa [length] at whole

/-- Code behind a string and a comma is the second of two items. -/
theorem Reading.second (reading : Reading code tree first last) (enough : levelFor (code.length + 1) ≤ level + 4)
    (single : tree.form ≠ .sequence) (here : c.token = .string) (rest : c.rest = ',' :: ' ' :: (code ++ [')']))
    (size : c.size = code.length + 1 + distance) (flawless : c.flawed = false)
    (longer : code.length + 1 < c.text.length) : Items ((grammar (level + 4)).assignment moduleSetting) c
      [.node .atom c.start c.stop [], move distance tree] (last.move distance) := by
  let comma : Cursor := { c with
    text := c.rest, token := .punct ",", rest := ' ' :: (code ++ [')']), broken := false, lastStop := c.stop }
  have separated : c.next? = some comma := by
    have read : token? c.rest = some (.punct ",", ' ' :: (code ++ [')'])) := by
      rw [rest]
      rfl
    exact next_token (by rw [rest]; rfl) read
  have member : (grammar (level + 1)).member moduleSetting c = some ((.node .atom c.start c.stop [], false), comma) :=
    member_of_primary (primary_string here separated) (.inl rfl)
  have item := assignment_of_call (by rw [here]; rfl) (call_of_member member rfl) rfl
  have shorter : first.text.length < c.text.length := by
    have near := Cursor.next_text reading.begins
    rw [Cursor.before, List.length_append, List.length_singleton] at near
    omega
  exact .more item rfl (reading.next rfl size flawless) shorter (reading.single distance comma.stop enough single)

/-- Code behind the name of an attribute is the last argument of the call. -/
theorem Reading.parse_attr (reading : Reading code tree first last) (single : tree.form ≠ .sequence) (name : String) :
    parse? ("attr".toList ++ '(' :: ((jsonString name).toList ++ ',' :: ' ' :: (code ++ [')']))) = some
      ⟨.node .call 0 ((jsonString name).length + (code.length + 8))
        [.node (.reference "attr") 0 4 [], .node .atom 5 ((jsonString name).length + 5) [],
          move ((jsonString name).length + 7) tree], []⟩ := by
  generalize source : (jsonString name).toList ++ ',' :: ' ' :: (code ++ [')']) = tail
  have length : tail.length = (jsonString name).length + (code.length + 3) := by
    rw [← source]
    simp [String.length_toList]
  have gapless : skipGap .between false tail = some (false, tail) := by
    rw [← source]
    simp only [jsonString, String.toList_ofList, List.cons_append]
    rfl
  have read : token? tail = some (.string, ',' :: ' ' :: (code ++ [')'])) := by
    rw [← source]
    exact token_jsonString name _
  let key : Cursor := { Cursor.opening "attr" tail with
    text := tail, token := .string, rest := ',' :: ' ' :: (code ++ [')']), broken := false
    lastStop := (Cursor.opening "attr" tail).stop }
  have opened : (Cursor.opening "attr" tail).next? = some key := next_token gapless read
  obtain ⟨level, enough⟩ : ∃ level, levelFor ("attr".length + (tail.length + 1)) = level + 7 :=
    Nat.exists_eq_add_of_le' (by unfold levelFor; omega)
  have deep : levelFor (code.length + 1) ≤ level + 4 := by
    unfold levelFor at enough ⊢
    omega
  have four : "attr".length = 4 := rfl
  have total : (last.move ((jsonString name).length + 7)).size = "attr".length + (tail.length + 1) := by
    show last.size + ((jsonString name).length + 7) = _
    rw [reading.size, length, four]
    omega
  have size : (Cursor.opening "attr" tail).size = code.length + 1 + ((jsonString name).length + 7) := by
    show "attr".length + (tail.length + 1) = _
    rw [length, four]
    omega
  have longer : code.length + 1 < tail.length := by
    omega
  have items := reading.second (c := key) deep single rfl rfl size rfl longer
  have finished := Bool.or_eq_false_iff.2 ⟨reading.unfinished_move ((jsonString name).length + 7), rfl⟩
  have whole := callee_attr.parse opened items enough reading.closes reading.ends total reading.flawless finished
  have starts : key.start = 5 := by
    show "attr".length + (tail.length + 1) - tail.length = 5
    omega
  have stops : key.stop = (jsonString name).length + 5 := by
    show "attr".length + (tail.length + 1) - (',' :: ' ' :: (code ++ [')'])).length = _
    simp only [List.length_cons, List.length_append, List.length_nil, four, length]
    omega
  have all : "attr".length + (tail.length + 1) = (jsonString name).length + (code.length + 8) := by
    omega
  rwa [starts, stops, all] at whole

/-! ## Heads of statements -/

/-- The reader reads the text to its end, as the tree. -/
def ReadsAs (reader : Rules → Setting → Read Syntax) (text : List Char) (tree : Syntax) : Prop :=
  ∃ first last, (Cursor.before text).next? = some first ∧
    reader (grammar (levelFor text.length)) moduleSetting first = some (tree, last) ∧ last.text = [] ∧ last.flawed = false

theorem next_opening (tail : List Char) : (Cursor.before ('(' :: tail)).next? = some (Cursor.opening "" tail) := by
  have read : token? ('(' :: tail) = some (.punct "(", tail) := rfl
  rw [next_token (c := Cursor.before ('(' :: tail)) rfl read]
  simp [Cursor.before, Cursor.opening, Cursor.stop]

/-- Behind the opening parenthesis the expression is read by rules of a higher level. -/
theorem Reading.inGroup (reading : Reading code tree first last) :
    levelFor (code.length + 1) ≤ levelFor ('(' :: (code ++ [')'])).length ∧
      (Cursor.opening "" (code ++ [')'])).next? =
        some { first.move 1 with lastStop := (Cursor.opening "" (code ++ [')'])).stop } ∧
      (last.move 1).next? = some (last.move 1).atEnd := by
  refine ⟨?_, reading.next rfl ?_ rfl, next_atEnd reading.ends⟩
  · unfold levelFor
    simp only [List.length_cons, List.length_append, List.length_nil]
    omega
  · simp [Cursor.opening, Nat.add_comm]

/-- Code between the parentheses behind the word of a statement is the expression that the statement asks for. -/
theorem Reading.readsAs_headExpression (reading : Reading code tree first last) :
    ReadsAs headExpression ('(' :: (code ++ [')'])) (move 1 tree) := by
  obtain ⟨higher, inside, leaves⟩ := reading.inGroup
  obtain ⟨more, enough⟩ := Nat.exists_eq_add_of_le higher
  have deep := levelFor_enough reading.begins
  rw [List.length_append, List.length_singleton] at deep
  obtain ⟨moved, -, -⟩ := sequence_move 1 more reading.lexed (by omega) reading.read
  have heedless : Heedless (sequenceOf (grammar (levelFor (code.length + 1) + more)) moduleSetting) :=
    .start fun _ => ((grammar_heedless _).assignment moduleSetting).bind
  refine ⟨_, (last.move 1).atEnd, next_opening _, ?_, rfl, reading.flawless⟩
  rw [enough]
  unfold headExpression
  rw [expectPunct_there rfl inside, bind_apply]
  show ((sequenceOf (grammar _) moduleSetting { first.move 1 with lastStop := _ }).bind _) = _
  rw [heedless, moved, Option.bind_some]
  exact expectPunct_there (c := last.move 1) reading.closes leaves _

theorem joined_move (start stop distance : Nat) (values : List Syntax) :
    move distance (joined start stop values) = joined (start + distance) (stop + distance) (move distance values) := by
  match values with
  | [] => exact Syntax.move_node _ _ _ _
  | [_] => rfl
  | _ :: _ :: _ => exact Syntax.move_node _ _ _ _

/-- Code between parentheses in an expression is grouped. -/
theorem Reading.readsAs_groupRule (reading : Reading code tree first last) :
    ReadsAs groupRule ('(' :: (code ++ [')'])) (.node .group 0 (code.length + 2) [move 1 tree]) := by
  obtain ⟨higher, inside, leaves⟩ := reading.inGroup
  obtain ⟨values, rfl, items⟩ := reading.items 1 (Cursor.opening "" (code ++ [')'])).stop higher
  obtain ⟨level, enough⟩ : ∃ level, levelFor ('(' :: (code ++ [')'])).length = level + 4 :=
    Nat.exists_eq_add_of_le' (by unfold levelFor; omega)
  rw [enough] at items
  have listed : Read.elementsUntil ")" ((grammar (level + 4)).assignment moduleSetting) _ = _ :=
    items.elementsUntil reading.closes (by decide) fun _ _ _ read => assignment_starts read (.inl rfl)
  have grouped (inner : Syntax) : (Read.expectPunct ")" >>= fun _ => Read.finishNode .group 0 [inner]) (last.move 1) =
      some (.node .group 0 (code.length + 2) [inner], (last.move 1).atEnd) := by
    rw [expectPunct_there (c := last.move 1) reading.closes leaves]
    show some (Syntax.node .group 0 (last.size + 1 - last.rest.length) [inner], _) = _
    rw [reading.size, reading.ends]
    rfl
  have starts : (Cursor.opening "" (code ++ [')'])).start = 0 := by
    simp [Cursor.opening, Cursor.start]
  refine ⟨_, (last.move 1).atEnd, next_opening _, ?_, rfl, reading.flawless⟩
  rw [enough]
  unfold groupRule
  rw [start_bind, expectPunct_there rfl inside, start_bind, bind_apply]
  show Option.bind (Read.elementsUntil ")" ((grammar (level + 4)).assignment moduleSetting) _) _ = _
  rw [listed, Option.bind_some, starts, joined_move, ← reading.lexed.start_move]
  match values, items with
  | [_], _ => exact grouped _
  | _ :: _ :: _, _ => exact grouped _

end Script

/-! ## The code that is generated -/

open Script (Closes ReadsAs move)

/-- The layout writes the value of a call of the word: what it writes reads as that call, to its end. -/
def Layout.WritesCall (layout : Layout) (word : String) (arguments : List Script.Syntax) : Prop :=
  ∃ text, layout = .line ("out.w(" ++ text ++ ");") ∧ Script.parse? text.toList = some
    ⟨.node .call 0 text.length (.node (.reference word) 0 word.length [] :: arguments), []⟩

/-- The word that is called with the code of a placeholder. -/
def Fragment.writer (escape : Bool) : String :=
  if escape then "escapeXml" else "str"

theorem Fragment.writesCall_write {code : String} {tree : Script.Syntax} (closes : Closes code.toList tree)
    (single : tree.form ≠ .sequence) (escape : Bool) : ∃ line, (Fragment.write code escape).layout = [line] ∧
      line.WritesCall (writer escape) [move ((writer escape).length + 1) tree] := by
  obtain ⟨first, last, reading⟩ := closes.reading
  have callee : Script.Callee (writer escape) := by
    cases escape with
    | true => exact Script.callee_escapeXml
    | false => exact Script.callee_str
  have text : (writer escape ++ "(" ++ code ++ ")").toList = (writer escape).toList ++ '(' :: (code.toList ++ [')']) := by
    simp
  have length : (writer escape ++ "(" ++ code ++ ")").length = (writer escape).length + (code.toList.length + 2) := by
    rw [← String.length_toList, text]
    simp [← String.length_toList]
  refine ⟨_, rfl, writer escape ++ "(" ++ code ++ ")", ?_, ?_⟩
  · refine congrArg Layout.line (String.toList_inj.1 ?_)
    simp [writer]
  · rw [text, length]
    exact reading.parse_call callee single

theorem WrittenAttribute.writesCall {code : String} {tree : Script.Syntax} (closes : Closes code.toList tree)
    (single : tree.form ≠ .sequence) (name : String) : ∃ key, key.form = .atom ∧
      (WrittenAttribute.layout ⟨name, .dynamic code⟩).WritesCall "attr"
        [key, move ((Text.jsonString name).length + 7) tree] := by
  obtain ⟨first, last, reading⟩ := closes.reading
  have text : ("attr(" ++ Text.jsonString name ++ ", " ++ code ++ ")").toList =
      "attr".toList ++ '(' :: ((Text.jsonString name).toList ++ ',' :: ' ' :: (code.toList ++ [')'])) := by
    simp
  have length : ("attr(" ++ Text.jsonString name ++ ", " ++ code ++ ")").length =
      (Text.jsonString name).length + (code.toList.length + 8) := by
    rw [← String.length_toList, text]
    simp [← String.length_toList]
    omega
  refine ⟨.node .atom 5 ((Text.jsonString name).length + 5) [], rfl,
    "attr(" ++ Text.jsonString name ++ ", " ++ code ++ ")", ?_, ?_⟩
  · refine congrArg Layout.line (String.toList_inj.1 ?_)
    simp
  · rw [text, length]
    exact reading.parse_attr single name

/--
Code that reads as one expression up to a closing parenthesis stays that expression where it is written. If it has
no comma at its top, it is the last argument of the call that writes a placeholder or an attribute; and it is what
stands between the parentheses of the head of a branch and of the list of a loop.
-/
theorem Code.stays_whole {code : String} {tree : Script.Syntax} (closes : Closes code.toList tree) :
    (tree.form ≠ .sequence →
      (∀ escape, ∃ line, (Fragment.write code escape).layout = [line] ∧
        line.WritesCall (Fragment.writer escape) [move ((Fragment.writer escape).length + 1) tree]) ∧
      ∀ name, ∃ key, key.form = .atom ∧ (WrittenAttribute.layout ⟨name, .dynamic code⟩).WritesCall "attr"
        [key, move ((Text.jsonString name).length + 7) tree]) ∧
    (∀ first, ∃ before text, Fragment.branchHead first (some code) = before ++ "if " ++ text ++ " \x7b" ∧
      ReadsAs Script.headExpression text.toList (move 1 tree)) ∧
    ∀ item index list body, ∃ text after,
      .line ("for (" ++ list ++ " = " ++ text ++ " || [], " ++ after) ∈ (Fragment.loop item index list code body).layout ∧
        ReadsAs Script.groupRule text.toList (.node .group 0 (code.length + 2) [move 1 tree]) := by
  obtain ⟨first, last, reading⟩ := closes.reading
  have text : ("(" ++ code ++ ")").toList = '(' :: (code.toList ++ [')']) := by
    simp
  refine ⟨fun single => ⟨Fragment.writesCall_write closes single, WrittenAttribute.writesCall closes single⟩, ?_, ?_⟩
  · intro first
    refine ⟨if first then "" else "\x7d else ", "(" ++ code ++ ")", String.toList_inj.1 ?_, ?_⟩
    · cases first <;> simp [Fragment.branchHead]
    · rw [text]
      exact reading.readsAs_headExpression
  · intro item index list body
    have head : "for (" ++ list ++ " = (" ++ code ++ ") || [], " ++ index ++ " = 0; " ++ index ++ " < " ++ list ++
        ".length; " ++ index ++ "++) \x7b" = "for (" ++ list ++ " = " ++ ("(" ++ code ++ ")") ++ " || [], " ++
        (index ++ " = 0; " ++ index ++ " < " ++ list ++ ".length; " ++ index ++ "++) \x7b") :=
      String.toList_inj.1 (by simp)
    refine ⟨"(" ++ code ++ ")", _, List.mem_cons_of_mem _ (List.mem_cons.2 (.inl (congrArg Layout.line head.symm))), ?_⟩
    rw [text, ← String.length_toList]
    exact reading.readsAs_groupRule

/-- An access is read where it is written to the output. -/
theorem Code.stays_whole_access : ∃ tree, tree.form = .member ∧ Closes "user.name".toList tree ∧
    ∃ line, (Fragment.write "user.name" true).layout = [line] ∧ line.WritesCall "escapeXml" [move 10 tree] := by
  have reads : (Script.parse? ("user.name".toList ++ [')'])).map (fun found => (found.tree.form, found.rest)) =
      some (.member, [')']) := by
    decide +kernel
  obtain ⟨⟨tree, rest⟩, closes, same⟩ := Option.map_eq_some_iff.1 reads
  obtain ⟨form, rfl⟩ := Prod.mk.inj same
  have single : tree.form ≠ .sequence := by
    rw [form]
    decide
  exact ⟨tree, form, closes, ((stays_whole closes).1 single).1 true⟩

/-- Two words are accepted for the sake of the first, and make no call where they are written. -/
theorem Code.stays_whole_words : (Code.check "a b").isOk = true ∧
    (Fragment.write "a b" true).layout = [.line ("out.w(" ++ "escapeXml(a b)" ++ ");")] ∧
    (Script.parse? "escapeXml(a b)".toList).isSome = false := by
  refine ⟨by decide +kernel, rfl, by decide +kernel⟩

end HtmlTemplate
