import HtmlTemplate.Proofs.Script.Grammar.Statement
import HtmlTemplate.Proofs.Text.Space
import HtmlTemplate.Value

/-!
# Expressions between the braces of a placeholder

The search for the brace that closes a placeholder is no reader of JavaScript: it knows nothing of comments and
regular expressions, and nothing of strings, templates and braces inside the substitutions of a template. An
expression in which none of these leads it astray is found whole, whatever else it is made of.
-/

namespace HtmlTemplate
namespace Script

open Placeholder

/-! ## Where the search may be led astray -/

/--
Code begins at the text: at the start of the whole, or where the search sees a substitution begin in the code
around it. The depths are those of the braces in which the substitutions stand, innermost first.
-/
inductive Enters (whole : List Char) : List Nat → List Char → Prop
  | whole : Enters whole [] whole
  | substitution {depths : List Nat} {depth : Nat} {code before more : List Char} (enters : Enters whole depths code)
      (source : code = before ++ more) (opens : ['$', '\x7b'] <:+ before)
      (leads : Passes before .code 1 (.template 1) (depth + 1)) : Enters whole (depth :: depths) more

/-- The text of a substitution and its closing brace lead the search back into the template. -/
def SubstitutionText (inside : List Char) : Prop :=
  ∀ depth, Passes (inside ++ ['\x7d']) (.template 1) depth (.template 0) depth

/-- The search is not led astray by what it does not know. -/
structure Legible (whole : List Char) : Prop where
  /-- Comments lead it back to the code that they stand in. -/
  comment {depths : List Nat} {depth : Nat} {code before more rest : List Char} {broken broken' : Bool}
    (enters : Enters whole depths code) (source : code = before ++ '/' :: more)
    (leads : Passes before .code 1 .code (depth + 1))
    (skipped : skipGap .between broken ('/' :: more) = some (broken', rest)) : Behind Skips ('/' :: more) rest
  /-- So does what can be read as a regular expression. -/
  pattern {depths : List Nat} {depth : Nat} {code before more rest : List Char}
    (enters : Enters whole depths code) (source : code = before ++ '/' :: more)
    (leads : Passes before .code 1 .code (depth + 1)) (read : pattern? more = some rest) :
    Behind Skips ('/' :: more) rest
  /-- The code of a substitution, up to its closing brace, leads it back into the template. -/
  substitution {depths : List Nat} {depth : Nat} {code inside rest : List Char}
    (enters : Enters whole (depth :: depths) code) (closed : closeBrace .code 1 code = some (inside, rest)) :
    SubstitutionText inside

variable {whole code inside rest text part : List Char} {depths : List Nat} {depth : Nat} {c d : Cursor}

/-- One more character before a substitution's text that neither is a brace nor hides one. -/
theorem SubstitutionText.cons {c : Char} (substitution : SubstitutionText inside) (opening : '\x7b' ∉ inside)
    (notBackslash : c ≠ '\\') (notBrace : c ≠ '\x7d') : SubstitutionText (c :: inside) := by
  intro depth
  refine (substitution depth).plainInTemplate (fun _ => Nat.one_ne_zero) (fun same => absurd same notBrace) notBackslash
    fun _ => ?_
  cases inside with
  | nil => exact ⟨'\x7d', [], rfl, by decide⟩
  | cons d inside => exact ⟨d, inside ++ ['\x7d'], rfl, fun same => opening (same ▸ List.mem_cons_self)⟩

/-- The same when the search reads on behind the character. -/
theorem SubstitutionText.read {surroundings : Placeholder.Surroundings} {c : Char}
    (closed : (closeBrace surroundings depth text).map (fun (inside, after) => (c :: inside, after)) = some (inside, rest))
    (opening : '\x7b' ∉ inside) (closing : '\x7d' ∉ inside) (hides : ∀ d more, c = '\\' → text = d :: more → False)
    (hypothesis : ∀ {inside}, closeBrace surroundings depth text = some (inside, rest) → '\x7b' ∉ inside →
      '\x7d' ∉ inside → SubstitutionText inside) : SubstitutionText inside := by
  obtain ⟨⟨tail, after⟩, found, same⟩ := Option.map_eq_some_iff.1 closed
  cases same
  obtain ⟨-, opening⟩ := not_or.1 (mt List.mem_cons.2 opening)
  obtain ⟨notBrace, closing⟩ := not_or.1 (mt List.mem_cons.2 closing)
  refine (hypothesis found opening closing).cons opening ?_ (Ne.symm notBrace)
  rintro rfl
  cases text with
  | nil => cases surroundings <;> cases found
  | cons d more => exact hides d more rfl rfl

/-- A substitution without braces is no danger, whatever strings and templates are in it. -/
theorem substitutionText_of_braceless {surroundings : Placeholder.Surroundings}
    (closed : closeBrace surroundings depth text = some (inside, rest)) (opening : '\x7b' ∉ inside)
    (closing : '\x7d' ∉ inside) : SubstitutionText inside := by
  fun_induction closeBrace surroundings depth text generalizing inside with
  | case1 => cases closed
  | case2 surroundings depth c text hypothesis =>
      obtain ⟨⟨tail, after⟩, found, same⟩ := Option.map_eq_some_iff.1 closed
      cases same
      have beyond {brace : Char} (absent : brace ∉ '\\' :: c :: tail) : brace ∉ tail := fun member =>
        absent (List.mem_cons_of_mem _ (List.mem_cons_of_mem _ member))
      exact fun depth => passes_escape.append (hypothesis found (beyond opening) (beyond closing) depth)
  | case3 depth substitutions text hypothesis =>
      obtain ⟨⟨tail, after⟩, found, same⟩ := Option.map_eq_some_iff.1 closed
      cases same
      exact absurd (List.mem_cons_of_mem _ List.mem_cons_self) opening
  | case4 quote depth c text hides hypothesis => exact .read closed opening closing hides hypothesis
  | case5 substitutions depth c text hides =>
      rename_i hypothesis
      exact .read closed opening closing hides hypothesis
  | case6 =>
      cases closed
      exact fun depth => passes_substitutionEnd
  | case7 depth c text hides =>
      rename_i hypothesis
      exact .read closed opening closing hides hypothesis

/-- Where code begins, an end of the whole text is left. -/
theorem Enters.suffix (enters : Enters whole depths code) : code <:+ whole := by
  induction enters with
  | whole => exact List.suffix_refl whole
  | substitution _ source _ _ hypothesis => exact (source ▸ List.suffix_append _ _).trans hypothesis

/-- The code of a substitution begins right behind its mark. -/
theorem Enters.behindMark (enters : Enters whole (depth :: depths) code) :
    ∃ before, whole = before ++ code ∧ ['$', '\x7b'] <:+ before := by
  cases enters with
  | substitution around source opens =>
      obtain ⟨start, rfl⟩ := around.suffix
      exact ⟨_, by rw [source, List.append_assoc], opens.trans (List.suffix_append start _)⟩

/-- A text without slashes is legible if the search finds no brace in any substitution. -/
theorem legible_of_slashless (slashless : '/' ∉ whole)
    (braceless : ∀ n ≤ whole.length, ['$', '\x7b'] <:+ whole.take n →
      ∀ found ∈ closeBrace .code 1 (whole.drop n), '\x7b' ∉ found.1 ∧ '\x7d' ∉ found.1) : Legible whole where
  comment enters source _ _ :=
    absurd (enters.suffix.mem (source ▸ List.mem_append_right _ List.mem_cons_self)) slashless
  pattern enters source _ _ :=
    absurd (enters.suffix.mem (source ▸ List.mem_append_right _ List.mem_cons_self)) slashless
  substitution {_ _ code inside rest} enters closed := by
    obtain ⟨before, source, opens⟩ := enters.behindMark
    have within : before.length ≤ whole.length := by
      rw [source, List.length_append]
      exact Nat.le_add_right _ _
    have clean := braceless before.length within (by rwa [source, List.take_left]) (inside, rest)
      (by rwa [source, List.drop_left])
    exact substitutionText_of_braceless closed clean.1 clean.2

/-! ## The account of the search -/

/-- The search stands at the text in the code that a stack of depths leads to. -/
def Follows (whole : List Char) (station : Nat × List Nat) (text : List Char) : Prop :=
  ∃ code before, Enters whole station.2 code ∧ code = before ++ text ∧ Passes before .code 1 .code (station.1 + 1)

theorem Follows.skip (follows : Follows whole (depth, depths) (part ++ text)) (skips : Skips part) :
    Follows whole (depth, depths) text := by
  obtain ⟨code, before, enters, source, leads⟩ := follows
  refine ⟨code, before ++ part, enters, by rw [source, List.append_assoc], ?_⟩
  exact leads.append (skips _ (Nat.succ_pos depth))

theorem Follows.behind (follows : Follows whole (depth, depths) text) (behind : Behind Skips text rest) :
    Follows whole (depth, depths) rest := by
  obtain ⟨part, rfl, skips⟩ := behind
  exact follows.skip skips

/-- A gap in legible code is passed. -/
theorem Follows.gap {before broken : Bool} (legible : Legible whole) (follows : Follows whole (depth, depths) text)
    (skipped : skipGap .between before text = some (broken, rest)) : Follows whole (depth, depths) rest := by
  refine follows.behind (behind_gap (fun blanks more between source unmarked goesOn => ?_) skipped)
  subst source
  obtain ⟨code, before, enters, source, leads⟩ := follows.skip (skips_unmarked unmarked)
  exact legible.comment enters source leads goesOn

theorem Follows.open (follows : Follows whole (depth, depths) ('\x7b' :: text)) :
    Follows whole (depth + 1, depths) text := by
  obtain ⟨code, before, enters, source, leads⟩ := follows
  exact ⟨code, before ++ ['\x7b'], enters, by rw [source, List.append_cons], leads.append passes_open⟩

theorem Follows.close (follows : Follows whole (depth + 1, depths) ('\x7d' :: text)) :
    Follows whole (depth, depths) text := by
  obtain ⟨code, before, enters, source, leads⟩ := follows
  exact ⟨code, before ++ ['\x7d'], enters, by rw [source, List.append_cons], leads.append (passes_close (Nat.succ_pos _))⟩

/-- A piece of a template up to a substitution leads to the code of it. -/
theorem Follows.enter {code before : List Char} (enters : Enters whole depths code)
    (source : code = before ++ (part ++ text)) (piece : PieceText false part)
    (leads : Passes before .code 1 (.template 0) (depth + 1)) : Follows whole (0, depth :: depths) text := by
  have joined : code = before ++ part ++ text := by
    rw [source, List.append_assoc]
  have opens : ['$', '\x7b'] <:+ before ++ part := (piece.opens rfl).trans (List.suffix_append before part)
  exact ⟨text, [], .substitution enters joined opens (leads.append (piece.passes _)), rfl, passes_nil⟩

/-- The same for a closed piece. -/
theorem Follows.leave {code before : List Char} (enters : Enters whole depths code)
    (source : code = before ++ (part ++ text)) (piece : PieceText true part)
    (leads : Passes before .code 1 (.template 0) (depth + 1)) : Follows whole (depth, depths) text :=
  ⟨code, before ++ part, enters, by rw [source, List.append_assoc], leads.append (piece.passes _)⟩

/-- A brace that ends a substitution leads back into the template that it stands in. -/
theorem Follows.resume (legible : Legible whole) (follows : Follows whole (0, depth :: depths) ('\x7d' :: text)) :
    ∃ code before, Enters whole depths code ∧ code = before ++ text ∧
      Passes before .code 1 (.template 0) (depth + 1) := by
  obtain ⟨code, inside, enters, source, leads⟩ := follows
  have closed : closeBrace .code 1 code = some (inside, text) := by
    rw [source, leads, closeBrace]
    · simp
    · exact fun _ _ same _ => absurd same (by decide)
  have back := legible.substitution enters closed (depth + 1)
  cases enters with
  | substitution around origin _ begins =>
      exact ⟨_, _, around, by rw [origin, source]; simp, begins.append back⟩

theorem punctuators_unmarked : ∀ text ∈ punctuators, (Token.punct text).isPlain = true → Unmarked text.toList := by
  decide

/-- A token that is no brace and opens no substitution leads the search back. -/
theorem skips_of_isPlain {token : Token} (plain : token.isPlain = true) (spelled : Spelled token part) : Skips part := by
  cases token with
  | finish => cases plain
  | punct text =>
      obtain ⟨listed, rfl⟩ := spelled
      exact skips_unmarked (punctuators_unmarked text listed plain)
  | template closed wellFormed =>
      obtain ⟨piece, rfl, spelled⟩ := spelled
      obtain rfl : closed = true := plain
      exact fun depth _ => passes_backquote.append (spelled.passes depth)
  | name text escaped => exact spelled.2
  | privateName => exact spelled.2
  | number => exact spelled.2
  | string => exact spelled.2
  | pattern => exact spelled.2

/-- The cursor stands where the search has come to. -/
structure Stands (whole : List Char) (station : Nat × List Nat) (c : Cursor) : Prop extends c.Lexed where
  follows : Follows whole station c.text

theorem Stands.ofNext {station : Nat × List Nat} (legible : Legible whole) (sound : c.Sound)
    (follows : Follows whole station c.rest) (next : c.next? = some d) : Stands whole station d :=
  { sound.lexed next with follows := follows.gap legible (Cursor.next_spec next).1 }

/-- The slash that a regular expression starts with. -/
theorem startsWithSlash (lexed : c.Lexed) (slash : c.token = .punct "/" ∨ c.token = .punct "/=") :
    c.text = '/' :: c.text.drop 1 := by
  rcases slash with divides | assigns
  · rw [lexed.punct divides]
    rfl
  · rw [lexed.punct assigns]
    rfl

/-- The search for the closing brace beside a reader of legible text. -/
def enclosure (legible : Legible whole) : Account where
  distance := 0
  Station := Nat × List Nat
  At station c := Stands whole station c
  inBraces station := (station.1 + 1, station.2)
  inSubstitution station := (0, station.1 :: station.2)
  sound stands := stands.toSound
  flawed stands := ⟨⟨⟨stands.text, stands.rest, stands.token⟩, stands.read⟩, stands.follows⟩
  plain stands plain next := by
    obtain ⟨part, source, spelled⟩ := behind_token stands.read
    have follows := stands.follows.behind ⟨part, source, skips_of_isPlain plain spelled⟩
    exact .ofNext legible stands.toSound follows next
  opens stands opening next := by
    have follows := stands.follows
    rw [stands.punct opening] at follows
    exact .ofNext legible stands.toSound follows.open next
  closes stands closing next := by
    have follows := stands.follows
    rw [stands.punct closing] at follows
    exact .ofNext legible stands.toSound follows.close next
  substitution {station c d wellFormed} stands piece next := by
    obtain ⟨part, source, spelled⟩ := behind_token stands.read
    rw [piece] at spelled
    obtain ⟨text, rfl, spelled⟩ := spelled
    obtain ⟨code, before, enters, origin, leads⟩ := stands.follows
    have follows : Follows whole (0, station.1 :: station.2) c.rest :=
      .enter enters (by rw [origin, source]; simp) spelled (leads.append passes_backquote)
    exact .ofNext legible stands.toSound follows next
  continues {station c d closed wellFormed rest} stands closing piece next := by
    have text : c.text = '\x7d' :: c.rest := stands.punct closing
    have follows := stands.follows
    rw [text] at follows
    rw [text, List.drop_one, List.tail_cons] at piece
    obtain ⟨part, source, spelled⟩ := behind_templateTail piece
    obtain ⟨code, before, enters, origin, leads⟩ := follows.resume legible
    rw [source] at origin
    have sound : Cursor.Sound { c with token := .template closed wellFormed, rest } :=
      stands.anew (by rw [text]; exact source) spelled.full
    cases closed with
    | true => exact .ofNext legible sound (.leave enters origin spelled leads) next
    | false => exact .ofNext legible sound (.enter enters origin spelled leads) next
  pattern {station c d rest} stands slash read next := by
    obtain ⟨part, source, full⟩ := behind_pattern read
    have behind := startsWithSlash stands.toLexed slash
    have follows := stands.follows
    obtain ⟨code, before, enters, origin, leads⟩ := stands.follows
    have back : Behind Skips c.text rest := by
      rw [behind]
      exact legible.pattern enters (behind ▸ origin) leads read
    exact .ofNext legible (stands.anew source full) (follows.behind back) next

/-! ## Reading between the braces -/

/-- The search passes over a legible text that reads as one expression. -/
theorem passes_of_parse {tree : Syntax} (legible : Legible whole) (read : parse? whole = some ⟨tree, []⟩) :
    Passes whole .code 1 .code 1 := by
  obtain ⟨first, last, begins, reads, -, -, ends⟩ := parse_eq_some.1 read
  have stands : Stands whole (0, []) first :=
    .ofNext legible (Cursor.before_sound whole) ⟨whole, [], .whole, rfl, passes_nil⟩ begins
  have enough := levelFor_enough begins
  have twins := grammar_twins (enclosure legible) (levelFor whole.length) 0
  obtain ⟨⟨-, code, before, enters, source, leads⟩, -⟩ :=
    (twins.sequence moduleSetting (by omega) stands).2 tree last reads
  rw [ends, List.append_nil] at source
  cases enters
  exact source ▸ leads

/-! ## Blanks around code -/

theorem isSpace_marks : ∀ c ∈ marks, Text.isSpace c = false :=
  false_of_mem_marks (by decide)

/-- The search finds the brace behind a legible expression, and no other one. -/
theorem closeBrace_expression {code : List Char} (expression : IsExpression (Text.trim code))
    (legible : Legible (Text.trim code)) (after : List Char) :
    closeBrace .code 1 (code ++ '\x7d' :: after) = some (code, after) := by
  obtain ⟨tree, read⟩ := expression
  obtain ⟨lead, trail, source, before, behind⟩ := Text.trim_source code
  have blanks {part : List Char} (spaces : ∀ c ∈ part, Text.isSpace c = true) : Passes part .code 1 .code 1 :=
    passes_unmarked (unmarked_of_all isSpace_marks spaces)
  have passes : Passes code .code 1 .code 1 := by
    rw [source]
    exact (blanks before).append ((passes_of_parse legible read).append (blanks behind))
  rw [passes, closeBrace]
  · simp
  · exact fun _ _ same _ => absurd same (by decide)

theorem IsExpression.ne_nil (expression : IsExpression text) : text ≠ [] := by
  rintro rfl
  obtain ⟨tree, read⟩ := expression
  have fails : parse? [] = none := by
    rfl
  rw [fails] at read
  cases read

end Script

namespace Placeholder

open Script

/-- What opens a placeholder. -/
def opening (escape : Bool) : String :=
  if escape then "$\x7b" else "$!\x7b"

/-- The placeholder that a text between an opening mark and a closing brace is. -/
def around (escape : Bool) (code : List Char) : Placeholder :=
  { source := (opening escape).toList ++ code ++ ['\x7d'], code := String.ofList (Text.trim code), escape }

variable {code : List Char}

theorem start_around (escape : Bool) (expression : IsExpression (Text.trim code)) (legible : Legible (Text.trim code)) :
    start (around escape code).source = .piece (.code (around escape code)) [] := by
  have opened (rest : List Char) :
      opening? ((opening escape).toList ++ rest) = some ((opening escape).toList, escape, rest) := by
    cases escape <;> rfl
  have full : (String.ofList (Text.trim code)).isEmpty = false := by
    rw [← Bool.not_eq_true, String.isEmpty_iff, String.ofList_eq_empty_iff]
    exact expression.ne_nil
  unfold start
  simp only [around, List.append_assoc, opened, closeBrace_expression expression legible, full, Bool.false_eq_true, if_false]

theorem pieces_around (escape : Bool) (expression : IsExpression (Text.trim code)) (legible : Legible (Text.trim code)) :
    pieces (around escape code).source = .ok [.code (around escape code)] := by
  have starts := start_around escape expression legible
  have nothing : pieces [] = .ok [] := by
    rw [pieces]
    rfl
  rw [pieces]
  split
  · next found => cases starts.symm.trans found
  · next found => cases starts.symm.trans found
  · next found =>
      cases starts.symm.trans found
      rw [nothing]
      rfl

end Placeholder

theorem Code.check_ok {code : List Char} (expression : Script.IsExpression (Text.trim code)) :
    Code.check (String.ofList (Text.trim code)) = .ok () := by
  obtain ⟨tree, read⟩ := expression
  have visible : Text.isBlank (Text.trim code) = false := Text.isBlank_trimRight (Script.IsExpression.ne_nil ⟨tree, read⟩)
  rw [Code.check, String.toList_ofList, visible, read]
  rfl

/-- A text that is one expression, if it is legible, can be put between the braces of a placeholder. -/
theorem Value.parse_placeholder {code : String} (escape : Bool) (expression : Script.IsExpression (Text.trim code.toList))
    (legible : Script.Legible (Text.trim code.toList)) :
    parse (Placeholder.opening escape ++ code ++ "\x7d") = .ok
      { raw := Placeholder.opening escape ++ code ++ "\x7d"
        segments := [.code (String.ofList (Text.trim code.toList)) escape] } := by
  have raw : (Placeholder.opening escape ++ code ++ "\x7d").toList = (Placeholder.around escape code.toList).source := by
    simp [Placeholder.around]
  have segments : segmentsOf [.code (Placeholder.around escape code.toList)] =
      .ok [.code (String.ofList (Text.trim code.toList)) escape] := by
    rw [segmentsOf, Placeholder.around, Code.check_ok expression]
    rfl
  rw [parse, raw, Placeholder.pieces_around escape expression legible]
  simp only [segments]

/-- An object, a string with a brace in it and a template, read with blanks around them. -/
theorem Value.parse_placeholder_call :
    parse (Placeholder.opening true ++ " f(\x7ba: '\x7d'\x7d, \x60x$\x7bb['c']\x7dy\x60) " ++ "\x7d") = .ok
      { raw := "$\x7b f(\x7ba: '\x7d'\x7d, \x60x$\x7bb['c']\x7dy\x60) \x7d"
        segments := [.code "f(\x7ba: '\x7d'\x7d, \x60x$\x7bb['c']\x7dy\x60)" true] } := by
  have letters : "f(\x7ba: '\x7d'\x7d, \x60x$\x7bb['c']\x7dy\x60)".toList = _ := String.toList_ofList
  have reads : ((Script.parse? "f(\x7ba: '\x7d'\x7d, \x60x$\x7bb['c']\x7dy\x60)".toList).map Script.Parsed.rest) = some [] := by
    rw [letters]
    decide +kernel
  obtain ⟨⟨tree, rest⟩, read, empty⟩ := Option.map_eq_some_iff.1 reads
  cases empty
  have legible : Script.Legible "f(\x7ba: '\x7d'\x7d, \x60x$\x7bb['c']\x7dy\x60)".toList := by
    rw [letters]
    exact Script.legible_of_slashless (by decide) (by decide)
  exact parse_placeholder true ⟨tree, read⟩ legible

/-- The brace of a template inside a substitution of a template is taken for the end of the placeholder. -/
theorem Value.parse_placeholder_nested :
    ((Script.parse? "\x60$\x7b\x60\x7d\x60\x7d\x60".toList).map Script.Parsed.rest) = some [] ∧
      (parse (Placeholder.opening true ++ "\x60$\x7b\x60\x7d\x60\x7d\x60" ++ "\x7d")).isOk = false := by
  decide +kernel

end HtmlTemplate
