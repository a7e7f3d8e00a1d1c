import HtmlTemplate.Placeholder
import HtmlTemplate.Script.Cursor

/-!
# Tokens under the search for a closing brace

The search for the brace that closes a placeholder knows quotes, backslashes and braces only. It passes over
every token but a brace and comes back to where it was: the marks in names, numbers, strings and closed
templates are seen as the grammar sees them.
-/

namespace HtmlTemplate
namespace Placeholder

/-! ## Passing over a part of a text -/

/-- The part leads the search from one place to another one, whatever follows it. -/
def Passes (part : List Char) (surroundings : Surroundings) (depth : Nat) (next : Surroundings) (deeper : Nat) :
    Prop :=
  ∀ after, closeBrace surroundings depth (part ++ after) =
    (closeBrace next deeper after).map fun (inside, rest) => (part ++ inside, rest)

variable {part more : List Char} {surroundings middle next : Surroundings} {depth deeper deepest : Nat} {c quote : Char}

theorem passes_nil : Passes [] surroundings depth surroundings depth := by
  intro after
  rw [List.nil_append]
  exact Option.map_id'.symm

theorem Passes.append (first : Passes part surroundings depth middle deeper)
    (second : Passes more middle deeper next deepest) : Passes (part ++ more) surroundings depth next deepest := by
  intro after
  rw [List.append_assoc, first, second, Option.map_map]
  refine congrArg (Option.map · _) (funext fun found => ?_)
  exact Prod.ext (List.append_assoc part more found.1).symm rfl

/-- The character after a backslash is hidden. -/
theorem passes_escape : Passes ['\\', c] surroundings depth surroundings depth := by
  intro after
  rw [List.cons_append, List.cons_append, List.nil_append, closeBrace]
  rfl

example : closeBrace .code 1 ['\\', '\x7d', '\x7d', 'a'] = some (['\\', '\x7d'], ['a']) := by
  cbv

/-- The characters that mean something to the search where code stands. -/
def marks : List Char :=
  ['\\', '"', '\'', '\x60', '\x7b', '\x7d']

theorem false_of_mem_marks {test : Char → Bool} (none : marks.any test = false) : ∀ c ∈ marks, test c = false := by
  intro c member
  exact Bool.eq_false_iff.2 (List.any_eq_false.1 none c member)

/-- The text holds no character that means something in code. -/
def Unmarked (text : List Char) : Prop :=
  ∀ c ∈ text, c ∉ marks

instance (text : List Char) : Decidable (Unmarked text) :=
  List.decidableBAll _ text

theorem Unmarked.append (first : Unmarked part) (second : Unmarked more) : Unmarked (part ++ more) := by
  intro c member
  exact (List.mem_append.1 member).elim (first c) (second c)

/-- A character of the code but the last closing brace is passed. -/
theorem passes_code (other : c ≠ '\\') (inside : c = '\x7d' → 1 < depth) :
    Passes [c] .code depth
      (if c == '"' || c == '\'' then .string c else if c == '\x60' then .template 0 else .code)
      (if c == '\x7b' then depth + 1 else if c == '\x7d' then depth - 1 else depth) := by
  intro after
  rw [List.cons_append, List.nil_append, closeBrace]
  · rw [if_neg]
    · rfl
    · intro closes
      obtain ⟨same, last⟩ := Bool.and_eq_true_iff.1 closes
      exact Nat.not_le.2 (inside (beq_iff_eq.1 same)) (of_decide_eq_true last)
  · exact fun _ _ same _ => other same

theorem passes_unmarked (unmarked : Unmarked part) : Passes part .code depth .code depth := by
  induction part with
  | nil => exact passes_nil
  | cons c part hypothesis =>
      have single : Passes [c] .code depth .code depth := by
        have other := unmarked c List.mem_cons_self
        simp only [marks, List.mem_cons, List.not_mem_nil, or_false, not_or] at other
        obtain ⟨backslash, double, simple, backquote, opening, closing⟩ := other
        simpa only [beq_eq_false_iff_ne.2 double, beq_eq_false_iff_ne.2 simple, beq_eq_false_iff_ne.2 backquote,
          beq_eq_false_iff_ne.2 opening, beq_eq_false_iff_ne.2 closing, Bool.or_self, Bool.false_eq_true, if_false]
          using passes_code backslash (absurd · closing)
      exact single.append (hypothesis fun c member => unmarked c (List.mem_cons_of_mem _ member))

theorem passes_open : Passes ['\x7b'] .code depth .code (depth + 1) :=
  passes_code (by decide) (absurd · (by decide))

theorem passes_close (deep : 0 < depth) : Passes ['\x7d'] .code (depth + 1) .code depth :=
  passes_code (by decide) fun _ => Nat.succ_lt_succ deep

/-- A quote opens a string, and the same quote closes it. -/
theorem passes_quote (isQuote : quote = '"' ∨ quote = '\'') : Passes [quote] .code depth (.string quote) depth := by
  rcases isQuote with rfl | rfl <;> exact passes_code (by decide) (absurd · (by decide))

theorem passes_string (other : c ≠ '\\') :
    Passes [c] (.string quote) depth (if c == quote then .code else .string quote) depth := by
  intro after
  rw [List.cons_append, List.nil_append, closeBrace]
  · rfl
  · exact fun _ _ same _ => other same

theorem passes_backquote : Passes ['\x60'] .code depth (.template 0) depth :=
  passes_code (by decide) (absurd · (by decide))

/-- A character in a template, or in a substitution of it, goes before what is passed; a dollar does not when a brace
follows it. -/
theorem Passes.consInTemplate {substitutions : Nat}
    (passes : Passes part (if c == '\x60' && substitutions == 0 then .code
      else if c == '\x7d' then .template (substitutions - 1) else .template substitutions) depth next deeper)
    (notBackslash : c ≠ '\\') (alone : c = '$' → ∃ d others, part = d :: others ∧ d ≠ '\x7b') :
    Passes (c :: part) (.template substitutions) depth next deeper := by
  intro after
  rw [List.cons_append, closeBrace]
  · dsimp only
    rw [passes after, Option.map_map]
    rfl
  · exact fun _ _ same _ => notBackslash same
  · intro rest same begins
    obtain ⟨d, others, rfl, other⟩ := alone same
    exact other (List.cons.inj begins).1

theorem passes_closingBackquote : Passes ['\x60'] (.template 0) depth .code depth :=
  passes_nil.consInTemplate (by decide) (absurd · (by decide))

/-- A dollar and a brace open a substitution in a template. -/
theorem passes_substitution : Passes ['$', '\x7b'] (.template 0) depth (.template 1) depth := by
  intro after
  rw [List.cons_append, List.cons_append, List.nil_append, closeBrace]
  rfl

/-- A brace closes the one open substitution of a template. -/
theorem passes_substitutionEnd : Passes ['\x7d'] (.template 1) depth (.template 0) depth :=
  passes_nil.consInTemplate (by decide) (absurd · (by decide))

/-- A character that means nothing to the search in a template, or in a substitution of it. -/
theorem Passes.plainInTemplate {substitutions : Nat} (passes : Passes part (.template substitutions) depth next deeper)
    (backquote : c = '\x60' → substitutions ≠ 0) (brace : c = '\x7d' → substitutions = 0) (notBackslash : c ≠ '\\')
    (alone : c = '$' → ∃ d others, part = d :: others ∧ d ≠ '\x7b') :
    Passes (c :: part) (.template substitutions) depth next deeper := by
  refine Passes.consInTemplate ?_ notBackslash alone
  rw [if_neg, ite_eq_right_iff.2]
  · exact passes
  · intro same
    rw [brace (beq_iff_eq.1 same)]
  · intro closes
    obtain ⟨same, none⟩ := Bool.and_eq_true_iff.1 closes
    exact backquote (beq_iff_eq.1 same) (beq_iff_eq.1 none)

/-- The text is code that leads the search back to where it was. -/
def Skips (part : List Char) : Prop :=
  ∀ depth, 0 < depth → Passes part .code depth .code depth

theorem Skips.append (first : Skips part) (second : Skips more) : Skips (part ++ more) :=
  fun depth deep => (first depth deep).append (second depth deep)

theorem skips_unmarked (unmarked : Unmarked part) : Skips part :=
  fun _ _ => passes_unmarked unmarked

end Placeholder

namespace Script

open Placeholder

/-! ## Names and numbers -/

variable {text rest : List Char}

/-- The text goes on with the rest, behind a part of which something is known. -/
def Behind (known : List Char → Prop) (text rest : List Char) : Prop :=
  ∃ part, text = part ++ rest ∧ known part

/-- Characters of a class without marks. -/
theorem unmarked_of_all {test : Char → Bool} (marksFail : ∀ c ∈ marks, test c = false) {part : List Char}
    (all : ∀ c ∈ part, test c = true) : Unmarked part := by
  intro c member among
  have fails := marksFail c among
  rw [all c member] at fails
  cases fails

theorem isHexDigit_marks : ∀ c ∈ marks, Text.isHexDigit c = false :=
  false_of_mem_marks (by decide)

theorem isNamePart_marks : ∀ c ∈ marks, isNamePart c = false :=
  false_of_mem_marks (by decide)

theorem Behind.trans {known : List Char → Prop} {text middle rest : List Char}
    (closed : ∀ first second, known first → known second → known (first ++ second)) (first : Behind known text middle)
    (second : Behind known middle rest) : Behind known text rest := by
  obtain ⟨part, rfl, left⟩ := first
  obtain ⟨more, rfl, right⟩ := second
  exact ⟨part ++ more, (List.append_assoc part more rest).symm, closed part more left right⟩

/-- The digits of an escape stand in braces that close again. -/
theorem behind_codePoint {code : Nat} (found : codePoint? text = some (code, rest)) : Behind Skips text rest := by
  unfold codePoint? at found
  split at found
  · next digits =>
      dsimp only at found
      split at found
      · next after closes =>
          split at found
          · cases found
          · obtain ⟨-, rfl⟩ := Prod.mk.inj (Option.some.inj found)
            have hex : Unmarked (digits.takeWhile Text.isHexDigit) :=
              unmarked_of_all isHexDigit_marks (List.all_eq_true.1 List.all_takeWhile)
            refine ⟨'\x7b' :: digits.takeWhile Text.isHexDigit ++ ['\x7d'], ?_, fun depth deep => ?_⟩
            · rw [List.append_assoc, List.cons_append, List.singleton_append, ← closes,
                List.takeWhile_append_dropWhile]
            · exact (passes_open.append (passes_unmarked hex)).append (passes_close deep)
      · cases found
  · next a b c d after _ =>
      split at found
      · next allHex =>
          obtain ⟨-, rfl⟩ := Prod.mk.inj (Option.some.inj found)
          exact ⟨[a, b, c, d], rfl, skips_unmarked (unmarked_of_all isHexDigit_marks (List.all_eq_true.1 allHex))⟩
      · cases found
  · cases found

theorem behind_self : Behind Skips text text :=
  ⟨[], rfl, fun _ _ => passes_nil⟩

theorem behind_nameTail {budget : Nat} {name : List Char} {escaped : Bool}
    (found : nameTail budget text = some (name, escaped, rest)) :
    Behind (fun part => Skips part ∧ (name ≠ [] → part ≠ [])) text rest := by
  fun_induction nameTail budget text generalizing name escaped rest with
  | case1 text =>
      cases found
      exact ⟨[], rfl, fun _ _ => passes_nil, fun full => absurd rfl full⟩
  | case2 budget text hypothesis =>
      simp only [Option.bind_eq_bind, Option.bind_eq_some_iff] at found
      obtain ⟨⟨code, after⟩, decoded, found⟩ := found
      dsimp only at found
      split at found
      · simp only [Option.bind_eq_some_iff] at found
        obtain ⟨⟨tail, inner, behind⟩, more, done⟩ := found
        cases done
        obtain ⟨digits, rfl, first⟩ := behind_codePoint decoded
        obtain ⟨part, rfl, second, -⟩ := hypothesis _ more
        refine ⟨['\\', 'u'] ++ digits ++ part, by simp, ?_, fun _ => by simp⟩
        exact Skips.append (Skips.append (fun _ _ => passes_escape) first) second
      · cases found
  | case3 => cases found
  | case4 budget c text _ plain isPart hypothesis =>
      simp only [Option.bind_eq_bind, Option.bind_eq_some_iff] at found
      obtain ⟨⟨tail, inner, behind⟩, more, done⟩ := found
      cases done
      obtain ⟨part, rfl, skips, -⟩ := hypothesis more
      have single : Unmarked [c] := unmarked_of_all isNamePart_marks fun other member =>
        List.mem_singleton.1 member ▸ isPart
      exact ⟨c :: part, rfl, (skips_unmarked single).append skips, fun _ => List.cons_ne_nil c part⟩
  | case5 budget c text =>
      cases found
      exact ⟨[], rfl, fun _ _ => passes_nil, fun full => absurd rfl full⟩
  | case6 =>
      cases found
      exact ⟨[], rfl, fun _ _ => passes_nil, fun full => absurd rfl full⟩

/-- What is known of the text of a token: it is not empty, and leads the search back. -/
def TokenText (part : List Char) : Prop :=
  part ≠ [] ∧ Skips part

theorem behind_name {name : List Char} {escaped : Bool} (found : name? text = some (name, escaped, rest)) :
    Behind TokenText text rest := by
  unfold name? at found
  simp only [Option.bind_eq_bind, Option.bind_eq_some_iff] at found
  obtain ⟨⟨read, inner, after⟩, tail, found⟩ := found
  dsimp only at found
  split at found
  · split at found
    · cases found
      obtain ⟨part, source, skips, full⟩ := behind_nameTail tail
      exact ⟨part, source, full (List.cons_ne_nil _ _), skips⟩
    · cases found
  · cases found

/-- The characters that numbers are made of. -/
def isNumberPart (c : Char) : Bool :=
  c.isAlphanum || c == '_' || c == '.' || c == '+' || c == '-'

theorem isNumberPart_marks : ∀ c ∈ marks, isNumberPart c = false :=
  false_of_mem_marks (by decide)

/-- The text is made of characters of numbers. -/
def NumberText (part : List Char) : Prop :=
  ∀ c ∈ part, isNumberPart c = true

theorem NumberText.append (first second : List Char) (left : NumberText first) (right : NumberText second) :
    NumberText (first ++ second) := by
  intro c member
  exact (List.mem_append.1 member).elim (left c) (right c)

theorem number_self : Behind NumberText text text :=
  ⟨[], rfl, fun _ impossible => absurd impossible List.not_mem_nil⟩

theorem number_cons {c : Char} (isPart : isNumberPart c = true) (behind : Behind NumberText text rest) :
    Behind NumberText (c :: text) rest := by
  obtain ⟨part, rfl, all⟩ := behind
  exact ⟨c :: part, rfl, List.forall_mem_cons.2 ⟨isPart, all⟩⟩

theorem behind_dropDigits {isDigit : Char → Bool} (digits : ∀ c, isDigit c = true → isNumberPart c = true)
    (found : dropDigits isDigit text = some rest) : Behind NumberText text rest := by
  fun_induction dropDigits isDigit text generalizing rest with
  | case1 d text isOne hypothesis => exact number_cons rfl (number_cons (digits d isOne) (hypothesis found))
  | case2 => cases found
  | case3 => cases found
  | case4 c text _ _ isOne hypothesis => exact number_cons (digits c isOne) (hypothesis found)
  | case5 =>
      cases found
      exact number_self
  | case6 =>
      cases found
      exact number_self

theorem behind_endNumber (found : endNumber text = some rest) : Behind NumberText text rest := by
  unfold endNumber at found
  split at found
  · cases found
  · cases found
    exact number_self

theorem Behind.more (first : Behind NumberText text rest) {last : List Char} (second : Behind NumberText rest last) :
    Behind NumberText text last :=
  first.trans NumberText.append second

theorem behind_someDigits {isDigit : Char → Bool} (digits : ∀ c, isDigit c = true → isNumberPart c = true)
    (found : someDigits isDigit text = some rest) : Behind NumberText text rest := by
  unfold someDigits at found
  split at found
  · exact behind_dropDigits digits found
  · cases found

theorem behind_basedNumber {isDigit : Char → Bool} (digits : ∀ c, isDigit c = true → isNumberPart c = true)
    (found : basedNumber isDigit text = some rest) : Behind NumberText text rest := by
  unfold basedNumber at found
  simp only [Option.bind_eq_bind, Option.bind_eq_some_iff] at found
  obtain ⟨after, dropped, found⟩ := found
  have begins := behind_someDigits digits dropped
  split at found
  · exact begins.more (number_cons rfl (behind_endNumber found))
  · exact begins.more (behind_endNumber found)

theorem isNumberPart_of_isAlphanum {c : Char} (plain : c.isAlphanum = true) : isNumberPart c = true := by
  simp [isNumberPart, plain]

theorem isNumberPart_of_isDigit (c : Char) (isDigit : c.isDigit = true) : isNumberPart c = true :=
  isNumberPart_of_isAlphanum (Bool.or_eq_true_iff.2 (.inr isDigit))

theorem isNumberPart_of_isAlpha {c : Char} (isLetter : c.isAlpha = true) : isNumberPart c = true :=
  isNumberPart_of_isAlphanum (Bool.or_eq_true_iff.2 (.inl isLetter))

theorem isNumberPart_of_isHexDigit (c : Char) (isDigit : Text.isHexDigit c = true) : isNumberPart c = true := by
  unfold Text.isHexDigit Text.hexValue? at isDigit
  split at isDigit
  · next decimal => exact isNumberPart_of_isDigit c decimal
  · split at isDigit
    · next small =>
        rw [Bool.and_eq_true_iff, decide_eq_true_iff, decide_eq_true_iff] at small
        have lower : c.isLower = true := by
          refine Bool.and_eq_true_iff.2 ⟨decide_eq_true small.1, decide_eq_true ?_⟩
          exact Nat.le_trans small.2 (by decide : 'f'.toNat ≤ 'z'.toNat)
        exact isNumberPart_of_isAlpha (Bool.or_eq_true_iff.2 (.inr lower))
    · split at isDigit
      · next capital =>
          rw [Bool.and_eq_true_iff, decide_eq_true_iff, decide_eq_true_iff] at capital
          have upper : c.isUpper = true :=
            decide_eq_true ⟨capital.1, Nat.le_trans capital.2 (by decide : 'F'.toNat ≤ 'Z'.toNat)⟩
          exact isNumberPart_of_isAlpha (Bool.or_eq_true_iff.2 (.inl upper))
      · cases isDigit

theorem isNumberPart_of_octal (c : Char) (isDigit : (decide ('0' ≤ c) && decide (c ≤ '7')) = true) :
    isNumberPart c = true := by
  rw [Bool.and_eq_true_iff, decide_eq_true_iff, decide_eq_true_iff] at isDigit
  have decimal : c.isDigit = true := by
    rw [Char.isDigit, Bool.and_eq_true_iff, decide_eq_true_iff, decide_eq_true_iff]
    exact ⟨isDigit.1, Nat.le_trans isDigit.2 (by decide : '7'.toNat ≤ '9'.toNat)⟩
  exact isNumberPart_of_isDigit c decimal

theorem isNumberPart_of_binary (c : Char) (isDigit : (c == '0' || c == '1') = true) : isNumberPart c = true := by
  rcases Bool.or_eq_true_iff.1 isDigit with same | same <;> rw [beq_iff_eq.1 same] <;> rfl

theorem behind_exponent (found : exponent text = some rest) : Behind NumberText text rest := by
  unfold exponent at found
  split at found
  · next c text =>
      split at found
      · next mark =>
          have isPart : isNumberPart c = true := by
            rcases Bool.or_eq_true_iff.1 mark with same | same <;> rw [beq_iff_eq.1 same] <;> rfl
          simp only [Option.bind_eq_bind, Option.bind_eq_some_iff] at found
          obtain ⟨after, dropped, found⟩ := found
          have digits := (behind_someDigits isNumberPart_of_isDigit dropped).more (behind_endNumber found)
          refine number_cons isPart ?_
          split at digits
          · exact number_cons rfl digits
          · exact number_cons rfl digits
          · exact digits
      · exact behind_endNumber found
  · cases found
    exact number_self

theorem behind_fraction (found : fraction text = some rest) : Behind NumberText text rest := by
  unfold fraction at found
  split at found
  · simp only [Option.bind_eq_bind, Option.bind_eq_some_iff] at found
    obtain ⟨after, dropped, found⟩ := found
    exact (behind_dropDigits isNumberPart_of_isDigit dropped).more (behind_exponent found)
  · exact behind_exponent found

theorem behind_takeDigits : Behind NumberText text (text.dropWhile Char.isDigit) :=
  ⟨text.takeWhile Char.isDigit, List.takeWhile_append_dropWhile.symm, fun c member =>
    isNumberPart_of_isDigit c (List.all_eq_true.1 List.all_takeWhile c member)⟩

/-- A number is made of characters of numbers. -/
theorem behind_number {c : Char} (starts : c.isDigit = true ∨ c = '.') (found : number? (c :: text) = some rest) :
    Behind NumberText text rest := by
  unfold number? at found
  split at found
  · next same =>
      cases same
      exact behind_fraction found
  · next mark after same =>
      cases same
      have known : ∀ d, (mark == d) = true → isNumberPart d = true → isNumberPart mark = true :=
        fun d same part => beq_iff_eq.1 same ▸ part
      split at found
      · next isMark =>
          exact number_cons ((Bool.or_eq_true_iff.1 isMark).elim (known _ · rfl) (known _ · rfl))
            (behind_basedNumber isNumberPart_of_isHexDigit found)
      · split at found
        · next isMark =>
            exact number_cons ((Bool.or_eq_true_iff.1 isMark).elim (known _ · rfl) (known _ · rfl))
              (behind_basedNumber isNumberPart_of_octal found)
        · split at found
          · next isMark =>
              exact number_cons ((Bool.or_eq_true_iff.1 isMark).elim (known _ · rfl) (known _ · rfl))
                (behind_basedNumber isNumberPart_of_binary found)
          · split at found
            · next isMark => exact number_cons (known _ isMark rfl) (behind_fraction found)
            · split at found
              · next isMark => exact number_cons (known _ isMark rfl) (behind_endNumber found)
              · split at found
                · next isDigit =>
                    refine number_cons (isNumberPart_of_isDigit _ isDigit) (behind_takeDigits.more ?_)
                    dsimp only at found
                    split at found
                    · split at found
                      · next ends =>
                          rw [ends]
                          exact number_cons rfl (behind_fraction found)
                      · exact behind_exponent found
                    · exact behind_endNumber found
                · exact behind_exponent found
  · next notPoint _ =>
      simp only [Option.bind_eq_bind, Option.bind_eq_some_iff] at found
      obtain ⟨after, dropped, found⟩ := found
      have isDigit : c.isDigit = true := by
        rcases starts with isDigit | same
        · exact isDigit
        · exact absurd (by rw [same]) (notPoint text)
      have digits : Behind NumberText text after := by
        rw [dropDigits, if_pos isDigit] at dropped
        · exact behind_dropDigits isNumberPart_of_isDigit dropped
        · rintro d others rfl
          cases isDigit
        · rintro rfl
          cases isDigit
      split at found
      · exact digits.more (number_cons rfl (behind_fraction found))
      · exact digits.more (number_cons rfl (behind_endNumber found))
      · exact digits.more (behind_exponent found)

/-! ## Strings, templates and regular expressions -/

theorem behind_stringTail {quote : Char} (isQuote : quote = '"' ∨ quote = '\'')
    (found : stringTail quote text = some rest) :
    Behind (fun part => ∀ depth, Passes part (.string quote) depth .code depth) text rest := by
  fun_induction stringTail quote text generalizing rest with
  | case1 => cases found
  | case2 text hypothesis =>
      obtain ⟨part, rfl, passes⟩ := hypothesis found
      refine ⟨['\\', '\r'] ++ ['\n'] ++ part, by simp, fun depth => ?_⟩
      have feed : Passes ['\n'] (.string quote) depth (if '\n' == quote then .code else .string quote) depth :=
        passes_string (by decide)
      rw [if_neg (by rcases isQuote with rfl | rfl <;> decide)] at feed
      exact (passes_escape.append feed).append (passes depth)
  | case3 c text _ _ hypothesis =>
      obtain ⟨part, rfl, passes⟩ := hypothesis found
      exact ⟨['\\', c] ++ part, by simp, fun depth => passes_escape.append (passes depth)⟩
  | case4 => cases found
  | case5 c text _ _ closes =>
      cases found
      have other : c ≠ '\\' := by
        rintro rfl
        rcases isQuote with rfl | rfl <;> exact absurd closes (by decide)
      refine ⟨[c], rfl, fun depth => ?_⟩
      have closing : Passes [c] (.string quote) depth (if c == quote then .code else .string quote) depth :=
        passes_string other
      rwa [if_pos closes] at closing
  | case6 => cases found
  | case7 c text _ notBackslash goesOn _ hypothesis =>
      have other : c ≠ '\\' := by
        rintro rfl
        cases text with
        | nil => cases found
        | cons d text => exact notBackslash d text rfl rfl
      obtain ⟨part, rfl, passes⟩ := hypothesis found
      refine ⟨[c] ++ part, rfl, fun depth => ?_⟩
      have inner : Passes [c] (.string quote) depth (if c == quote then .code else .string quote) depth :=
        passes_string other
      rw [if_neg goesOn] at inner
      exact inner.append (passes depth)

/--
The text of a piece of a template, from behind what starts the piece up to where code begins: behind the
template, or in a substitution.
-/
structure PieceText (closed : Bool) (part : List Char) : Prop where
  full : part ≠ []
  passes (depth : Nat) : Passes part (.template 0) depth (if closed then .code else .template 1) depth
  opens : closed = false → ['$', '\x7b'] <:+ part

theorem PieceText.after {closed : Bool} {before part : List Char} (piece : PieceText closed part)
    (passes : ∀ depth, Passes (before ++ part) (.template 0) depth (if closed then .code else .template 1) depth) :
    PieceText closed (before ++ part) where
  full := fun empty => piece.full (List.append_eq_nil_iff.1 empty).2
  passes := passes
  opens := fun opened => (piece.opens opened).trans (List.suffix_append before part)

theorem behind_templateTail {wellFormed closed whole : Bool}
    (found : templateTail wellFormed text = some (closed, whole, rest)) : Behind (PieceText closed) text rest := by
  fun_induction templateTail wellFormed text generalizing rest with
  | case1 => cases found
  | case2 =>
      cases found
      exact ⟨['\x60'], rfl, List.cons_ne_nil _ _, fun _ => passes_closingBackquote, nofun⟩
  | case3 =>
      cases found
      exact ⟨['$', '\x7b'], rfl, List.cons_ne_nil _ _, fun _ => passes_substitution, fun _ => List.suffix_refl _⟩
  | case4 wellFormed c text hypothesis =>
      obtain ⟨part, rfl, piece⟩ := hypothesis found
      exact ⟨['\\', c] ++ part, rfl, piece.after fun depth => passes_escape.append (piece.passes depth)⟩
  | case5 wellFormed c text notBackquote notDollar notBackslash hypothesis =>
      obtain ⟨part, rfl, piece⟩ := hypothesis found
      refine ⟨[c] ++ part, rfl, piece.after fun depth => ?_⟩
      refine (piece.passes depth).plainInTemplate (fun same => absurd same notBackquote) (fun _ => rfl) ?_ ?_
      · rintro rfl
        cases part with
        | nil => exact piece.full rfl
        | cons d part => exact notBackslash d _ rfl rfl
      · rintro rfl
        cases part with
        | nil => exact absurd rfl piece.full
        | cons d part => exact ⟨d, part, rfl, fun same => notDollar _ rfl (congrArg (· :: _) same)⟩

/-- Nothing but the length of it is known of the text of a regular expression. -/
def SomeText (part : List Char) : Prop :=
  part ≠ []

theorem behind_patternTail {inClass : Bool} (found : patternTail inClass text = some rest) :
    Behind SomeText text rest := by
  fun_induction patternTail inClass text generalizing rest with
  | case1 => cases found
  | case2 => cases found
  | case3 inClass c text _ hypothesis =>
      obtain ⟨part, rfl, -⟩ := hypothesis found
      exact ⟨'\\' :: c :: part, rfl, List.cons_ne_nil _ _⟩
  | case4 => cases found
  | case5 inClass c text _ _ _ hypothesis =>
      obtain ⟨part, rfl, -⟩ := hypothesis found
      exact ⟨c :: part, rfl, List.cons_ne_nil _ _⟩
  | case6 inClass c text _ _ _ _ hypothesis =>
      obtain ⟨part, rfl, -⟩ := hypothesis found
      exact ⟨c :: part, rfl, List.cons_ne_nil _ _⟩
  | case7 inClass c text =>
      cases found
      exact ⟨[c], rfl, List.cons_ne_nil _ _⟩
  | case8 inClass c text _ _ _ _ _ hypothesis =>
      obtain ⟨part, rfl, -⟩ := hypothesis found
      exact ⟨c :: part, rfl, List.cons_ne_nil _ _⟩

theorem behind_pattern (found : pattern? text = some rest) : Behind SomeText text rest := by
  unfold pattern? at found
  simp only [Option.bind_eq_bind, Option.bind_eq_some_iff] at found
  obtain ⟨after, closed, found⟩ := found
  split at found
  · cases found
    obtain ⟨part, rfl, full⟩ := behind_patternTail closed
    refine ⟨part ++ after.takeWhile isFlagChar, ?_, fun empty => full (List.append_eq_nil_iff.1 empty).1⟩
    rw [List.append_assoc, List.takeWhile_append_dropWhile]
  · cases found

/-! ## Punctuators, gaps and tokens -/

theorem firstMatch_source {texts : List String} {found : String} (first : firstMatch? texts text = some (found, rest)) :
    found ∈ texts ∧ text = found.toList ++ rest := by
  unfold firstMatch? at first
  obtain ⟨candidate, listed, matched⟩ := List.exists_of_findSome?_eq_some first
  split at matched
  · next begins =>
      cases matched
      obtain ⟨after, source⟩ := List.isPrefixOf_iff_prefix.1 begins
      refine ⟨listed, ?_⟩
      rw [← source, ← String.length_toList, List.drop_left]
  · cases matched

theorem punct_source {found : String} (read : punct? text = some (found, rest)) :
    found ∈ punctuators ∧ text = found.toList ++ rest := by
  unfold punct? at read
  split at read
  · split at read
    · cases read
      exact ⟨by decide, rfl⟩
    · cases read
      exact ⟨by decide, rfl⟩
  · exact firstMatch_source read

theorem skipGap_suffix {gap : Gap} {before broken : Bool} (skipped : skipGap gap before text = some (broken, rest)) :
    rest <:+ text := by
  have two (a b : Char) (more : List Char) : more <:+ a :: b :: more := ⟨[a, b], rfl⟩
  fun_induction skipGap gap before text with
  | case1 _ _ hypothesis => exact (hypothesis skipped).trans (two _ _ _)
  | case2 _ _ hypothesis => exact (hypothesis skipped).trans (two _ _ _)
  | case3 _ _ hypothesis => exact (hypothesis skipped).trans (two _ _ _)
  | case4 => cases skipped
  | case5 =>
      cases skipped
      exact List.suffix_refl []
  | case6 _ _ _ _ _ _ hypothesis => exact (hypothesis skipped).trans (List.suffix_cons _ _)
  | case7 _ _ _ _ _ _ _ hypothesis => exact (hypothesis skipped).trans (List.suffix_cons _ _)
  | case8 =>
      cases skipped
      exact List.suffix_refl _
  | case9 _ _ _ _ hypothesis => exact (hypothesis skipped).trans (List.suffix_cons _ _)
  | case10 _ _ _ _ hypothesis => exact (hypothesis skipped).trans (List.suffix_cons _ _)
  | case11 _ _ _ _ hypothesis => exact (hypothesis skipped).trans (List.suffix_cons _ _)

theorem isGap_marks : ∀ c ∈ marks, isGap c = false :=
  false_of_mem_marks (by decide)

theorem isLineBreak_marks : ∀ c ∈ marks, isLineBreak c = false :=
  false_of_mem_marks (by decide)

/-- A gap leads the search back if the comments do that may start behind the blanks of it. -/
theorem behind_gap {before broken : Bool}
    (quiet : ∀ blanks more between, text = blanks ++ '/' :: more → Unmarked blanks →
      skipGap .between between ('/' :: more) = some (broken, rest) → Behind Skips ('/' :: more) rest)
    (skipped : skipGap .between before text = some (broken, rest)) : Behind Skips text rest := by
  induction text generalizing before with
  | nil =>
      cases skipped
      exact behind_self
  | cons c text hypothesis =>
      by_cases slash : c = '/'
      · subst slash
        exact quiet [] text before rfl (fun _ impossible => absurd impossible List.not_mem_nil) skipped
      · have blank (unmarked : c ∉ marks) (between : Bool)
            (goesOn : skipGap .between between text = some (broken, rest)) : Behind Skips (c :: text) rest := by
          have single : Unmarked [c] := fun d member => List.mem_singleton.1 member ▸ unmarked
          obtain ⟨part, rfl, skips⟩ := hypothesis (fun blanks more at' source clean =>
            quiet (c :: blanks) more at' (congrArg (c :: ·) source) (single.append clean)) goesOn
          exact ⟨c :: part, rfl, (skips_unmarked single).append skips⟩
        rw [skipGap] at skipped
        · split at skipped
          · next lineEnds =>
              exact blank (fun marked => absurd lineEnds (by simp [isLineBreak_marks c marked])) true skipped
          · split at skipped
            · next isBlank =>
                exact blank (fun marked => absurd isBlank (by simp [isGap_marks c marked])) before skipped
            · cases skipped
              exact behind_self
        · exact fun _ same _ => slash same
        · exact fun _ same _ => slash same

/-- What a token is written as, and where its text leads the search. -/
def Spelled : Token → List Char → Prop
  | .finish, part => part = []
  | .punct text, part => text ∈ punctuators ∧ part = text.toList
  | .template closed _, part => ∃ piece, part = '\x60' :: piece ∧ PieceText closed piece
  | _, part => TokenText part

theorem punctuators_ne_nil : ∀ text ∈ punctuators, text.toList ≠ [] := by
  decide

/-- Only the end is written as nothing. -/
theorem ne_nil_of_spelled {token : Token} {part : List Char} (more : token ≠ .finish) (spelled : Spelled token part) :
    part ≠ [] := by
  cases token with
  | finish => exact absurd rfl more
  | punct text => exact spelled.2 ▸ punctuators_ne_nil text spelled.1
  | template closed wellFormed =>
      obtain ⟨piece, rfl, -⟩ := spelled
      exact List.cons_ne_nil _ _
  | name text escaped => exact spelled.1
  | privateName => exact spelled.1
  | number => exact spelled.1
  | string => exact spelled.1
  | pattern => exact spelled.1

/-- A token is read from the start of a text. -/
theorem behind_token {token : Token} (read : token? text = some (token, rest)) : Behind (Spelled token) text rest := by
  unfold token? at read
  split at read
  · cases read
    exact ⟨[], rfl, rfl⟩
  · next text =>
      obtain ⟨after, closed, same⟩ := Option.map_eq_some_iff.1 read
      cases same
      obtain ⟨part, rfl, passes⟩ := behind_stringTail (.inl rfl) closed
      exact ⟨'"' :: part, rfl, List.cons_ne_nil _ _, fun depth _ => (passes_quote (.inl rfl)).append (passes depth)⟩
  · next text =>
      obtain ⟨after, closed, same⟩ := Option.map_eq_some_iff.1 read
      cases same
      obtain ⟨part, rfl, passes⟩ := behind_stringTail (.inr rfl) closed
      exact ⟨'\'' :: part, rfl, List.cons_ne_nil _ _, fun depth _ => (passes_quote (.inr rfl)).append (passes depth)⟩
  · next text =>
      obtain ⟨⟨closed, wellFormed, after⟩, found, same⟩ := Option.map_eq_some_iff.1 read
      cases same
      obtain ⟨part, rfl, piece⟩ := behind_templateTail found
      exact ⟨'\x60' :: part, rfl, part, rfl, piece⟩
  · next text =>
      obtain ⟨⟨name, escaped, after⟩, found, same⟩ := Option.map_eq_some_iff.1 read
      cases same
      obtain ⟨part, rfl, full, skips⟩ := behind_name found
      have sign : Unmarked ['#'] := by
        intro c member
        rw [List.mem_singleton.1 member]
        decide
      exact ⟨'#' :: part, rfl, List.cons_ne_nil _ _, (skips_unmarked sign).append skips⟩
  · next c text _ _ _ _ =>
      split at read
      · next starts =>
          obtain ⟨after, found, same⟩ := Option.map_eq_some_iff.1 read
          cases same
          have first : c.isDigit = true ∨ c = '.' := by
            refine (Bool.or_eq_true_iff.1 starts).imp_right fun point => ?_
            exact beq_iff_eq.1 (Bool.and_eq_true_iff.1 point).1
          have isPart : isNumberPart c = true := first.elim (isNumberPart_of_isDigit c) fun same => by rw [same]; rfl
          obtain ⟨part, rfl, all⟩ := behind_number first found
          refine ⟨c :: part, rfl, List.cons_ne_nil _ _, skips_unmarked ?_⟩
          exact unmarked_of_all isNumberPart_marks (List.forall_mem_cons.2 ⟨isPart, all⟩)
      · split at read
        · obtain ⟨⟨name, escaped, after⟩, found, same⟩ := Option.map_eq_some_iff.1 read
          cases same
          exact behind_name found
        · obtain ⟨⟨punct, after⟩, found, same⟩ := Option.map_eq_some_iff.1 read
          cases same
          obtain ⟨listed, source⟩ := punct_source found
          exact ⟨punct.toList, source, listed, rfl⟩

end Script
end HtmlTemplate
