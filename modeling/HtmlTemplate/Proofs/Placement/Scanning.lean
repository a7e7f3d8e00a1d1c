import HtmlTemplate.Proofs.Placement.RoundTrip
import HtmlTemplate.Proofs.Text.Bytes

/-!
# Placeholders among bytes

A source can be searched for placeholders byte by byte: all that the search looks for is of ASCII. A backslash then
hides only a byte, which may be the first one of a longer character, but the bytes behind that one mean nothing by
themselves. So the search finds what a reader of characters finds, at offsets between characters.
-/

namespace HtmlTemplate

open Text (bytes)

namespace Placeholder

/-! ## Closing braces among bytes -/

/-- What a search for a closing brace knows of the bytes that it has passed. -/
structure Search where
  /-- The number of open braces. -/
  depth : Nat := 0
  /-- The quote of the string that the search is in. -/
  quote : Option UInt8 := none
  inTemplate : Bool := false
  /-- The number of open substitutions in the template literal that the search is in. -/
  substitutions : Nat := 0

/-- The number of bytes up to the brace that closes the first one, and with it. A backslash hides one byte. -/
def Search.close? (search : Search) : List UInt8 → Option Nat
  | [] => none
  | byte :: rest =>
      if byte = '\\'.toUInt8 ∧ rest ≠ [] then (search.close? (rest.drop 1)).map (· + 2)
      else
        match search.quote with
        | some quote =>
            ({ search with quote := if byte = quote then none else some quote }.close? rest).map (· + 1)
        | none =>
            if search.inTemplate then
              if byte = '\x60'.toUInt8 ∧ search.substitutions = 0 then
                ({ search with inTemplate := false }.close? rest).map (· + 1)
              else if byte = '$'.toUInt8 ∧ rest.head? = some '\x7b'.toUInt8 then
                ({ search with substitutions := search.substitutions + 1 }.close? (rest.drop 1)).map (· + 2)
              else if byte = '\x7d'.toUInt8 ∧ 0 < search.substitutions then
                ({ search with substitutions := search.substitutions - 1 }.close? rest).map (· + 1)
              else (search.close? rest).map (· + 1)
            else if byte = '"'.toUInt8 ∨ byte = '\''.toUInt8 then
              ({ search with quote := some byte }.close? rest).map (· + 1)
            else if byte = '\x60'.toUInt8 then ({ search with inTemplate := true }.close? rest).map (· + 1)
            else if byte = '\x7b'.toUInt8 then ({ search with depth := search.depth + 1 }.close? rest).map (· + 1)
            else if byte = '\x7d'.toUInt8 then
              match search.depth with
              | 0 => none
              | 1 => some 1
              | depth + 1 => ({ search with depth }.close? rest).map (· + 1)
            else (search.close? rest).map (· + 1)
termination_by bytes => bytes.length
decreasing_by
  all_goals
    simp only [List.length_drop, List.length_cons]
    omega

/-- The search that knows what a reader of characters knows. -/
def Search.of (depth : Nat) : Surroundings → Search
  | .code => { depth }
  | .string quote => { depth, quote := some quote.toUInt8 }
  | .template substitutions => { depth, inTemplate := true, substitutions }

/-- The quote of a string is a character of ASCII. -/
def Surroundings.IsPlain : Surroundings → Prop
  | .string quote => quote.toNat < 128
  | _ => True

variable {search : Search} {surroundings : Surroundings} {depth : Nat} {byte : UInt8} {rest high : List UInt8}
variable {c : Char} {text : List Char}

/-- No byte of a character outside of ASCII means anything to the search. -/
theorem Search.close?_high (plain : surroundings.IsPlain) (high : 128 ≤ byte) (rest : List UInt8) :
    (Search.of depth surroundings).close? (byte :: rest) =
      ((Search.of depth surroundings).close? rest).map (· + 1) := by
  have other : ∀ d : Char, d.toNat < 128 → byte ≠ d.toUInt8 := fun d ascii => Text.ne_of_high high ascii
  rw [Search.close?]
  cases surroundings with
  | code => simp [Search.of, other]
  | string quote => simp [Search.of, other _ plain, other]
  | template substitutions => simp [Search.of, other]

theorem Search.close?_append (plain : surroundings.IsPlain) (each : ∀ byte ∈ high, 128 ≤ byte) (rest : List UInt8) :
    (Search.of depth surroundings).close? (high ++ rest) =
      ((Search.of depth surroundings).close? rest).map (· + high.length) := by
  induction high with
  | nil => simp
  | cons byte high hypothesis =>
      obtain ⟨first, others⟩ := List.forall_mem_cons.1 each
      rw [List.cons_append, close?_high plain first, hypothesis others, Option.map_map, List.length_cons]
      rfl

theorem length_passed (front : List Char) (cut? : Option (List Char × List Char)) :
    (cut?.map fun cut => (bytes cut.1).length + 1).map (· + (bytes front).length) =
      (cut?.map fun cut => (front ++ cut.1, cut.2)).map fun cut => (bytes cut.1).length + 1 := by
  cases cut? with
  | none => rfl
  | some cut =>
      simp only [Option.map_some, Text.bytes_append, List.length_append, Option.some.injEq]
      omega

/-- Behind a character of ASCII a search goes on as it does behind its byte, and behind another one as before. -/
theorem Search.close?_cons {next : Surroundings} {later : Nat} (plain : surroundings.IsPlain)
    (one : c.toNat < 128 → (Search.of depth surroundings).close? (c.toUInt8 :: bytes text) =
      ((Search.of later next).close? (bytes text)).map (· + 1))
    (same : 128 ≤ c.toNat → next = surroundings ∧ later = depth) :
    (Search.of depth surroundings).close? (bytes (c :: text)) =
      ((Search.of later next).close? (bytes text)).map (· + (bytes [c]).length) := by
  rcases Text.encode_cases c with ⟨ascii, written⟩ | ⟨other, high⟩
  · rw [Text.bytes_cons_of_ascii ascii, Text.bytes_cons_of_ascii ascii, one ascii]
    rfl
  · obtain ⟨rfl, rfl⟩ := same other
    rw [Text.bytes_cons, close?_append plain high, Text.bytes_cons]
    simp [bytes]

theorem Search.close?_escape (plain : surroundings.IsPlain) (c : Char) (text : List Char) :
    (Search.of depth surroundings).close? (bytes ('\\' :: c :: text)) =
      ((Search.of depth surroundings).close? (bytes text)).map (· + (bytes ['\\', c]).length) := by
  obtain ⟨first, others, written, high⟩ := Text.exists_encode c
  rw [Text.bytes_cons_of_ascii (by decide), Text.bytes_cons, written, List.cons_append, close?,
    if_pos ⟨rfl, List.cons_ne_nil _ _⟩, List.drop_one, List.tail_cons, close?_append plain high, Option.map_map,
    Text.bytes_cons_of_ascii (by decide), Text.bytes_cons, written]
  simp [bytes, Function.comp_def, Nat.add_assoc]

/-- A character of ASCII is not hidden unless a backslash is before it. -/
theorem not_hides (ascii : c.toNat < 128) (unescaped : ∀ d others, c = '\\' → text = d :: others → False) :
    ¬(c.toUInt8 = '\\'.toUInt8 ∧ bytes text ≠ []) := by
  rintro ⟨same, full⟩
  cases text with
  | nil => exact full rfl
  | cons d others => exact unescaped d others ((Text.toUInt8_inj ascii (by decide)).1 same) rfl

theorem head?_bytes_iff (ascii : c.toNat < 128) : (bytes text).head? = some c.toUInt8 ↔ text.head? = some c := by
  cases text with
  | nil => simp [bytes]
  | cons d others =>
      rw [List.head?_cons, Option.some.injEq]
      rcases Text.encode_cases d with ⟨plain, same⟩ | ⟨other, high⟩
      · rw [Text.bytes_cons_of_ascii plain, List.head?_cons, Option.some.injEq, Text.toUInt8_inj plain ascii]
      · obtain ⟨first, behind, written, -⟩ := Text.exists_encode d
        rw [Text.bytes_cons, written, List.cons_append, List.head?_cons, Option.some.injEq]
        refine iff_of_false (Text.ne_of_high (high first (written ▸ List.mem_cons_self)) ascii) ?_
        rintro rfl
        omega

theorem ne_of_ascii {d : Char} (other : 128 ≤ c.toNat) (ascii : d.toNat < 128) : c ≠ d := by
  rintro rfl
  omega

/-- What a character in a template literal leads to. -/
def Surroundings.inTemplate (substitutions : Nat) (c : Char) : Surroundings :=
  if c == '\x60' && substitutions == 0 then .code
  else if c == '\x7d' then .template (substitutions - 1)
  else .template substitutions

/-- What a character in code leads to. -/
def Surroundings.inCode (c : Char) : Surroundings :=
  if c == '"' || c == '\'' then .string c else if c == '\x60' then .template 0 else .code

/-- The number of open braces behind a character in code. -/
def depthAfter (depth : Nat) (c : Char) : Nat :=
  if c == '\x7b' then depth + 1 else if c == '\x7d' then depth - 1 else depth

theorem Surroundings.isPlain_inTemplate (substitutions : Nat) (c : Char) : (inTemplate substitutions c).IsPlain := by
  unfold inTemplate
  split
  · trivial
  · split <;> trivial

theorem Surroundings.isPlain_inCode (c : Char) : (inCode c).IsPlain := by
  unfold inCode
  split
  · next quote =>
      have either : c = '"' ∨ c = '\'' := by simpa using quote
      rcases either with rfl | rfl
      · exact (by decide : '"'.toNat < 128)
      · exact (by decide : '\''.toNat < 128)
  · split <;> trivial

theorem le_depthAfter (deep : 1 ≤ depth) (remains : ¬(c == '\x7d' && decide (depth ≤ 1)) = true) :
    1 ≤ depthAfter depth c := by
  unfold depthAfter
  split
  · omega
  · split
    · next closes =>
        simp [beq_iff_eq.1 closes] at remains
        omega
    · exact deep

theorem Search.close?_string {quote : Char} (plain : quote.toNat < 128)
    (unescaped : ∀ d others, c = '\\' → text = d :: others → False) :
    (Search.of depth (.string quote)).close? (bytes (c :: text)) =
      ((Search.of depth (if c == quote then .code else .string quote)).close? (bytes text)).map
        (· + (bytes [c]).length) := by
  refine close?_cons plain (fun ascii => ?_) fun other => ?_
  · rw [close?, if_neg (not_hides ascii unescaped)]
    simp only [Search.of, Text.toUInt8_inj ascii plain]
    by_cases closes : c = quote <;> simp [closes]
  · simp [ne_of_ascii other plain]

theorem Search.close?_substitution (substitutions : Nat) (text : List Char) :
    (Search.of depth (.template substitutions)).close? (bytes ('$' :: '\x7b' :: text)) =
      ((Search.of depth (.template (substitutions + 1))).close? (bytes text)).map
        (· + (bytes ['$', '\x7b']).length) := by
  have other : ¬('$'.toUInt8 = '\\'.toUInt8 ∧ '\x7b'.toUInt8 :: bytes text ≠ []) := fun hides =>
    absurd hides.1 (by decide)
  rw [Text.bytes_cons_of_ascii (by decide), Text.bytes_cons_of_ascii (by decide), close?, if_neg other]
  rfl

theorem Search.close?_template {substitutions : Nat}
    (unescaped : ∀ d others, c = '\\' → text = d :: others → False)
    (unopened : ∀ others, c = '$' → text = '\x7b' :: others → False) :
    (Search.of depth (.template substitutions)).close? (bytes (c :: text)) =
      ((Search.of depth (.inTemplate substitutions c)).close? (bytes text)).map (· + (bytes [c]).length) := by
  refine close?_cons trivial (fun ascii => ?_) fun other => ?_
  · have same : ∀ d : Char, d.toNat < 128 → (c.toUInt8 = d.toUInt8 ↔ c = d) := fun d => Text.toUInt8_inj ascii
    have shut : ¬(c.toUInt8 = '$'.toUInt8 ∧ (bytes text).head? = some '\x7b'.toUInt8) := by
      rintro ⟨dollar, brace⟩
      obtain ⟨others, rfl⟩ := List.head?_eq_some_iff.1 ((head?_bytes_iff (by decide)).1 brace)
      exact unopened others ((same _ (by decide)).1 dollar) rfl
    rw [close?, if_neg (not_hides ascii unescaped)]
    simp only [Search.of, if_true, if_neg shut, same _ (by decide : '\x60'.toNat < 128),
      same _ (by decide : '\x7d'.toNat < 128)]
    by_cases ends : c = '\x60' ∧ substitutions = 0
    · simp [Surroundings.inTemplate, ends]
    · by_cases closes : c = '\x7d'
      · cases substitutions <;> simp_all [Surroundings.inTemplate]
      · simp [Surroundings.inTemplate, ends, closes]
  · simp [Surroundings.inTemplate, ne_of_ascii other]

/-- In code each of the characters that count has a branch of its own. -/
theorem Search.close?_code (deep : 1 ≤ depth) (unescaped : ∀ d others, c = '\\' → text = d :: others → False)
    (remains : ¬(c == '\x7d' && decide (depth ≤ 1)) = true) :
    (Search.of depth .code).close? (bytes (c :: text)) =
      ((Search.of (depthAfter depth c) (.inCode c)).close? (bytes text)).map (· + (bytes [c]).length) := by
  refine close?_cons trivial (fun ascii => ?_) fun other => ?_
  · have same : ∀ d : Char, d.toNat < 128 → (c.toUInt8 = d.toUInt8 ↔ c = d) := fun d => Text.toUInt8_inj ascii
    rw [close?, if_neg (not_hides ascii unescaped)]
    simp only [Search.of, same _ (by decide : '"'.toNat < 128), same _ (by decide : '\''.toNat < 128),
      same _ (by decide : '\x60'.toNat < 128), same _ (by decide : '\x7b'.toNat < 128),
      same _ (by decide : '\x7d'.toNat < 128)]
    by_cases quote : c = '"' ∨ c = '\''
    · rcases quote with rfl | rfl <;> rfl
    · obtain ⟨notDouble, notSingle⟩ := not_or.1 quote
      by_cases template : c = '\x60'
      · subst template
        rfl
      · by_cases opens : c = '\x7b'
        · subst opens
          rfl
        · by_cases closes : c = '\x7d'
          · subst closes
            obtain ⟨less, rfl⟩ : ∃ less, depth = less + 2 := by
              simp at remains
              exact ⟨depth - 2, by omega⟩
            rfl
          · simp [Surroundings.inCode, depthAfter, notDouble, notSingle, template, opens, closes]
  · simp [Surroundings.inCode, depthAfter, ne_of_ascii other]

/-- The search finds the brace among bytes that a reader of characters finds. A byte that is hidden behind a backslash
may be the first one of a character; those behind it mean nothing. -/
theorem Search.close?_bytes (deep : 1 ≤ depth) (plain : surroundings.IsPlain) (text : List Char) :
    (Search.of depth surroundings).close? (bytes text) =
      (closeBrace surroundings depth text).map fun cut => (bytes cut.1).length + 1 := by
  fun_induction closeBrace surroundings depth text with
  | case1 surroundings depth => exact Search.close?.eq_1 _
  | case2 surroundings depth c rest hypothesis =>
      rw [close?_escape plain, hypothesis deep plain, length_passed]
      rfl
  | case3 substitutions depth rest hypothesis =>
      rw [close?_substitution, hypothesis deep trivial, length_passed]
      rfl
  | case4 quote depth c rest unescaped hypothesis =>
      have next : Surroundings.IsPlain (if c == quote then .code else .string quote) := by
        split
        · trivial
        · exact plain
      rw [close?_string plain unescaped, hypothesis deep next, length_passed]
      rfl
  | case5 substitutions depth c rest unescaped unopened next hypothesis =>
      refine (close?_template unescaped unopened).trans ?_
      rw [show Surroundings.inTemplate substitutions c = next from rfl,
        hypothesis deep (Surroundings.isPlain_inTemplate substitutions c), length_passed]
      rfl
  | case6 depth c rest unescaped closes =>
      obtain ⟨rfl, shallow⟩ : c = '\x7d' ∧ depth ≤ 1 := by simpa using closes
      obtain rfl := Nat.le_antisymm shallow deep
      rw [Text.bytes_cons_of_ascii (by decide), close?, if_neg (not_hides (by decide) unescaped)]
      rfl
  | case7 depth c rest unescaped remains next later hypothesis =>
      refine (close?_code deep unescaped remains).trans ?_
      rw [show Surroundings.inCode c = next from rfl, show depthAfter depth c = later from rfl,
        hypothesis (le_depthAfter deep remains) (Surroundings.isPlain_inCode c), length_passed]
      rfl

/-! ## Placeholders among bytes -/

/-- A placeholder in bytes: where it starts and where it ends, its code and whether it is escaped. -/
structure Span where
  start : Nat
  stop : Nat
  code : String
  escape : Bool
  deriving DecidableEq, Repr

/-- Why bytes cannot be scanned. -/
inductive ScanFault
  /-- A placeholder starts here that is none. -/
  | malformed (fault : PieceFault) (offset : Nat)
  /-- A slice starts or ends inside of a character. -/
  | broken
  deriving DecidableEq, Repr

/-- The mark that opens a placeholder. -/
def mark (escape : Bool) : List Char :=
  if escape then ['$', '\x7b'] else ['$', '!', '\x7b']

theorem length_mark_pos (escape : Bool) : 1 < (mark escape).length := by
  cases escape <;> decide

/-- Is a placeholder opened by the dollar at an offset, and is it escaped? -/
def opened? (bytes : List UInt8) (offset : Nat) : Option Bool :=
  if bytes[offset + 1]? = some '\x7b'.toUInt8 then some true
  else if bytes[offset + 1]? = some '!'.toUInt8 ∧ bytes[offset + 2]? = some '\x7b'.toUInt8 then some false
  else none

/-- The placeholders in bytes from an offset on. A dollar behind a backslash is passed with it. -/
def scanFrom (bytes : List UInt8) (offset : Nat) : Except ScanFault (List Span) :=
  if offset < bytes.length then
    if bytes[offset]? = some '\\'.toUInt8 ∧ bytes[offset + 1]? = some '$'.toUInt8 then scanFrom bytes (offset + 2)
    else if bytes[offset]? ≠ some '$'.toUInt8 then scanFrom bytes (offset + 1)
    else
      match opened? bytes offset with
      | none => scanFrom bytes (offset + 1)
      | some escape =>
          let brace := offset + ((mark escape).length - 1)
          match Search.close? {} (bytes.drop brace) with
          | none => .error (.malformed .unterminated offset)
          | some count =>
              match Text.slice? bytes (brace + 1) (brace + count - 1) with
              | none => .error .broken
              | some inside =>
                  let code := String.ofList (Text.trim inside)
                  if code.isEmpty then .error (.malformed .empty offset)
                  else
                    (scanFrom bytes (brace + count)).map
                      ({ start := offset, stop := brace + count, code, escape } :: ·)
  else .ok []
termination_by bytes.length - offset
decreasing_by
  · omega
  · omega
  · omega
  · have long := length_mark_pos escape
    omega

/-- The placeholders in the bytes of a text. -/
def scan (text : String) : Except ScanFault (List Span) :=
  scanFrom (bytes text.toList) 0

/-! ## Characters and bytes are scanned alike -/

variable {escape : Bool} {front rest behind source : List Char} {placeholder : Placeholder} {fault : PieceFault}

theorem opening?_eq_some_iff {opener : List Char} :
    opening? text = some (opener, escape, rest) ↔ opener = mark escape ∧ text = mark escape ++ rest := by
  constructor
  · intro opened
    have cut := opening?_source opened
    unfold opening? at opened
    split at opened
    · cases opened
      exact ⟨rfl, cut⟩
    · cases opened
      exact ⟨rfl, cut⟩
    · cases opened
  · rintro ⟨rfl, rfl⟩
    cases escape <;> rfl

/-- Text is passed as a dollar behind a backslash, or as a character by itself that starts neither that nor a
placeholder. -/
theorem start_text_cases (found : start text = .piece (.text source) rest) : opening? text = none ∧
    (source = ['\\', '$'] ∨ ∃ c, source = [c] ∧ (c = '\\' → rest.head? ≠ some '$')) := by
  unfold start at found
  split at found
  · split at found
    · cases found
    · dsimp only at found
      split at found <;> cases found
  · next unopened =>
      refine ⟨unopened, ?_⟩
      split at found
      · cases found
      · cases found
        exact .inl rfl
      · next c others unescaped =>
          cases found
          refine .inr ⟨c, rfl, ?_⟩
          rintro rfl dollar
          obtain ⟨more, rfl⟩ := List.head?_eq_some_iff.1 dollar
          exact unescaped more rfl rfl

theorem start_code_cases (found : start text = .piece (.code placeholder) rest) : ∃ inside,
    text = mark placeholder.escape ++ (inside ++ '\x7d' :: rest) ∧
      closeBrace .code 1 (inside ++ '\x7d' :: rest) = some (inside, rest) ∧
      placeholder.source = mark placeholder.escape ++ inside ++ ['\x7d'] ∧
      placeholder.code = String.ofList (Text.trim inside) ∧ placeholder.code ≠ "" := by
  unfold start at found
  split at found
  · next opener escape behind opened =>
      obtain ⟨rfl, cut⟩ := opening?_eq_some_iff.1 opened
      split at found
      · cases found
      · next inside after closed =>
          dsimp only at found
          split at found
          · cases found
          · next full =>
              cases found
              have source := closeBrace_source closed
              refine ⟨inside, source ▸ cut, source ▸ closed, rfl, rfl, fun empty => full ?_⟩
              exact String.isEmpty_iff.2 empty
  · split at found <;> cases found

/-- What is no placeholder although it is opened like one. -/
def Fails (fault : PieceFault) (behind : List Char) : Prop :=
  fault = .unterminated ∧ closeBrace .code 1 behind = none ∨
    fault = .empty ∧ ∃ inside after, closeBrace .code 1 behind = some (inside, after) ∧ Text.trim inside = []

theorem start_fault_cases (found : start text = .fault fault) :
    ∃ escape behind, text = mark escape ++ behind ∧ Fails fault behind := by
  unfold start at found
  split at found
  · next opener escape behind opened =>
      obtain ⟨rfl, cut⟩ := opening?_eq_some_iff.1 opened
      refine ⟨escape, behind, cut, ?_⟩
      split at found
      · next unclosed =>
          cases found
          exact .inl ⟨rfl, unclosed⟩
      · next inside after closed =>
          dsimp only at found
          split at found
          · next empty =>
              cases found
              refine .inr ⟨rfl, inside, after, closed, ?_⟩
              simpa using empty
          · cases found
  · split at found <;> cases found

theorem getElem?_behind (front back : List UInt8) (k : Nat) : (front ++ back)[front.length + k]? = back[k]? := by
  rw [List.getElem?_append_right (Nat.le_add_right _ _), Nat.add_sub_cancel_left]

theorem getElem?_zero_bytes {c : Char} {text : List Char} (ascii : c.toNat < 128) :
    (bytes text)[0]? = some c.toUInt8 ↔ text.head? = some c := by
  rw [← List.head?_eq_getElem?]
  exact head?_bytes_iff ascii

theorem opened?_bytes (front text : List Char) :
    opened? (bytes (front ++ '$' :: text)) (bytes front).length =
      (opening? ('$' :: text)).map fun found => found.2.1 := by
  unfold opened?
  rw [Text.bytes_append, Text.bytes_cons_of_ascii (by decide), getElem?_behind, getElem?_behind,
    List.getElem?_cons_succ, List.getElem?_cons_succ]
  simp only [getElem?_zero_bytes (by decide : '\x7b'.toNat < 128), getElem?_zero_bytes (by decide : '!'.toNat < 128)]
  by_cases braced : text.head? = some '\x7b'
  · obtain ⟨others, rfl⟩ := List.head?_eq_some_iff.1 braced
    rfl
  · rw [if_neg braced]
    by_cases banged : text.head? = some '!'
    · obtain ⟨others, rfl⟩ := List.head?_eq_some_iff.1 banged
      simp only [Text.bytes_cons_of_ascii (by decide : '!'.toNat < 128), List.getElem?_cons_succ,
        getElem?_zero_bytes (by decide : '\x7b'.toNat < 128)]
      by_cases opens : others.head? = some '\x7b'
      · obtain ⟨more, rfl⟩ := List.head?_eq_some_iff.1 opens
        rfl
      · rw [if_neg fun both => opens both.2]
        cases others with
        | nil => rfl
        | cons d more =>
            have other : d ≠ '\x7b' := fun same => opens (congrArg some same)
            simp [opening?, other]
    · rw [if_neg fun both => banged both.1]
      cases text with
      | nil => rfl
      | cons c others =>
          have notBrace : c ≠ '\x7b' := fun same => braced (congrArg some same)
          have notBang : c ≠ '!' := fun same => banged (congrArg some same)
          simp [opening?, notBrace, notBang]

/-- The offsets of the placeholders among pieces, of which the first one starts at an offset. -/
def spans (offset : Nat) : List Piece → List Span
  | [] => []
  | .text source :: pieces => spans (offset + (bytes source).length) pieces
  | .code placeholder :: pieces =>
      let stop := offset + (bytes placeholder.source).length
      { start := offset, stop, code := placeholder.code, escape := placeholder.escape } :: spans stop pieces

theorem spans_cons (offset : Nat) (piece : Piece) (pieces : List Piece) :
    spans offset (piece.cons pieces) = spans offset (piece :: pieces) := by
  unfold Piece.cons
  split
  · rw [spans, spans, spans, Text.bytes_append, List.length_append, Nat.add_assoc]
  · rfl

/-- What scanning comes to for pieces of a text, or for what is no placeholder in it. -/
def located (offset : Nat) : Except (PieceFault × List Char) (List Piece) → Except ScanFault (List Span)
  | .ok pieces => .ok (spans offset pieces)
  | .error (fault, before) => .error (.malformed fault (offset + (bytes before).length))

/-- Bytes that are no dollar and no backslash are passed one by one. -/
theorem scanFrom_high {high : List UInt8} (each : ∀ byte ∈ high, 128 ≤ byte) (front back : List UInt8) :
    scanFrom (front ++ (high ++ back)) front.length =
      scanFrom (front ++ (high ++ back)) (front.length + high.length) := by
  induction high generalizing front with
  | nil => rfl
  | cons byte high hypothesis =>
      obtain ⟨first, others⟩ := List.forall_mem_cons.1 each
      have here : (front ++ (byte :: high ++ back))[front.length]? = some byte := by
        simp
      have within : front.length < (front ++ (byte :: high ++ back)).length := by simp
      have other : ∀ d : Char, d.toNat < 128 → byte ≠ d.toUInt8 := fun d ascii => Text.ne_of_high first ascii
      rw [scanFrom, if_pos within, here, if_neg (by simp [other]), if_pos (by simp [other])]
      have next := hypothesis others (front ++ [byte])
      simp only [List.length_append, List.length_singleton, List.append_assoc, List.singleton_append] at next
      rw [List.cons_append, next, List.length_cons]
      congr 1
      omega

/-- Scanning passes what a reader of characters takes for text. -/
theorem scanFrom_text (front : List Char) (starts : start text = .piece (.text source) rest) :
    scanFrom (bytes (front ++ text)) (bytes front).length =
      scanFrom (bytes (front ++ text)) ((bytes front).length + (bytes source).length) := by
  have cut := start_source starts
  obtain ⟨unopened, kinds⟩ := start_text_cases starts
  rcases kinds with rfl | ⟨c, rfl, unescaped⟩
  · subst cut
    rw [Text.bytes_append, Piece.source, List.cons_append, List.cons_append, List.nil_append,
      Text.bytes_cons_of_ascii (by decide), Text.bytes_cons_of_ascii (by decide), scanFrom,
      if_pos (by simp), if_pos ⟨by simp, by simp⟩]
    rfl
  · subst cut
    change scanFrom (bytes (front ++ c :: rest)) _ = scanFrom (bytes (front ++ c :: rest)) _
    change opening? (c :: rest) = none at unopened
    rcases Text.encode_cases c with ⟨ascii, written⟩ | ⟨other, high⟩
    · have single : (bytes [c]).length = 1 := by rw [Text.bytes_cons, written]; rfl
      have here : (bytes (front ++ c :: rest))[(bytes front).length]? = some c.toUInt8 := by
        rw [Text.bytes_append, Text.bytes_cons_of_ascii ascii]
        simp
      have next : (bytes (front ++ c :: rest))[(bytes front).length + 1]? = (bytes rest)[0]? := by
        rw [Text.bytes_append, Text.bytes_cons_of_ascii ascii, getElem?_behind, List.getElem?_cons_succ]
      have within : (bytes front).length < (bytes (front ++ c :: rest)).length := by
        rw [Text.bytes_append, Text.bytes_cons_of_ascii ascii]
        simp
      have bare : ¬(c.toUInt8 = '\\'.toUInt8 ∧ rest.head? = some '$') := by
        rintro ⟨backslash, dollar⟩
        exact unescaped ((Text.toUInt8_inj ascii (by decide)).1 backslash) dollar
      rw [scanFrom, if_pos within, here, next, single]
      simp only [getElem?_zero_bytes (by decide : '$'.toNat < 128), Option.some.injEq, if_neg bare, ne_eq,
        Text.toUInt8_inj ascii (by decide : '$'.toNat < 128)]
      by_cases dollar : c = '$'
      · subst dollar
        rw [if_neg (not_not.2 rfl), opened?_bytes, unopened]
        rfl
      · rw [if_pos dollar]
    · have passed := scanFrom_high high (bytes front) (bytes rest)
      rw [Text.bytes_append, Text.bytes_cons]
      simpa [bytes] using passed

theorem Search.close?_brace (rest : List UInt8) :
    Search.close? {} ('\x7b'.toUInt8 :: rest) = ((Search.of 1 .code).close? rest).map (· + 1) := by
  have other : ¬('\x7b'.toUInt8 = '\\'.toUInt8 ∧ rest ≠ []) := fun hides => absurd hides.1 (by decide)
  rw [close?, if_neg other]
  rfl

/-! ## Where a placeholder is opened -/

theorem length_bytes_mark (escape : Bool) : (bytes (mark escape)).length = (mark escape).length := by
  cases escape <;> decide

theorem bytes_opened (front behind : List Char) (escape : Bool) : ∃ opener,
    bytes (front ++ (mark escape ++ behind)) = bytes front ++ '$'.toUInt8 :: (opener ++ '\x7b'.toUInt8 :: bytes behind) ∧
      opener.length + 1 = (mark escape).length - 1 := by
  obtain ⟨opener, written, long⟩ : ∃ opener, bytes (mark escape) = '$'.toUInt8 :: (opener ++ ['\x7b'.toUInt8]) ∧
      opener.length + 1 = (mark escape).length - 1 := by
    cases escape
    · exact ⟨bytes ['!'], by decide, by decide⟩
    · exact ⟨[], by decide, by decide⟩
  refine ⟨opener, ?_, long⟩
  rw [Text.bytes_append, Text.bytes_append, written]
  simp

theorem opened?_mark (front behind : List Char) (escape : Bool) :
    opened? (bytes (front ++ (mark escape ++ behind))) (bytes front).length = some escape := by
  cases escape <;> exact opened?_bytes front _

theorem Search.close?_mark (front behind : List Char) (escape : Bool) :
    Search.close? {} ((bytes (front ++ (mark escape ++ behind))).drop
      ((bytes front).length + ((mark escape).length - 1))) =
      (closeBrace .code 1 behind).map fun cut => (bytes cut.1).length + 2 := by
  obtain ⟨opener, written, long⟩ := bytes_opened front behind escape
  have found := @Search.close?_bytes .code 1 (Nat.le_refl 1) trivial behind
  rw [written, ← List.drop_drop, List.drop_left, ← long, List.drop_succ_cons, List.drop_left, close?_brace, found,
    Option.map_map]
  rfl

theorem slice?_inside {inside after : List Char} (front : List Char) (escape : Bool)
    (closed : closeBrace .code 1 behind = some (inside, after)) :
    Text.slice? (bytes (front ++ (mark escape ++ behind))) ((bytes front).length + (mark escape).length)
      ((bytes front).length + (mark escape).length + (bytes inside).length) = some inside := by
  have slice := Text.slice?_bytes (front ++ mark escape) inside ('\x7d' :: after)
  rw [← closeBrace_source closed, List.append_assoc] at slice
  simpa only [Text.bytes_append, List.length_append, length_bytes_mark] using slice

theorem length_bytes_source (escape : Bool) (inside : List Char) :
    (bytes (mark escape ++ inside ++ ['\x7d'])).length = (mark escape).length + (bytes inside).length + 1 := by
  rw [Text.bytes_append, Text.bytes_append, List.length_append, List.length_append, length_bytes_mark]
  rfl

/-- Where a placeholder is opened, scanning depends on the brace that a reader of characters finds. -/
theorem scanFrom_opened (front behind : List Char) (escape : Bool) :
    scanFrom (bytes (front ++ (mark escape ++ behind))) (bytes front).length =
      match closeBrace .code 1 behind with
      | none => .error (.malformed .unterminated (bytes front).length)
      | some (inside, _) =>
          let code := String.ofList (Text.trim inside)
          let stop := (bytes front).length + (bytes (mark escape ++ inside ++ ['\x7d'])).length
          if code.isEmpty then .error (.malformed .empty (bytes front).length)
          else
            (scanFrom (bytes (front ++ (mark escape ++ behind))) stop).map
              ({ start := (bytes front).length, stop, code, escape } :: ·) := by
  have two := length_mark_pos escape
  obtain ⟨opener, written, -⟩ := bytes_opened front behind escape
  have here : (bytes (front ++ (mark escape ++ behind)))[(bytes front).length]? = some '$'.toUInt8 := by
    rw [written]
    simp
  have within : (bytes front).length < (bytes (front ++ (mark escape ++ behind))).length := by
    rw [written]
    simp
  have bare : ¬(some '$'.toUInt8 = some '\\'.toUInt8 ∧
      (bytes (front ++ (mark escape ++ behind)))[(bytes front).length + 1]? = some '$'.toUInt8) :=
    fun hides => absurd hides.1 (by decide)
  rw [scanFrom, if_pos within, here, if_neg bare, if_neg (not_not.2 rfl), opened?_mark]
  dsimp only
  rw [Search.close?_mark]
  cases closed : closeBrace .code 1 behind with
  | none => rfl
  | some cut =>
      obtain ⟨inside, after⟩ := cut
      -- the brace that opens is the last character of the mark
      have first : (bytes front).length + ((mark escape).length - 1) + 1 =
          (bytes front).length + (mark escape).length := by omega
      have last : (bytes front).length + ((mark escape).length - 1) + ((bytes inside).length + 2) - 1 =
          (bytes front).length + (mark escape).length + (bytes inside).length := by omega
      have stop : (bytes front).length + ((mark escape).length - 1) + ((bytes inside).length + 2) =
          (bytes front).length + ((mark escape).length + (bytes inside).length + 1) := by omega
      simp only [Option.map_some]
      rw [first, last, slice?_inside front escape closed, length_bytes_source, stop]

/-- Scanning finds what a reader of characters takes for a placeholder. -/
theorem scanFrom_code (front : List Char) (starts : start text = .piece (.code placeholder) rest) :
    scanFrom (bytes (front ++ text)) (bytes front).length =
      (scanFrom (bytes (front ++ text)) ((bytes front).length + (bytes placeholder.source).length)).map
        ({ start := (bytes front).length, stop := (bytes front).length + (bytes placeholder.source).length,
           code := placeholder.code, escape := placeholder.escape } :: ·) := by
  obtain ⟨inside, rfl, closed, source, code, full⟩ := start_code_cases starts
  have full' : ¬(String.ofList (Text.trim inside)).isEmpty = true := by
    rw [← code, String.isEmpty_iff]
    exact full
  conv_lhs => rw [scanFrom_opened, closed]
  dsimp only
  rw [if_neg full', source, code]

/-- Scanning stops at what a reader of characters takes for no placeholder. -/
theorem scanFrom_fault (front : List Char) (starts : start text = .fault fault) :
    scanFrom (bytes (front ++ text)) (bytes front).length = .error (.malformed fault (bytes front).length) := by
  obtain ⟨escape, behind, rfl, fails⟩ := start_fault_cases starts
  rw [scanFrom_opened]
  rcases fails with ⟨rfl, none⟩ | ⟨rfl, inside, after, closed, blank⟩
  · rw [none]
  · rw [closed]
    dsimp only
    rw [blank]
    rfl

theorem located_text (offset : Nat) (starts : start text = .piece (.text source) rest) :
    located offset (pieces text) = located (offset + (bytes source).length) (pieces rest) := by
  rw [pieces_of_piece starts]
  rcases pieces rest with ⟨fault, before⟩ | found
  · simp only [located, Piece.source, Text.bytes_append, List.length_append, Nat.add_assoc]
  · simp only [located, spans_cons, spans]

theorem located_code (offset : Nat) (starts : start text = .piece (.code placeholder) rest) :
    located offset (pieces text) =
      (located (offset + (bytes placeholder.source).length) (pieces rest)).map
        ({ start := offset, stop := offset + (bytes placeholder.source).length, code := placeholder.code,
           escape := placeholder.escape } :: ·) := by
  rw [pieces_of_piece starts]
  rcases pieces rest with ⟨fault, before⟩ | found
  · simp only [located, Piece.source, Text.bytes_append, List.length_append, Nat.add_assoc]
    rfl
  · simp only [located, spans_cons, spans]
    rfl

/-- Scanning bytes comes to what a reader of characters finds. -/
theorem scanFrom_bytes (front text : List Char) :
    scanFrom (bytes (front ++ text)) (bytes front).length = located (bytes front).length (pieces text) := by
  induction length : text.length using Nat.strongRecOn generalizing front text with
  | ind length hypothesis =>
      cases starts : start text with
      | nothing =>
          rw [pieces_of_nothing starts, show text = [] from eq_nil_of_start starts, List.append_nil, scanFrom,
            if_neg (Nat.lt_irrefl _)]
          rfl
      | fault fault =>
          rw [pieces_of_fault starts, scanFrom_fault front starts]
          rfl
      | piece piece rest =>
          have behind := hypothesis rest.length (length ▸ length_lt_of_start starts) (front ++ piece.source) rest rfl
          rw [List.append_assoc, ← start_source starts, Text.bytes_append front piece.source,
            List.length_append] at behind
          cases piece with
          | text source =>
              rw [scanFrom_text front starts, located_text _ starts]
              exact behind
          | code placeholder =>
              rw [scanFrom_code front starts, located_code _ starts]
              exact congrArg _ behind

end Placeholder

end HtmlTemplate
