import HtmlTemplate.Text.Space

/-!
# Placeholders

A placeholder is code in a template: `${code}` is escaped where it is written out and `$!{code}` is not.
A backslash before the dollar makes it plain text. A text is read as a list of pieces whose sources,
joined, are the text again.
-/

namespace HtmlTemplate

/-- A placeholder: its source with dollar and braces, the trimmed code, and whether it is escaped. -/
structure Placeholder where
  source : List Char
  code : String
  escape : Bool
  deriving DecidableEq, Repr, Inhabited

/-- A piece of a text. -/
inductive Piece
  /-- Text outside placeholders, backslashes included. -/
  | text (source : List Char)
  | code (placeholder : Placeholder)
  deriving DecidableEq, Repr, Inhabited

namespace Piece

/-- The characters that the piece was read from. -/
def source : Piece → List Char
  | text source => source
  | code placeholder => placeholder.source

/-- Puts a piece before others; text grows together. -/
def cons : Piece → List Piece → List Piece
  | text source, text next :: pieces => text (source ++ next) :: pieces
  | piece, pieces => piece :: pieces

end Piece

/-- Why a text cannot be cut into pieces. -/
inductive PieceFault
  /-- No brace closes the placeholder. -/
  | unterminated
  /-- There is no code between the braces. -/
  | empty
  deriving DecidableEq, Repr

namespace Placeholder

/-- What a brace in code would be a part of. -/
inductive Surroundings
  | code
  | string (quote : Char)
  /-- A template literal, with the number of open substitutions in it. -/
  | template (substitutions : Nat)
  deriving DecidableEq, Repr

/--
The text up to the brace that closes the ones open, without it, and the text behind it. Braces in
strings and template literals do not count, and a backslash hides the character after it.
-/
def closeBrace : Surroundings → Nat → List Char → Option (List Char × List Char)
  | _, _, [] => none
  | surroundings, depth, '\\' :: c :: rest =>
      (closeBrace surroundings depth rest).map fun (inside, after) => ('\\' :: c :: inside, after)
  | .template substitutions, depth, '$' :: '\x7b' :: rest =>
      (closeBrace (.template (substitutions + 1)) depth rest).map fun (inside, after) =>
        ('$' :: '\x7b' :: inside, after)
  | .string quote, depth, c :: rest =>
      (closeBrace (if c == quote then .code else .string quote) depth rest).map fun (inside, after) =>
        (c :: inside, after)
  | .template substitutions, depth, c :: rest =>
      let surroundings : Surroundings :=
        if c == '\x60' && substitutions == 0 then .code
        else if c == '\x7d' then .template (substitutions - 1)
        else .template substitutions
      (closeBrace surroundings depth rest).map fun (inside, after) => (c :: inside, after)
  | .code, depth, c :: rest =>
      if c == '\x7d' && depth ≤ 1 then some ([], rest)
      else
        let surroundings : Surroundings :=
          if c == '"' || c == '\'' then .string c else if c == '\x60' then .template 0 else .code
        let depth := if c == '\x7b' then depth + 1 else if c == '\x7d' then depth - 1 else depth
        (closeBrace surroundings depth rest).map fun (inside, after) => (c :: inside, after)

/-- What is read up to a closing brace is the text, cut at that brace. -/
theorem closeBrace_source {surroundings : Surroundings} {depth : Nat} {text inside after : List Char}
    (closed : closeBrace surroundings depth text = some (inside, after)) :
    text = inside ++ '\x7d' :: after := by
  fun_induction closeBrace surroundings depth text generalizing inside after <;>
    simp_all [Option.map_eq_some_iff]
  all_goals grind

/-- The mark that opens a placeholder, whether it asks for escaping, and the text behind it. -/
def opening? : List Char → Option (List Char × Bool × List Char)
  | '$' :: '\x7b' :: rest => some (['$', '\x7b'], true, rest)
  | '$' :: '!' :: '\x7b' :: rest => some (['$', '!', '\x7b'], false, rest)
  | _ => none

/-- The opening mark is the start of the text. -/
theorem opening?_source {text mark rest : List Char} {escape : Bool}
    (opened : opening? text = some (mark, escape, rest)) : text = mark ++ rest := by
  unfold opening? at opened
  split at opened
  · simp only [Option.some.injEq, Prod.mk.injEq] at opened
    obtain ⟨rfl, -, rfl⟩ := opened
    rfl
  · simp only [Option.some.injEq, Prod.mk.injEq] at opened
    obtain ⟨rfl, -, rfl⟩ := opened
    rfl
  · simp at opened

/-- What a text starts with. -/
inductive Start
  /-- The text is empty. -/
  | nothing
  /-- What opens a placeholder is none. -/
  | fault (fault : PieceFault)
  /-- A piece, and the text behind it. -/
  | piece (piece : Piece) (rest : List Char)

/-- What a text starts with: a placeholder, a dollar behind a backslash, or else a character. -/
def start (text : List Char) : Start :=
  match opening? text with
  | some (mark, escape, rest) =>
      match closeBrace .code 1 rest with
      | none => .fault .unterminated
      | some (inside, after) =>
          let code := String.ofList (Text.trim inside)
          if code.isEmpty then .fault .empty
          else .piece (.code { source := mark ++ inside ++ ['\x7d'], code, escape }) after
  | none =>
      match text with
      | [] => .nothing
      | '\\' :: '$' :: rest => .piece (.text ['\\', '$']) rest
      | c :: rest => .piece (.text [c]) rest

/-- A text is the source of the piece that it starts with, and what is behind that. -/
theorem start_source {text rest : List Char} {piece : Piece} (found : start text = .piece piece rest) :
    text = piece.source ++ rest := by
  unfold start at found
  split at found
  · rename_i opened
    split at found
    · simp at found
    · rename_i closed
      dsimp only at found
      split at found
      · simp at found
      · simp only [Start.piece.injEq] at found
        obtain ⟨rfl, rfl⟩ := found
        rw [opening?_source opened, closeBrace_source closed]
        simp only [Piece.source, List.append_assoc, List.cons_append, List.nil_append]
  · split at found
    · simp at found
    · simp only [Start.piece.injEq] at found
      obtain ⟨rfl, rfl⟩ := found
      rfl
    · simp only [Start.piece.injEq] at found
      obtain ⟨rfl, rfl⟩ := found
      rfl

/-- The piece that a text starts with is not empty. -/
theorem start_source_ne_nil {text rest : List Char} {piece : Piece}
    (found : start text = .piece piece rest) : piece.source ≠ [] := by
  unfold start at found
  split at found
  · split at found
    · simp at found
    · dsimp only at found
      split at found
      · simp at found
      · simp only [Start.piece.injEq] at found
        obtain ⟨rfl, -⟩ := found
        simp [Piece.source]
  · split at found
    · simp at found
    · simp only [Start.piece.injEq] at found
      obtain ⟨rfl, -⟩ := found
      simp [Piece.source]
    · simp only [Start.piece.injEq] at found
      obtain ⟨rfl, -⟩ := found
      simp [Piece.source]

/-- What is behind the piece that a text starts with is shorter than the text. -/
theorem length_lt_of_start {text rest : List Char} {piece : Piece}
    (found : start text = .piece piece rest) : rest.length < text.length := by
  have source := congrArg List.length (start_source found)
  have positive := List.length_pos_iff.mpr (start_source_ne_nil found)
  rw [List.length_append] at source
  omega

/--
Cuts a text into pieces. On failure the answer is the cause and how much of the text stands before the
placeholder that fails.
-/
def pieces (text : List Char) : Except (PieceFault × List Char) (List Piece) :=
  match _found : start text with
  | .nothing => .ok []
  | .fault fault => .error (fault, [])
  | .piece piece rest =>
      match pieces rest with
      | .ok found => .ok (piece.cons found)
      | .error (fault, before) => .error (fault, piece.source ++ before)
termination_by text.length
decreasing_by exact length_lt_of_start _found

/-- Plain text with the backslash removed from each dollar that would open a placeholder. -/
def unescape : List Char → List Char
  | '\\' :: '$' :: '\x7b' :: rest => '$' :: '\x7b' :: unescape rest
  | '\\' :: '$' :: '!' :: '\x7b' :: rest => '$' :: '!' :: '\x7b' :: unescape rest
  | c :: rest => c :: unescape rest
  | [] => []

end Placeholder

end HtmlTemplate
