import HtmlTemplate.CodeModule
import HtmlTemplate.Proofs.Tree.Ancestry
import HtmlTemplate.Proofs.Text.Space
import HtmlTemplate.Script.Lexer

/-!
# Comments that stay in the code

A comment that is not written out is kept in the code, line by line. Its text is cut at line feeds, and JavaScript
ends lines at three more characters. They are trimmed off where a line starts or ends; between two characters of a
line that are no whitespace they stay, and what is behind them is read as code. Without them JavaScript passes over
each line that is printed for the comment.
-/

namespace HtmlTemplate

/-- Between two characters of one line that are no whitespace, there is one that ends a line of JavaScript. -/
def Text.IsBroken (text : List Char) : Prop :=
  ∃ start first between last rest, text = start ++ first :: (between ++ last :: rest) ∧
    isSpace first = false ∧ isSpace last = false ∧ '\n' ∉ between ∧ ∃ c ∈ between, Script.isLineBreak c = true

/-! ## Line comments -/

namespace Script

variable {line : List Char}

/-- Is the line one line of JavaScript, which a reader passes over? -/
def IsLineComment (line : List Char) : Prop :=
  (∀ c ∈ line, isLineBreak c = false) ∧
    ∀ broken rest, skipGap .between broken (line ++ '\n' :: rest) = skipGap .between true rest

theorem isSpace_of_isLineBreak {c : Char} (ends : isLineBreak c = true) : Text.isSpace c = true := by
  simp only [isLineBreak, Bool.or_eq_true, beq_iff_eq] at ends
  rcases ends with ((rfl | rfl) | rfl) | rfl <;> decide

/-- A line comment reaches up to the end of its line. -/
theorem skipGap_lineComment (whole : ∀ c ∈ line, isLineBreak c = false) (broken : Bool) (rest : List Char) :
    skipGap .lineComment broken (line ++ '\n' :: rest) = skipGap .between true rest := by
  induction line with
  | nil => simp [skipGap, isLineBreak]
  | cons c line hypothesis =>
      obtain ⟨here, others⟩ := List.forall_mem_cons.1 whole
      simp [skipGap, here, hypothesis others]

theorem skipGap_indented (count : Nat) (broken : Bool) (rest : List Char) :
    skipGap .between broken (List.replicate count ' ' ++ rest) = skipGap .between broken rest := by
  induction count with
  | zero => simp
  | succ count hypothesis =>
      rw [List.replicate_succ, List.cons_append, ← hypothesis]
      simp [skipGap, isLineBreak, isGap]

/-- Two slashes with blanks before them make a line comment of a text without line breaks. -/
theorem isLineComment_iff (count : Nat) (text : List Char) :
    IsLineComment (List.replicate count ' ' ++ '/' :: '/' :: ' ' :: text) ↔ ∀ c ∈ text, isLineBreak c = false := by
  constructor
  · exact fun comment c member => comment.1 c (by simp [member])
  · intro whole
    refine ⟨fun c member => ?_, fun broken rest => ?_⟩
    · simp only [List.mem_append, List.mem_replicate, List.mem_cons] at member
      rcases member with ⟨-, rfl⟩ | rfl | rfl | rfl | member
      all_goals first | decide | exact whole c member
    · rw [List.append_assoc, skipGap_indented]
      simp only [List.cons_append, skipGap]
      have spaced : ∀ c ∈ ' ' :: text, isLineBreak c = false := List.forall_mem_cons.2 ⟨by decide, whole⟩
      exact skipGap_lineComment spaced broken rest

end Script

namespace Fragment

/-! ## Lines of a text -/

theorem splitLines_eq (text : List Char) : splitLines text = text.splitOn '\n' := by
  induction text with
  | nil => rfl
  | cons c text hypothesis =>
      obtain ⟨piece, pieces, split, grown⟩ := Text.splitOn_cons '\n' c text
      rw [splitLines, hypothesis, split, grown]
      simp

/-- Trimming leaves a line break in some line just where there is something else before it and behind it. -/
theorem isBroken_iff (text : List Char) : Text.IsBroken text ↔
    ∃ line ∈ splitLines text, ∃ c ∈ Text.trim line, Script.isLineBreak c = true := by
  constructor
  · rintro ⟨start, first, between, last, rest, rfl, visible, visibleLast, whole, c, member, ends⟩
    have feed {d : Char} (shown : Text.isSpace d = false) : '\n' ≠ d := by
      rintro rfl
      exact absurd shown (by decide)
    have uncut : '\n' ∉ first :: (between ++ [last]) := by
      simp [feed visible, feed visibleLast, whole]
    obtain ⟨before, behind, line⟩ := Text.exists_mem_splitOn start rest uncut
    have within : c ∈ Text.trim (before ++ first :: (between ++ last :: behind)) :=
      Text.mem_trim_of_between rfl visible visibleLast member
    exact ⟨_, by simpa [splitLines_eq] using line, c, within, ends⟩
  · rintro ⟨line, member, c, kept, ends⟩
    rw [splitLines_eq] at member
    have whole := Text.not_mem_of_mem_splitOn member
    obtain ⟨before, behind, rfl⟩ := Text.infix_of_mem_splitOn member
    obtain ⟨start, first, between, last, rest, rfl, visible, visibleLast, within⟩ :=
      Text.between_of_mem_trim kept (Script.isSpace_of_isLineBreak ends)
    refine ⟨before ++ start, first, between, last, rest ++ behind, by simp, visible, visibleLast, ?_, c, within, ends⟩
    exact fun feed => whole (by simp [feed])

/-! ## The lines that are printed -/

/-- The lines that are printed for fragments where nothing is gathered. -/
def printed (depth : Nat) (fragments : List Fragment) : List String :=
  (Layout.linesOf depth "" (layoutAll fragments)).1

theorem linesOf_map_line (depth : Nat) (texts : List String) :
    Layout.linesOf depth "" (texts.map .line) = (texts.map (Layout.indented depth), "") := by
  induction texts with
  | nil => rfl
  | cons text texts hypothesis => simp [Layout.linesOf, Layout.lines, Layout.flush, hypothesis]

/-- Of a comment one line is printed for each of its lines that is not blank. -/
theorem mem_printed_comment_iff {depth : Nat} {value line : String} :
    line ∈ printed depth [.comment value false] ↔ ∃ piece ∈ splitLines value.toList, Text.trim piece ≠ [] ∧
      line = Layout.indented depth ("// " ++ String.ofList (Text.trim piece)) := by
  have source : layoutAll [.comment value false] =
      ((((splitLines value.toList).map Text.trim).filter fun piece => !piece.isEmpty).map fun piece =>
        "// " ++ String.ofList piece).map .line := by
    simp [layoutAll, layout, codeComment]
  rw [printed, source, linesOf_map_line]
  simp only [List.mem_map, List.mem_filter]
  constructor
  · rintro ⟨_, ⟨_, ⟨⟨piece, member, rfl⟩, full⟩, rfl⟩, rfl⟩
    exact ⟨piece, member, by simpa using full, rfl⟩
  · rintro ⟨piece, member, full, rfl⟩
    exact ⟨_, ⟨_, ⟨⟨piece, member, rfl⟩, by simpa using full⟩, rfl⟩, rfl⟩

end Fragment

/-- A comment that is not written out is lowered to itself. Wherever its lines are printed, they are line comments if
and only if none of its lines is broken. -/
theorem Tree.printed_comment_iff {tree : Tree} {id : NodeId} {value : String}
    (kind : tree.kind id = .comment value false) (choices : Preservation) (budget : Nat) (region : Region)
    (scope : Scope) :
    ∃ fragments, Lowering.lowerNode tree choices (budget + 1) region id scope = .ok (fragments, scope) ∧ ∀ depth,
      (∀ line ∈ Fragment.printed depth fragments, Script.IsLineComment line.toList) ↔ ¬Text.IsBroken value.toList := by
  have lowers : Lowering.lowerNode tree choices (budget + 1) region id scope = .ok ([.comment value false], scope) := by
    rw [Lowering.lowerNode]
    simp only [show (tree.node id).kind = .comment value false from kind]
    rfl
  refine ⟨_, lowers, fun depth => ?_⟩
  have remark (piece : List Char) :
      Script.IsLineComment (Layout.indented depth ("// " ++ String.ofList piece)).toList ↔
        ∀ c ∈ piece, Script.isLineBreak c = false := by
    rw [← Script.isLineComment_iff (2 * depth) piece]
    simp [Layout.indented]
  rw [Fragment.isBroken_iff]
  constructor
  · rintro remarks ⟨piece, member, c, kept, ends⟩
    have whole := (remark _).1 (remarks _ (Fragment.mem_printed_comment_iff.2
      ⟨piece, member, List.ne_nil_of_mem kept, rfl⟩)) c kept
    exact absurd (ends.symm.trans whole) (by decide)
  · intro unbroken line member
    obtain ⟨piece, among, -, rfl⟩ := Fragment.mem_printed_comment_iff.1 member
    refine (remark _).2 fun c kept => ?_
    exact Bool.eq_false_iff.2 fun ends => unbroken ⟨piece, among, c, kept, ends⟩

/-- Line breaks at both ends of a line are trimmed off, and marks that end other comments are none here. -/
theorem Tree.printed_comment_edges :
    let value := "\u2028 a */ // b\r\n\u2029\n--> c\r"
    let tree : Tree := { file := "page", nodes := [{ kind := .comment value false }] }
    tree.kind ⟨0⟩ = .comment value false ∧ ∃ fragments,
      Lowering.lowerNode tree (.everywhere false) 1 { preserve := false } ⟨0⟩ {} = .ok (fragments, {}) ∧
      Fragment.printed 1 fragments = ["  // a */ // b", "  // --> c"] ∧
      ∀ line ∈ Fragment.printed 1 fragments, Script.IsLineComment line.toList := by
  intro value tree
  have whole : ((Fragment.splitLines value.toList).all fun line =>
      (Text.trim line).all fun c => !Script.isLineBreak c) = true := by decide +kernel
  have unbroken : ¬Text.IsBroken value.toList := by
    rw [Fragment.isBroken_iff]
    rintro ⟨line, member, c, kept, ends⟩
    have unended := List.all_eq_true.1 (List.all_eq_true.1 whole line member) c kept
    simp [ends] at unended
  have kind : tree.kind ⟨0⟩ = .comment value false := rfl
  obtain ⟨fragments, lowered, remarks⟩ :=
    Tree.printed_comment_iff kind (.everywhere false) 0 { preserve := false } {}
  refine ⟨kind, fragments, lowered, ?_, (remarks 1).2 unbroken⟩
  cases lowered
  decide +kernel

/-- A comment with a line separator: JavaScript ends the line that is printed for it there, and reads the rest as
code. -/
theorem Tree.printed_comment_separator :
    let tree : Tree := { file := "page", nodes := [
      { kind := .document, children := [⟨1⟩] },
      { kind := .comment " a\u2028b() " false, parent := some ⟨0⟩ }] }
    tree.WellFormed ∧ ∃ fragments, tree.lower (.everywhere false) ⟨0⟩ = .ok (fragments, []) ∧
      Fragment.printed 2 fragments = ["    // a\u2028b()"] ∧
      Script.skipGap .between false "    // a\u2028b()\n".toList = some (true, "b()\n".toList) := by
  intro tree
  refine ⟨Tree.Ordered.wellFormed (by decide), [.comment " a\u2028b() " false], rfl, ?_, ?_⟩
  · decide +kernel
  · decide +kernel

end HtmlTemplate
