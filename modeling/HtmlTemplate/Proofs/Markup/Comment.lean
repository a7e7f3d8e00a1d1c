import HtmlTemplate.CodeModule
import HtmlTemplate.Markup.Token
import HtmlTemplate.Proofs.Tree.Success

/-!
# Comments that stay in the markup

A comment that is written out has to be read as one comment with the same text, whatever comes behind it. Nodes
take no text that holds two dashes in a row, starts with `>` or ends with a dash. Behind the opening mark a text
that starts with `->` closes a comment as well, and nodes take it; any other text that they take is read back.
-/

namespace HtmlTemplate

/-- Nodes of the kind are made, or nodes are turned into some of this kind. -/
def Kind.IsTaken (kind : Kind) : Prop :=
  (∃ (tree : Tree) (position : Position) (attributes : List (String × String)) (children : List NodeId)
      (made : NodeId × Tree), tree.create position kind attributes children = .ok made) ∨
    ∃ (tree : Tree) (id : NodeId) (after : Tree), tree.setKind id kind = .ok after

/-- What nodes are made of passes the check. -/
theorem Kind.isTaken_iff {kind : Kind} : kind.IsTaken ↔ kind.check = .ok () := by
  constructor
  · rintro (⟨tree, position, attributes, children, made, created⟩ | ⟨tree, id, after, changed⟩)
    · obtain ⟨-, passes, -⟩ := Tree.create_eq_ok_iff.1 created
      exact passes
    · exact (Tree.setKind_eq_ok_iff.1 changed).1
  · intro passes
    refine .inl ⟨{ file := "" }, {}, [], [], _, Tree.create_eq_ok_iff.2 ⟨[], passes, rfl, ?_, List.nodup_nil, ?_, rfl⟩⟩
    · exact fun full => absurd rfl full
    · exact fun _ impossible => absurd impossible List.not_mem_nil

theorem Kind.check_comment_iff {value : String} :
    (Kind.comment value true).check = .ok () ↔
      hasDoubleDash value.toList = false ∧ value.toList.head? ≠ some '>' ∧ value.toList.getLast? ≠ some '-' := by
  have taken : (Kind.comment value true).check = .ok () ↔ breaksComment value = false := by
    cases breaks : breaksComment value <;> simp [Kind.check, breaks]
  rw [taken]
  simp [breaksComment, and_assoc]

theorem hasDoubleDash_tail {c : Char} {value : List Char} (single : hasDoubleDash (c :: value) = false) :
    hasDoubleDash value = false := by
  rw [hasDoubleDash.eq_def] at single
  split at single
  · cases single
  · next same =>
      cases same
      exact single
  · next same => cases same

namespace Markup

/-! ## Reading comments -/

/-- A text without two dashes in a row that does not end with one is read up to the closing mark behind it. A dash
that was read before the text counts with it. -/
theorem readComment_closed (value rest : List Char) :
    (hasDoubleDash value = false → value.getLast? ≠ some '-' →
      readComment .inside (value ++ '-' :: '-' :: '>' :: rest) = (value, rest)) ∧
    (hasDoubleDash ('-' :: value) = false → ('-' :: value).getLast? ≠ some '-' →
      readComment .dash (value ++ '-' :: '-' :: '>' :: rest) = ('-' :: value, rest)) := by
  induction value with
  | nil => exact ⟨fun _ _ => rfl, fun _ ends => absurd rfl ends⟩
  | cons c value hypothesis =>
      obtain ⟨fromInside, fromDash⟩ := hypothesis
      have last (ends : (c :: value).getLast? ≠ some '-') : value.getLast? ≠ some '-' := by
        cases value with
        | nil => exact nofun
        | cons => rwa [List.getLast?_cons_cons] at ends
      constructor
      · intro single ends
        rw [List.cons_append, readComment]
        by_cases dash : c = '-'
        · rw [if_pos (beq_iff_eq.2 dash)]
          exact dash ▸ fromDash (dash ▸ single) (dash ▸ ends)
        · rw [if_neg (mt beq_iff_eq.1 dash), fromInside (hasDoubleDash_tail single) (last ends)]
          rfl
      · intro single ends
        rw [List.getLast?_cons_cons] at ends
        have notDash : c ≠ '-' := by
          rintro rfl
          cases single
        rw [List.cons_append, readComment, if_neg (mt beq_iff_eq.1 notDash),
          fromInside (hasDoubleDash_tail (hasDoubleDash_tail single)) (last ends)]
        rfl

/-- Behind the opening mark only `>`, `->` and two dashes are read in a way of their own. -/
theorem readComment_opened_eq {c d : Char} (head : c ≠ '>') (next : c = '-' → d ≠ '-' ∧ d ≠ '>')
    (text : List Char) : readComment .opened (c :: d :: text) = readComment .inside (c :: d :: text) := by
  by_cases dash : c = '-'
  · obtain ⟨notDash, notArrow⟩ := next dash
    simp [readComment, dash, notDash, notArrow]
  · simp [readComment, dash, head]

/-- A text that a comment node may hold is read back from the opening mark on, unless it starts with `->`. -/
theorem readComment_opened {value : List Char} (single : hasDoubleDash value = false)
    (starts : value.head? ≠ some '>') (ends : value.getLast? ≠ some '-') (noArrow : ¬['-', '>'] <+: value)
    (rest : List Char) : readComment .opened (value ++ '-' :: '-' :: '>' :: rest) = (value, rest) := by
  have closed := (readComment_closed value rest).1 single ends
  match value with
  | [] => rfl
  | [c] =>
      have head : c ≠ '>' := fun same => starts (same ▸ rfl)
      have notDash : c ≠ '-' := fun same => ends (same ▸ rfl)
      exact (readComment_opened_eq head (fun dash => absurd dash notDash) _).trans closed
  | c :: d :: value =>
      have head : c ≠ '>' := fun same => starts (same ▸ rfl)
      refine (readComment_opened_eq head ?_ _).trans closed
      rintro rfl
      refine ⟨?_, fun arrow => noArrow (arrow ▸ ⟨value, rfl⟩)⟩
      rintro rfl
      cases single

theorem keptText_eq {value : String} (plain : '\x00' ∉ value.toList) : keptText value.toList = value := by
  have same : value.toList.map kept = value.toList := by
    refine (List.map_congr_left fun c member => ?_).trans (List.map_id _)
    exact if_neg (mt beq_iff_eq.1 fun (null : c = '\x00') => plain (null ▸ member))
  rw [keptText, same, String.ofList_toList]

/-- A comment in the markup is one token. Which text it has is up to what is behind its opening mark. -/
theorem readTokens_comment (inForeign : Bool) (value : String) (rest : List Char) :
    readTokens inForeign (("<!--" ++ value ++ "-->").toList ++ rest) =
      ([.comment (keptText (readComment .opened (value.toList ++ '-' :: '-' :: '>' :: rest)).1)],
        (readComment .opened (value.toList ++ '-' :: '-' :: '>' :: rest)).2) := by
  have source : ("<!--" ++ value ++ "-->").toList ++ rest =
      '<' :: '!' :: '-' :: '-' :: (value.toList ++ '-' :: '-' :: '>' :: rest) := by
    simp [String.toList_append]
  rw [source]
  rfl

end Markup

/-- Whatever text is behind it, the markup of a comment that nodes take is read as one comment with the same text, if
and only if the text of the comment does not start with `->`. -/
theorem Fragment.readTokens_comment_iff {value : String} (taken : (Kind.comment value true).IsTaken)
    (plain : '\x00' ∉ value.toList) :
    (∃ text, layout (.comment value true) = [.markup text] ∧ ∀ inForeign rest,
      Markup.readTokens inForeign (text.toList ++ rest) = ([.comment value], rest)) ↔
      ¬['-', '>'] <+: value.toList := by
  obtain ⟨single, starts, ends⟩ := Kind.check_comment_iff.1 (Kind.isTaken_iff.1 taken)
  constructor
  · rintro ⟨text, printed, reads⟩ ⟨more, arrow⟩
    cases printed
    have read := reads false []
    rw [Markup.readTokens_comment, ← arrow] at read
    -- what is behind the arrow is left over
    have left : more ++ ['-', '-', '>'] = [] := congrArg Prod.snd read
    simp at left
  · intro noArrow
    refine ⟨_, rfl, fun inForeign rest => ?_⟩
    rw [Markup.readTokens_comment, Markup.readComment_opened single starts ends noArrow, Markup.keptText_eq plain]

/-- A text that has nearly every mark in it, but none that closes a comment. -/
theorem Fragment.readTokens_comment_iff_marks :
    let value := "-!> <!-x> ->- "
    (Kind.comment value true).IsTaken ∧ ∃ text, layout (.comment value true) = [.markup text] ∧ ∀ inForeign rest,
      Markup.readTokens inForeign (text.toList ++ rest) = ([.comment value], rest) := by
  intro value
  have taken : (Kind.comment value true).IsTaken := Kind.isTaken_iff.2 (Kind.check_comment_iff.2 (by decide))
  exact ⟨taken, (readTokens_comment_iff taken (by decide)).2 (by decide)⟩

/-- A comment that nodes take and that is closed at once: the rest of its text becomes markup. -/
theorem Fragment.readTokens_comment_arrow :
    let value := "-><script>"
    (Kind.comment value true).IsTaken ∧ '\x00' ∉ value.toList ∧ '\r' ∉ value.toList ∧
      layout (.comment value true) = [.markup "<!---><script>-->"] ∧
      Markup.readTokens false "<!---><script>-->".toList = ([.comment ""], "<script>-->".toList) ∧
      (Markup.readTokens false "<script>-->".toList).1 = [.start { name := "script" }] := by
  intro value
  have taken : (Kind.comment value true).IsTaken := Kind.isTaken_iff.2 (Kind.check_comment_iff.2 (by decide))
  exact ⟨taken, by decide, by decide, rfl, by rfl, by rfl⟩

end HtmlTemplate
