import HtmlTemplate.Text.Space
import Mathlib.Data.List.Basic

/-!
# Trimmed, collapsed and cut texts

Trimming takes whitespace off at both ends of a text and leaves the rest as it is. Whitespace is left where there is
something else before it and behind it. Collapsing leaves one space of each run in the text and does not do more when it
is done again; at the edges runs that break the line are left out. A text that is cut at a character, as lines and
paths are, is its pieces with the character between them, and no piece holds it.
-/

namespace HtmlTemplate
namespace Text

variable {text : List Char} {c : Char}

theorem trimRight_cons (c : Char) (text : List Char) : trimRight (c :: text) =
    if trimRight text = [] then if isSpace c then [] else [c] else c :: trimRight text := by
  rw [trimRight]
  cases trimRight text <;> rfl

theorem trimRight_source (text : List Char) :
    ∃ blanks, text = trimRight text ++ blanks ∧ ∀ c ∈ blanks, isSpace c = true := by
  induction text with
  | nil => exact ⟨[], rfl, fun _ impossible => absurd impossible List.not_mem_nil⟩
  | cons c text hypothesis =>
      obtain ⟨blanks, source, spaces⟩ := hypothesis
      rw [trimRight_cons]
      split
      · next empty =>
          rw [empty, List.nil_append] at source
          subst source
          split
          · next space => exact ⟨c :: text, rfl, List.forall_mem_cons.2 ⟨space, spaces⟩⟩
          · exact ⟨text, rfl, spaces⟩
      · exact ⟨blanks, congrArg (c :: ·) source, spaces⟩

/-- Trimming takes off blanks at both ends. -/
theorem trim_source (text : List Char) : ∃ lead trail, text = lead ++ (trim text ++ trail) ∧
    (∀ c ∈ lead, isSpace c = true) ∧ ∀ c ∈ trail, isSpace c = true := by
  obtain ⟨trail, source, spaces⟩ := trimRight_source (trimLeft text)
  refine ⟨text.takeWhile isSpace, trail, ?_, List.all_eq_true.1 List.all_takeWhile, spaces⟩
  rw [trim, ← source]
  exact List.takeWhile_append_dropWhile.symm

/-- What is left of a trimmed text is not blank. -/
theorem isBlank_trimRight (full : trimRight text ≠ []) : isBlank (trimRight text) = false := by
  induction text with
  | nil => exact absurd rfl full
  | cons c text hypothesis =>
      rw [trimRight_cons] at full ⊢
      split at full
      · next empty =>
          rw [if_pos empty]
          by_cases space : isSpace c = true
          · exact absurd (if_pos space) full
          · simp [space, isBlank]
      · next more =>
          rw [if_neg more]
          exact Bool.and_eq_false_imp.2 fun _ => hypothesis more

/-! ## The ends of a trimmed text -/

theorem getLast?_trimRight (last : (trimRight text).getLast? = some c) : isSpace c = false := by
  induction text with
  | nil => cases last
  | cons d text hypothesis =>
      rw [trimRight_cons] at last
      split at last
      · split at last
        · cases last
        · next visible =>
            cases last
            exact Bool.not_eq_true _ ▸ visible
      · next more =>
          rw [← List.singleton_append, List.getLast?_append_of_ne_nil _ more] at last
          exact hypothesis last

theorem head?_trimRight (head : (trimRight text).head? = some c) : text.head? = some c := by
  obtain ⟨blanks, source, -⟩ := trimRight_source text
  rw [source, List.head?_append, head]
  rfl

theorem head?_trim (head : (trim text).head? = some c) : isSpace c = false := by
  have first : (text.dropWhile isSpace).head? = some c := @head?_trimRight (trimLeft text) c head
  have stops := List.head?_dropWhile_not isSpace text
  rwa [first] at stops

/-- Whitespace that trimming leaves has something else before it and behind it. -/
theorem between_of_mem_trim (member : c ∈ trim text) (space : isSpace c = true) :
    ∃ start first between last rest, text = start ++ first :: (between ++ last :: rest) ∧
      isSpace first = false ∧ isSpace last = false ∧ c ∈ between := by
  obtain ⟨lead, trail, source, -⟩ := trim_source text
  cases kept : trim text with
  | nil => exact absurd (kept ▸ member) List.not_mem_nil
  | cons first others =>
      have visible : isSpace first = false := head?_trim (by rw [kept]; rfl)
      have among : c ∈ others := by
        rcases List.mem_cons.1 (kept ▸ member) with rfl | among
        · exact absurd (space.symm.trans visible) (by decide)
        · exact among
      obtain ⟨between, last, joined⟩ := (List.eq_nil_or_concat others).resolve_left (List.ne_nil_of_mem among)
      rw [List.concat_eq_append] at joined
      subst joined
      have visibleLast : isSpace last = false := by
        refine @getLast?_trimRight (trimLeft text) last ?_
        rw [show trimRight (trimLeft text) = _ from kept, ← List.cons_append, List.getLast?_concat]
      refine ⟨lead, first, between, last, trail, ?_, visible, visibleLast, ?_⟩
      · rw [source, kept]
        simp
      · rcases List.mem_append.1 among with among | same
        · exact among
        · cases List.mem_singleton.1 same
          exact absurd (space.symm.trans visibleLast) (by decide)

/-- Trimming leaves what has something else than whitespace before it and behind it. -/
theorem mem_trim_of_between {start between rest : List Char} {first last : Char}
    (source : text = start ++ first :: (between ++ last :: rest)) (visible : isSpace first = false)
    (visibleLast : isSpace last = false) (member : c ∈ between) : c ∈ trim text := by
  obtain ⟨lead, trail, trimmed, before, behind⟩ := trim_source text
  have cut : lead ++ (trim text ++ trail) = (start ++ [first]) ++ (between ++ last :: rest) := by
    rw [← trimmed, source, List.append_assoc]
    rfl
  rcases List.append_eq_append_iff.1 cut with ⟨more, -, left⟩ | ⟨more, early, -⟩
  · rw [← List.append_assoc more] at left
    rcases List.append_eq_append_iff.1 left with ⟨tail, -, late⟩ | ⟨tail, whole, -⟩
    · have blank := behind last (late ▸ List.mem_append_right _ List.mem_cons_self)
      exact absurd (blank.symm.trans visibleLast) (by decide)
    · rw [whole]
      exact List.mem_append_left _ (List.mem_append_right _ member)
  · have blank := before first (early ▸ List.mem_append_left _ (List.mem_append_right _ List.mem_cons_self))
    exact absurd (blank.symm.trans visible) (by decide)

/-! ## Collapsed texts -/

/-- The second text is the first one with a single space in the place of each whitespace run. Both start and end with
something else than whitespace. -/
inductive Joins : List Char → List Char → Prop
  | last {c : Char} : isSpace c = false → Joins [c] [c]
  | next {c : Char} {text joined : List Char} :
      isSpace c = false → Joins text joined → Joins (c :: text) (c :: joined)
  | run {c : Char} {gap text joined : List Char} :
      isSpace c = false → gap ≠ [] → isBlank gap = true → Joins text joined →
      Joins (c :: (gap ++ text)) (c :: ' ' :: joined)

variable {lead body trail gap joined kept : List Char}

theorem isBlank_cons : isBlank (c :: text) = true ↔ isSpace c = true ∧ isBlank text = true := by
  simp [isBlank]

theorem isBlank_append : isBlank (lead ++ text) = true ↔ isBlank lead = true ∧ isBlank text = true := by
  simp [isBlank]

/-- A text that is not blank is something between two blanks. -/
theorem exists_joins (visible : isBlank text = false) : ∃ lead body trail joined,
    text = lead ++ (body ++ trail) ∧ isBlank lead = true ∧ isBlank trail = true ∧ Joins body joined := by
  induction text with
  | nil => cases visible
  | cons c text hypothesis =>
      cases blank : isBlank text with
      | true =>
          have shown : isSpace c = false := by
            rw [isBlank, List.all_cons, show text.all isSpace = true from blank, Bool.and_true] at visible
            exact visible
          exact ⟨[], [c], text, [c], rfl, rfl, blank, .last shown⟩
      | false =>
          obtain ⟨lead, body, trail, joined, source, before, behind, joins⟩ := hypothesis blank
          cases space : isSpace c with
          | true => exact ⟨c :: lead, body, trail, joined, by rw [source]; rfl, isBlank_cons.2 ⟨space, before⟩, behind, joins⟩
          | false =>
              by_cases empty : lead = []
              · subst empty
                exact ⟨[], c :: body, trail, c :: joined, by rw [source]; rfl, rfl, behind, .next space joins⟩
              · exact ⟨[], c :: (lead ++ body), trail, c :: ' ' :: joined, by rw [source]; simp, rfl, behind,
                  .run space empty before joins⟩

namespace Joins

theorem ne_nil (joins : Joins body joined) : body ≠ [] := by
  cases joins <;> exact List.cons_ne_nil _ _

theorem isBlank_eq (joins : Joins body joined) : isBlank body = false := by
  cases joins with
  | last visible => simp [isBlank, visible]
  | next visible _ => simp [isBlank, visible]
  | run visible _ _ _ => simp [isBlank, visible]

/-- Whitespace in front of the text is what is in front of anything else. -/
theorem takeWhile_append (joins : Joins body joined) (before : isBlank lead = true) (rest : List Char) :
    (lead ++ (body ++ rest)).takeWhile isSpace = lead ∧ (lead ++ (body ++ rest)).dropWhile isSpace = body ++ rest := by
  have stops : (body ++ rest).takeWhile isSpace = [] ∧ (body ++ rest).dropWhile isSpace = body ++ rest := by
    cases joins with
    | last visible => simp [visible]
    | next visible _ => simp [visible]
    | run visible _ _ _ => simp [visible]
  have blanks : ∀ c ∈ lead, isSpace c = true := List.all_eq_true.1 before
  rw [List.takeWhile_append_of_pos blanks, List.dropWhile_append_of_pos blanks, stops.1, stops.2, List.append_nil]
  exact ⟨rfl, rfl⟩

end Joins

theorem trimRight_of_isBlank (blank : isBlank text = true) : trimRight text = [] := by
  induction text with
  | nil => rfl
  | cons c text hypothesis =>
      obtain ⟨space, others⟩ := isBlank_cons.1 blank
      rw [trimRight, hypothesis others]
      exact if_pos space

/-- Nothing is taken off in front of what is left. -/
theorem trimRight_append (full : trimRight text ≠ []) (lead : List Char) :
    trimRight (lead ++ text) = lead ++ trimRight text := by
  induction lead with
  | nil => rfl
  | cons c lead hypothesis =>
      rw [List.cons_append, trimRight, hypothesis]
      cases kept : lead ++ trimRight text with
      | nil => exact absurd (List.append_eq_nil_iff.1 kept).2 full
      | cons d others => rw [List.cons_append, kept]

namespace Joins

theorem trimRight_append (joins : Joins body joined) (behind : isBlank trail = true) :
    trimRight (body ++ trail) = body := by
  induction joins with
  | last visible =>
      rw [List.cons_append, List.nil_append, trimRight, trimRight_of_isBlank behind]
      exact if_neg (by rw [visible]; exact Bool.false_ne_true)
  | @next c text joined visible rest hypothesis =>
      have full : trimRight (text ++ trail) ≠ [] := by rw [hypothesis]; exact rest.ne_nil
      change trimRight ([c] ++ (text ++ trail)) = c :: text
      rw [Text.trimRight_append full, hypothesis]
      rfl
  | @run c gap text joined visible wide blank rest hypothesis =>
      have full : trimRight (text ++ trail) ≠ [] := by rw [hypothesis]; exact rest.ne_nil
      have shift : c :: (gap ++ text) ++ trail = (c :: gap) ++ (text ++ trail) := by simp
      rw [shift, Text.trimRight_append full, hypothesis, List.cons_append]

theorem joinRuns_gap (blank : isBlank gap = true) (text : List Char) :
    joinRuns true (gap ++ text) = joinRuns true text := by
  induction gap with
  | nil => rfl
  | cons c gap hypothesis =>
      obtain ⟨space, others⟩ := isBlank_cons.1 blank
      rw [List.cons_append, joinRuns, if_pos space, if_pos rfl, hypothesis others]

/-- Runs are joined in the same way whatever is before the text, as it starts with something else than whitespace. -/
theorem joinRuns_eq (joins : Joins body joined) (inRun : Bool) : joinRuns inRun body = joined := by
  induction joins generalizing inRun with
  | last visible => simp [joinRuns, visible]
  | next visible _ hypothesis => simp [joinRuns, visible, hypothesis]
  | @run c gap text joined visible wide blank _ hypothesis =>
      obtain ⟨d, gap, rfl⟩ := List.exists_cons_of_ne_nil wide
      obtain ⟨space, others⟩ := isBlank_cons.1 blank
      simp [joinRuns, visible, space, joinRuns_gap others, hypothesis]

/-- Joined runs are single spaces, and stay. -/
theorem again (joins : Joins body joined) : Joins joined joined := by
  induction joins with
  | last visible => exact .last visible
  | next visible _ hypothesis => exact .next visible hypothesis
  | run visible _ _ _ hypothesis =>
      have single : [' '] ≠ [] := List.cons_ne_nil _ _
      exact .run visible single rfl hypothesis

theorem filter_eq (joins : Joins body joined) :
    joined.filter (fun c => !isSpace c) = body.filter fun c => !isSpace c := by
  induction joins with
  | last visible => rfl
  | next visible _ hypothesis => simp [visible, hypothesis]
  | @run c gap text joined visible wide blank _ hypothesis =>
      have none : gap.filter (fun c => !isSpace c) = [] := by
        simpa [isBlank] using blank
      have single : (!isSpace ' ') = false := by decide
      simp [visible, none, single, hypothesis]

end Joins

theorem edge_eq (run : List Char) : edge run = if run = [] ∨ '\n' ∈ run then [] else [' '] := by
  simp [edge]

theorem isBlank_edge (run : List Char) : isBlank (edge run) = true := by
  unfold edge
  split <;> rfl

/-- What is left of a run stays. -/
theorem edge_edge (run : List Char) : edge (edge run) = edge run := by
  unfold edge
  split <;> rfl

theorem collapse?_of_isBlank (blank : isBlank text = true) :
    collapse? text = if text = [] ∨ '\n' ∈ text then none else some [' '] := by
  unfold collapse?
  cases text with
  | nil => rfl
  | cons c text => simp [blank]

theorem collapse?_of_joins (joins : Joins body joined) (before : isBlank lead = true) (behind : isBlank trail = true) :
    collapse? (lead ++ (body ++ trail)) = some (edge lead ++ (joined ++ edge trail)) := by
  have shown : isBlank (lead ++ (body ++ trail)) = false := by
    rw [Bool.eq_false_iff, ne_eq, isBlank_append, isBlank_append, joins.isBlank_eq]
    simp
  have full : (lead ++ (body ++ trail)).isEmpty = false := by
    simp [joins.ne_nil]
  have trimmed : trim (lead ++ (body ++ trail)) = body := by
    rw [trim, trimLeft, (joins.takeWhile_append before trail).2, joins.trimRight_append behind]
  have behindBody : (lead ++ (body ++ trail)).drop (lead.length + body.length) = trail := by
    rw [← List.append_assoc, ← List.length_append, List.drop_left]
  unfold collapse?
  simp only [full, shown, trimmed, (joins.takeWhile_append before trail).1, joins.joinRuns_eq, behindBody,
    Bool.false_eq_true, if_false, List.append_assoc]

theorem eq_space_of_mem_joinRuns {inRun : Bool} (member : c ∈ joinRuns inRun text) (space : isSpace c = true) : c = ' ' := by
  induction text generalizing inRun with
  | nil => cases member
  | cons d text hypothesis =>
      rw [joinRuns] at member
      split at member
      · split at member
        · exact hypothesis member
        · exact (List.mem_cons.1 member).elim id hypothesis
      · next visible =>
          rcases List.mem_cons.1 member with rfl | later
          · exact absurd space visible
          · exact hypothesis later

/-- All whitespace in a collapsed text is spaces. -/
theorem eq_space_of_mem_collapse? (collapsed : collapse? text = some kept) (member : c ∈ kept) (space : isSpace c = true) :
    c = ' ' := by
  have ofEdge : ∀ run, c ∈ edge run → c = ' ' := by
    intro run member
    unfold edge at member
    split at member
    · cases member
    · exact List.mem_singleton.1 member
  unfold collapse? at collapsed
  split at collapsed
  · cases collapsed
  · split at collapsed
    · split at collapsed
      · cases collapsed
      · obtain rfl := Option.some.inj collapsed
        exact List.mem_singleton.1 member
    · obtain rfl := Option.some.inj collapsed
      rcases List.mem_append.1 member with early | late
      · rcases List.mem_append.1 early with first | inner
        · exact ofEdge _ first
        · exact eq_space_of_mem_joinRuns inner space
      · exact ofEdge _ late

/-- Collapsing is a normal form. Nothing is left of a blank text that is empty or breaks the line, and a space of other
ones. Of any other text the whitespace at an edge comes to a space or, if it breaks the line, to nothing, and each run
inside to one space. All else is kept, and what is left is not changed again. -/
theorem collapse?_normal (text : List Char) :
    (collapse? text = none ↔ text = [] ∨ isBlank text = true ∧ '\n' ∈ text) ∧
    (collapse? text = some [' '] ↔ text ≠ [] ∧ isBlank text = true ∧ '\n' ∉ text) ∧
    (isBlank text = true ∨ ∃ lead body trail joined, text = lead ++ (body ++ trail) ∧ isBlank lead = true ∧
      isBlank trail = true ∧ Joins body joined ∧
      collapse? text = some ((if lead = [] ∨ '\n' ∈ lead then [] else [' ']) ++
        (joined ++ if trail = [] ∨ '\n' ∈ trail then [] else [' ']))) ∧
    ((collapse? text).getD []).filter (fun c => !isSpace c) = text.filter (fun c => !isSpace c) ∧
    (collapse? text).bind collapse? = collapse? text := by
  cases blank : isBlank text with
  | true =>
      have none : text.filter (fun c => !isSpace c) = [] := by simpa [isBlank] using blank
      have single : (!isSpace ' ') = false := by decide
      rw [collapse?_of_isBlank blank, none]
      by_cases gone : text = [] ∨ '\n' ∈ text
      · rw [if_pos gone]
        simp only [true_and, iff_true_intro gone]
        simp only [reduceCtorEq, false_iff, not_and, not_not]
        tauto
      · rw [if_neg gone]
        obtain ⟨full, unbroken⟩ := not_or.1 gone
        have stays : collapse? [' '] = some [' '] := rfl
        simp [full, unbroken, single, stays]
  | false =>
      obtain ⟨lead, body, trail, joined, source, before, behind, joins⟩ := exists_joins blank
      have full : text ≠ [] := by
        rintro rfl
        cases blank
      have kept : collapse? text = some (edge lead ++ (joined ++ edge trail)) := by
        rw [source, collapse?_of_joins joins before behind]
      have shown : edge lead ++ (joined ++ edge trail) ≠ [' '] := by
        intro same
        have onlySpace := congrArg isBlank same
        rw [Bool.eq_iff_iff, isBlank_append, isBlank_append, joins.again.isBlank_eq] at onlySpace
        exact Bool.false_ne_true (onlySpace.2 rfl).2.1
      have dropped : ∀ run, isBlank run = true → run.filter (fun c => !isSpace c) = [] := by simp [isBlank]
      refine ⟨by simp [kept, full], by simp [kept, shown], .inr ⟨lead, body, trail, joined, source, before, behind, joins,
        by rw [kept, edge_eq, edge_eq]⟩, ?_, ?_⟩
      · rw [kept, source, Option.getD_some]
        simp only [List.filter_append, dropped _ before, dropped _ behind, dropped _ (isBlank_edge _), joins.filter_eq]
      · rw [kept, Option.bind_some, collapse?_of_joins joins.again (isBlank_edge lead) (isBlank_edge trail), edge_edge,
          edge_edge]

/-- The break of the line is inside of a run, so that its space stays. -/
example : collapse? "  a \t\n b  ".toList = some " a b ".toList := by decide

/-! ## Texts that are cut -/

section Pieces

variable {cut : Char} {piece : List Char} {pieces : List (List Char)}

theorem splitOn_cons (cut c : Char) (text : List Char) : ∃ piece pieces, text.splitOn cut = piece :: pieces ∧
    (c :: text).splitOn cut = if c = cut then [] :: piece :: pieces else (c :: piece) :: pieces := by
  obtain ⟨piece, pieces, split⟩ := List.exists_cons_of_ne_nil (List.splitOn_ne_nil cut text)
  refine ⟨piece, pieces, split, ?_⟩
  simp [List.splitOn_cons_eq_if_modifyHead, split]

/-- No piece holds the character at which the text is cut. -/
theorem not_mem_of_mem_splitOn (member : piece ∈ text.splitOn cut) : cut ∉ piece := by
  induction text generalizing piece with
  | nil => simp_all
  | cons c text hypothesis =>
      obtain ⟨first, pieces, split, grown⟩ := splitOn_cons cut c text
      rw [split] at hypothesis
      rw [grown] at member
      split at member
      · rcases List.mem_cons.1 member with rfl | member
        · exact List.not_mem_nil
        · exact hypothesis member
      · next other =>
          rcases List.mem_cons.1 member with rfl | member
          · exact List.not_mem_cons_of_ne_of_not_mem (Ne.symm other) (hypothesis List.mem_cons_self)
          · exact hypothesis (List.mem_cons_of_mem _ member)

/-- A part of the text that can't be cut lies in one piece. -/
theorem exists_mem_splitOn {part : List Char} (start rest : List Char) (whole : cut ∉ part) :
    ∃ before behind, before ++ (part ++ behind) ∈ (start ++ (part ++ rest)).splitOn cut := by
  induction start with
  | nil =>
      -- the first piece goes on as long as the text is not cut
      have first : ∃ behind pieces, (part ++ rest).splitOn cut = (part ++ behind) :: pieces := by
        induction part with
        | nil => exact List.exists_cons_of_ne_nil (List.splitOn_ne_nil cut rest)
        | cons c part hypothesis =>
            obtain ⟨other, whole⟩ := List.ne_and_not_mem_of_not_mem_cons whole
            obtain ⟨behind, pieces, split⟩ := hypothesis whole
            obtain ⟨piece, others, same, grown⟩ := splitOn_cons cut c (part ++ rest)
            cases same.symm.trans split
            exact ⟨behind, pieces, grown.trans (if_neg (Ne.symm other))⟩
      obtain ⟨behind, pieces, split⟩ := first
      exact ⟨[], behind, split ▸ List.mem_cons_self⟩
  | cons c start hypothesis =>
      obtain ⟨before, behind, member⟩ := hypothesis
      obtain ⟨piece, pieces, split, grown⟩ := splitOn_cons cut c (start ++ (part ++ rest))
      rw [List.cons_append, grown]
      rw [split] at member
      split
      · exact ⟨before, behind, List.mem_cons_of_mem _ member⟩
      · rcases List.mem_cons.1 member with same | member
        · exact ⟨c :: before, behind, same ▸ List.mem_cons_self⟩
        · exact ⟨before, behind, List.mem_cons_of_mem _ member⟩

theorem intercalate_append {between : List Char} {more : List (List Char)} (some : pieces ≠ []) (others : more ≠ []) :
    between.intercalate (pieces ++ more) = between.intercalate pieces ++ (between ++ between.intercalate more) := by
  induction pieces with
  | nil => exact absurd rfl some
  | cons piece pieces hypothesis =>
      by_cases alone : pieces = []
      · simp [alone, List.intercalate_cons_of_ne_nil others]
      · rw [List.cons_append, List.intercalate_cons_of_ne_nil (List.append_ne_nil_of_left_ne_nil alone more),
          List.intercalate_cons_of_ne_nil alone, hypothesis alone]
        simp

theorem infix_intercalate (between : List Char) (member : piece ∈ pieces) : piece <:+: between.intercalate pieces := by
  obtain ⟨before, behind, rfl⟩ := List.append_of_mem member
  have last : piece <:+: between.intercalate (piece :: behind) := by
    by_cases alone : behind = []
    · simp [alone]
    · rw [List.intercalate_cons_of_ne_nil alone, List.append_assoc]
      exact (List.prefix_append _ _).isInfix
  by_cases first : before = []
  · simpa [first] using last
  · rw [intercalate_append first (List.cons_ne_nil _ _), ← List.append_assoc]
    exact last.trans (List.suffix_append _ _).isInfix

/-- A piece is a part of the text. -/
theorem infix_of_mem_splitOn (member : piece ∈ text.splitOn cut) : piece <:+: text := by
  have inside := infix_intercalate [cut] member
  rwa [List.intercalate_splitOn] at inside

end Pieces

end Text
end HtmlTemplate
