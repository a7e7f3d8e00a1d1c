import HtmlTemplate.Proofs.Placement.Framing
import HtmlTemplate.Proofs.Placement.Wrapping

/-!
# Characters with their places

A source is changed several times before it is read as markup: stand-ins are left for placeholders, tags that close
themselves are written out, and line ends are joined. This module takes the places of the characters along, so that it
is known of each character that is read where in the source it stands.
-/

namespace HtmlTemplate

/-! ## The order of places -/

namespace Position

/-- The first place stands before the other one. -/
def Before (first second : Position) : Prop :=
  first.line < second.line ∨ first.line = second.line ∧ first.column < second.column

instance (first second : Position) : Decidable (first.Before second) :=
  inferInstanceAs (Decidable (_ ∨ _))

theorem Before.trans {first second third : Position} (before : first.Before second) (further : second.Before third) :
    first.Before third := by
  unfold Before at *
  omega

theorem Before.irrefl (position : Position) : ¬position.Before position := by
  unfold Before
  omega

theorem before_after (position : Position) (c : Char) : position.Before (position.after c) := by
  unfold Before after
  split
  · exact .inl (Nat.lt_succ_self _)
  · exact .inr ⟨rfl, Nat.lt_succ_self _⟩

theorem before_advance (position : Position) (c : Char) (text : List Char) :
    position.Before ((position.after c).advance text) := by
  induction text generalizing position c with
  | nil => exact before_after position c
  | cons d text hypothesis => exact (before_after position c).trans (hypothesis (position.after c) d)

end Position

namespace Template

variable {position : Position} {mark : Mark} {pieces : List Piece}

/-! ## The characters of a source -/

theorem marks_append (position : Position) (front back : List Char) :
    marks position (front ++ back) = marks position front ++ marks (position.advance front) back := by
  induction front generalizing position with
  | nil => rfl
  | cons c front hypothesis => exact congrArg (_ :: ·) (hypothesis (position.after c))

/-- The marks are the characters, each with the place behind what is before it. -/
theorem mem_marks_iff {source : List Char} : mark ∈ marks position source ↔
    ∃ front rest, source = front ++ mark.character :: rest ∧ mark.position = position.advance front := by
  induction source generalizing position with
  | nil => exact iff_of_false List.not_mem_nil (by rintro ⟨front, rest, none, -⟩; cases front <;> cases none)
  | cons c source hypothesis =>
      rw [marks, List.mem_cons, hypothesis]
      constructor
      · rintro (rfl | ⟨front, rest, rfl, place⟩)
        · exact ⟨[], source, rfl, rfl⟩
        · exact ⟨c :: front, rest, rfl, place⟩
      · rintro ⟨front, rest, parts, place⟩
        cases front with
        | nil =>
            obtain ⟨rfl, -⟩ := List.cons.inj parts
            exact .inl (by rw [show position = mark.position from place.symm])
        | cons d front =>
            obtain ⟨rfl, rfl⟩ := List.cons.inj parts
            exact .inr ⟨front, rest, rfl, place⟩

/-- The characters of a source stand one behind the other. -/
theorem pairwise_marks (position : Position) (source : List Char) :
    ((marks position source).map Mark.position).Pairwise Position.Before := by
  induction source generalizing position with
  | nil => exact .nil
  | cons c source hypothesis =>
      refine .cons (fun later member => ?_) (hypothesis (position.after c))
      obtain ⟨mark, among, rfl⟩ := List.mem_map.1 member
      obtain ⟨front, rest, -, place⟩ := mem_marks_iff.1 among
      rw [place]
      exact position.before_advance c front

/-- The characters among which tags are looked for stand where those of the source do. -/
theorem positions_tagMarks (position : Position) (pieces : List Piece) :
    (tagMarks position pieces).map Mark.position =
      (marks position (pieces.flatMap Piece.source)).map Mark.position := by
  induction pieces generalizing position with
  | nil => rfl
  | cons piece pieces hypothesis =>
      rw [List.flatMap_cons, marks_append, List.map_append, ← hypothesis]
      cases piece <;> rw [tagMarks, List.map_append, List.map_map] <;> rfl

/-! ## The characters that are read -/

/-- The characters that pieces leave for markup. Stand-ins stand where their placeholders do. -/
def hideMarks (number : Nat) (position : Position) : List Piece → List Mark
  | [] => []
  | .text source :: pieces => marks position source ++ hideMarks number (position.advance source) pieces
  | .code placeholder :: pieces =>
      (StandIn.ofNumber number).map (fun character => { character, position }) ++
        hideMarks (number + 1) (position.advance placeholder.source) pieces

/-- The characters with the tags written out that close themselves. What is written stands where the tag does. -/
def expandMarks : List Mark → List Mark
  | [] => []
  | mark :: rest =>
      if mark.character == '<' then
        match _found : SelfClosing.read? (rest.map Mark.character) with
        | some (name, content, after) =>
            (SelfClosing.expandTag name content).map (fun character => { mark with character }) ++
              expandMarks (rest.drop (rest.length - after.length))
        | none => mark :: expandMarks rest
      else mark :: expandMarks rest
termination_by marks => marks.length
decreasing_by
  all_goals
    simp only [List.length_cons, List.length_drop]
    omega

/-- The characters without the mark of an encoding at the start. -/
def stripMarks : List Mark → List Mark
  | ⟨'\uFEFF', _⟩ :: rest => rest
  | marks => marks

/-- The characters with all line ends written as line feeds. -/
def joinMarks : List Mark → List Mark
  | ⟨'\r', position⟩ :: ⟨'\n', _⟩ :: rest => ⟨'\n', position⟩ :: joinMarks rest
  | ⟨'\r', position⟩ :: rest => ⟨'\n', position⟩ :: joinMarks rest
  | mark :: rest => mark :: joinMarks rest
  | [] => []

/-- The characters that are read as markup, with the places in the source that they come from. -/
def readMarks (pieces : List Piece) : List Mark :=
  joinMarks (stripMarks (expandMarks (hideMarks 0 .first pieces)))

/-! ## They are what is read -/

theorem map_marks (position : Position) (source : List Char) : (marks position source).map Mark.character = source := by
  induction source generalizing position with
  | nil => rfl
  | cons c source hypothesis => exact congrArg (c :: ·) (hypothesis (position.after c))

theorem map_hideMarks (number : Nat) (position : Position) (pieces : List Piece) :
    (hideMarks number position pieces).map Mark.character = StandIn.hide number pieces := by
  induction pieces generalizing number position with
  | nil => rfl
  | cons piece pieces hypothesis =>
      cases piece with
      | text source => rw [hideMarks, StandIn.hide, List.map_append, map_marks, hypothesis]
      | code placeholder =>
          rw [hideMarks, StandIn.hide, List.map_append, List.map_map, hypothesis]
          exact congrArg (· ++ _) (List.map_id _)

theorem map_expandMarks (marks : List Mark) :
    (expandMarks marks).map Mark.character = SelfClosing.expand (marks.map Mark.character) := by
  fun_induction expandMarks marks with
  | case1 => rw [List.map_nil, SelfClosing.expand_nil]
  | case2 mark rest bracket name content after found hypothesis =>
      have shaped := SelfClosing.read?_eq_some_iff.1 found
      have parts : rest.map Mark.character = name ++ content ++ ['/', '>'] ++ after := by
        rw [shaped.shape]
        simp
      have length := congrArg List.length parts
      rw [List.length_map, List.length_append] at length
      have behind : (rest.drop (rest.length - after.length)).map Mark.character = after := by
        rw [List.map_drop, parts, length, Nat.add_sub_cancel, List.drop_left]
      rw [behind] at hypothesis
      rw [List.map_append, List.map_map, hypothesis, List.map_cons, beq_iff_eq.1 bracket,
        SelfClosing.expand_of_shaped shaped]
      exact congrArg (· ++ _) (List.map_id _)
  | case3 mark rest bracket none hypothesis =>
      rw [List.map_cons, List.map_cons, hypothesis, beq_iff_eq.1 bracket, SelfClosing.expand_of_none none]
  | case4 mark rest other hypothesis =>
      rw [List.map_cons, List.map_cons, hypothesis, SelfClosing.expand_cons_of_ne (mt beq_iff_eq.2 other)]

theorem map_stripMarks (marks : List Mark) :
    (stripMarks marks).map Mark.character = Markup.withoutMark (marks.map Mark.character) := by
  unfold stripMarks
  split
  · rfl
  · next other =>
      rw [Markup.withoutMark]
      intro rest same
      cases marks with
      | nil => cases same
      | cons mark marks =>
          obtain ⟨character, position⟩ := mark
          obtain rfl : character = '\uFEFF' := (List.cons.inj same).1
          exact other position marks rfl

theorem map_joinMarks (marks : List Mark) :
    (joinMarks marks).map Mark.character = Markup.joinLineEnds (marks.map Mark.character) := by
  fun_induction joinMarks marks with
  | case1 position next rest hypothesis => exact congrArg ('\n' :: ·) hypothesis
  | case2 position rest other hypothesis =>
      rw [List.map_cons, List.map_cons, hypothesis, Markup.joinLineEnds_carriage]
      intro feed
      cases rest with
      | nil => cases feed
      | cons next rest =>
          obtain ⟨character, place⟩ := next
          obtain rfl : character = '\n' := Option.some.inj feed
          exact other place rest rfl
  | case3 mark rest _ other hypothesis =>
      obtain ⟨character, position⟩ := mark
      rw [List.map_cons, List.map_cons, hypothesis, Markup.joinLineEnds_cons]
      rintro rfl
      exact other position rfl
  | case4 => rfl

/-- Without their places, the characters are the text that the markup is read from. -/
theorem map_readMarks (pieces : List Piece) : (readMarks pieces).map Mark.character =
    Markup.joinLineEnds (Markup.withoutMark (SelfClosing.expand (StandIn.hide 0 pieces))) := by
  rw [readMarks, map_joinMarks, map_stripMarks, map_expandMarks, map_hideMarks]

/-! ## Brackets stay -/

theorem mem_hideMarks {number : Nat} (member : mark ∈ hideMarks number position pieces)
    (bracket : mark.character = '<') : mark ∈ marks position (pieces.flatMap Piece.source) := by
  induction pieces generalizing number position with
  | nil => cases member
  | cons piece pieces hypothesis =>
      rw [List.flatMap_cons, marks_append, List.mem_append]
      cases piece with
      | text source =>
          rw [hideMarks, List.mem_append] at member
          exact member.imp_right hypothesis
      | code placeholder =>
          rw [hideMarks, List.mem_append] at member
          rcases member with standIn | later
          · obtain ⟨c, among, rfl⟩ := List.mem_map.1 standIn
            obtain rfl : c = '<' := bracket
            exact absurd rfl (StandIn.isPlain_ofNumber number _ among).1
          · exact .inr (hypothesis later)

theorem mem_expandMarks {marks : List Mark} (member : mark ∈ expandMarks marks) (bracket : mark.character = '<') :
    mark ∈ marks := by
  fun_induction expandMarks marks with
  | case1 => exact member
  | case2 first rest opens name content after found hypothesis =>
      rcases List.mem_append.1 member with written | later
      · obtain ⟨c, -, rfl⟩ := List.mem_map.1 written
        obtain rfl : c = '<' := bracket
        rw [← beq_iff_eq.1 opens]
        exact List.mem_cons_self
      · exact List.mem_cons_of_mem first (List.mem_of_mem_drop (hypothesis later))
  | case3 first rest opens none hypothesis =>
      exact List.mem_cons.2 ((List.mem_cons.1 member).imp_right hypothesis)
  | case4 first rest other hypothesis =>
      exact List.mem_cons.2 ((List.mem_cons.1 member).imp_right hypothesis)

theorem mem_stripMarks {marks : List Mark} (member : mark ∈ stripMarks marks) : mark ∈ marks := by
  unfold stripMarks at member
  split at member
  · exact List.mem_cons_of_mem _ member
  · exact member

theorem mem_joinMarks {marks : List Mark} (member : mark ∈ joinMarks marks) (bracket : mark.character = '<') :
    mark ∈ marks := by
  fun_induction joinMarks marks with
  | case1 position next rest hypothesis =>
      rcases List.mem_cons.1 member with rfl | later
      · cases bracket
      · exact List.mem_cons_of_mem _ (List.mem_cons_of_mem _ (hypothesis later))
  | case2 position rest other hypothesis =>
      rcases List.mem_cons.1 member with rfl | later
      · cases bracket
      · exact List.mem_cons_of_mem _ (hypothesis later)
  | case3 first rest _ other hypothesis => exact List.mem_cons.2 ((List.mem_cons.1 member).imp_right hypothesis)
  | case4 => cases member

/-- Where an opening bracket is read there is one in the source. -/
theorem mem_readMarks (member : mark ∈ readMarks pieces) (bracket : mark.character = '<') :
    mark ∈ marks .first (pieces.flatMap Piece.source) :=
  mem_hideMarks (mem_expandMarks (mem_stripMarks (mem_joinMarks member bracket)) bracket) bracket

end Template
end HtmlTemplate
