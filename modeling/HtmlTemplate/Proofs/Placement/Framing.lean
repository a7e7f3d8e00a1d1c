import HtmlTemplate.Proofs.Placement.Absence
import HtmlTemplate.Proofs.Template.Paragraph

/-!
# Sources inside other texts

A source that is put between plain texts has the pieces that it has alone, and the same stand-ins are left for them.
In the text that is left for markup the pieces are found again one by one, unless a plain text among them looks like
the start of a stand-in.
-/

namespace HtmlTemplate

/-- The placeholder that a piece is. -/
def Piece.code? : Piece → Option Placeholder
  | text _ => none
  | code placeholder => some placeholder

/-! ## Pieces of a framed source -/

/-- Pieces with plain text before and behind them: the placeholders are the same. -/
structure Piece.Framed (front back : List Char) (pieces whole : List Piece) : Prop where
  hidden : ∀ number, StandIn.hide number whole = front ++ (StandIn.hide number pieces ++ back)
  codes : whole.filterMap code? = pieces.filterMap code?

namespace Placeholder

variable {text rest front back source : List Char} {found : List Piece}

/-- The text goes on with nothing that would become a part of a placeholder, or of its escape. -/
def Stops (back : List Char) : Prop :=
  ∀ c ∈ back.head?, c ≠ '$' ∧ c ≠ '!' ∧ c ≠ '\x7b'

instance (back : List Char) : Decidable (Stops back) :=
  decidable_of_iff ((back.head?.all fun c => c != '$' && c != '!' && c != '\x7b') = true) <| by
    simp [Stops, Option.all_eq_true, and_assoc]

instance (text : List Char) : Decidable (StandIn.Plain text) :=
  decidable_of_iff ((text.all fun c => c != '$' && c != '\\') = true) <| by
    simp [StandIn.Plain]

theorem hide_cons (number : Nat) (piece : Piece) (pieces : List Piece) :
    StandIn.hide number (piece.cons pieces) = StandIn.hide number (piece :: pieces) := by
  unfold Piece.cons
  split
  · rw [StandIn.hide, StandIn.hide, StandIn.hide, List.append_assoc]
  · rfl

theorem codes_cons (piece : Piece) (pieces : List Piece) :
    (piece.cons pieces).filterMap Piece.code? = (piece :: pieces).filterMap Piece.code? := by
  unfold Piece.cons
  split <;> rfl

theorem hide_text_cons (number : Nat) (source : List Char) (pieces : List Piece) :
    StandIn.hide number ((Piece.text source).cons pieces) = source ++ StandIn.hide number pieces := by
  rw [hide_cons, StandIn.hide]

/-- Plain text in front of a source is a part of its first piece. -/
theorem exists_framed_front (plain : StandIn.Plain front) (cut : pieces rest = .ok found) :
    ∃ whole, pieces (front ++ rest) = .ok whole ∧ Piece.Framed front [] found whole := by
  induction front with
  | nil => exact ⟨found, cut, fun number => (List.append_nil _).symm, rfl⟩
  | cons c front hypothesis =>
      obtain ⟨whole, below, framed⟩ := hypothesis fun d member => plain d (List.mem_cons_of_mem c member)
      obtain ⟨dollar, escape⟩ := plain c List.mem_cons_self
      have starts : start (c :: (front ++ rest)) = .piece (.text [c]) (front ++ rest) :=
        start_cons (StandIn.opening?_eq_none dollar) fun same => absurd same escape
      refine ⟨(Piece.text [c]).cons whole, (pieces_eq_ok_iff starts).2 ⟨whole, below, rfl⟩, fun number => ?_, ?_⟩
      · rw [hide_text_cons, framed.hidden]
        rfl
      · rw [codes_cons, ← framed.codes]
        rfl

theorem opening?_append (full : text ≠ []) (unopened : opening? text = none) (stops : Stops back) :
    opening? (text ++ back) = none := by
  match text with
  | [c] =>
      by_cases dollar : c = '$'
      · subst dollar
        match back, stops with
        | [], _ => rfl
        | d :: back, stops =>
            obtain ⟨-, bang, brace⟩ := stops d rfl
            simp [opening?, bang, brace]
      · exact StandIn.opening?_eq_none dollar
  | [c, d] =>
      match back, stops with
      | [], _ => exact unopened
      | e :: back, stops =>
          obtain ⟨-, -, brace⟩ := stops e rfl
          simp only [opening?, List.cons_append, List.nil_append] at unopened ⊢
          grind
  | c :: d :: e :: text =>
      simp only [opening?, List.cons_append] at unopened ⊢
      grind

/-- A piece is the first one of a text also when more text follows. -/
theorem start_append {piece : Piece} (starts : start text = .piece piece rest) (stops : Stops back) :
    start (text ++ back) = .piece piece (rest ++ back) := by
  cases piece with
  | code placeholder =>
      rw [start_source starts, List.append_assoc]
      exact start_source_append starts (rest ++ back)
  | text source =>
      unfold start at starts
      split at starts
      · split at starts
        · cases starts
        · dsimp only at starts
          split at starts <;> cases starts
      · next unopened =>
          split at starts
          · cases starts
          · cases starts
            exact start_escape _
          · next c rest escape =>
              cases starts
              refine start_cons (opening?_append (List.cons_ne_nil c rest) unopened stops) fun backslash => ?_
              subst backslash
              match rest, escape with
              | [], _ => exact fun dollar => (stops _ dollar).1 rfl
              | d :: rest, escape => exact fun dollar => escape rest rfl (Option.some.inj dollar ▸ rfl)

theorem framed_cons {piece : Piece} {pieces whole : List Piece} (framed : Piece.Framed [] back pieces whole) :
    Piece.Framed [] back (piece.cons pieces) (piece.cons whole) where
  hidden number := by
    rw [hide_cons, hide_cons]
    cases piece with
    | text source =>
        rw [StandIn.hide, StandIn.hide, framed.hidden, List.nil_append, List.nil_append, List.append_assoc]
    | code placeholder =>
        rw [StandIn.hide, StandIn.hide, framed.hidden, List.nil_append, List.nil_append, List.append_assoc]
  codes := by
    rw [codes_cons, codes_cons, List.filterMap_cons, List.filterMap_cons, framed.codes]

/-- Plain text behind a source is a part of its last piece. -/
theorem exists_framed_back (cut : pieces text = .ok found) (plain : StandIn.Plain back) (stops : Stops back) :
    ∃ whole, pieces (text ++ back) = .ok whole ∧ Piece.Framed [] back found whole := by
  refine pieces_induction (motive := fun text found => ∃ whole, pieces (text ++ back) = .ok whole ∧
    Piece.Framed [] back found whole) ?_ ?_ cut
  · have nothing : pieces [] = .ok [] := pieces_of_nothing rfl
    obtain ⟨whole, cut, framed⟩ := exists_framed_front plain nothing
    rw [List.append_nil] at cut
    refine ⟨whole, cut, fun number => ?_, framed.codes⟩
    rw [framed.hidden, StandIn.hide, List.append_nil, List.append_nil, List.nil_append, List.nil_append]
  · rintro text rest piece others starts ⟨whole, below, framed⟩
    exact ⟨piece.cons whole, (pieces_eq_ok_iff (start_append starts stops)).2 ⟨whole, below, rfl⟩, framed_cons framed⟩

/-- A source between plain texts is cut into its own pieces. -/
theorem exists_framed (cut : pieces text = .ok found) (before : StandIn.Plain front) (behind : StandIn.Plain back)
    (stops : Stops back) : ∃ whole, pieces (front ++ (text ++ back)) = .ok whole ∧ Piece.Framed front back found whole := by
  obtain ⟨between, inner, framed⟩ := exists_framed_back cut behind stops
  obtain ⟨whole, outer, around⟩ := exists_framed_front before inner
  refine ⟨whole, outer, fun number => ?_, around.codes.trans framed.codes⟩
  rw [around.hidden, framed.hidden, List.nil_append, List.append_nil]

end Placeholder

/-! ## Pieces that are found again -/

namespace StandIn

variable {text rest source hidden : List Char} {count : Nat} {pieces : List Piece}

/-- The parts that the stand-ins of pieces are found as, counted from a number on. -/
def partsOf (number : Nat) : List Piece → List Part
  | [] => []
  | .text source :: pieces => .text source :: partsOf number pieces
  | .code _ :: pieces => .standIn number :: partsOf (number + 1) pieces

theorem BreaksOff.opens (breaksOff : BreaksOff text) : opening <:+: text := by
  obtain ⟨digits, -, -, rfl | rfl⟩ := breaksOff
  · exact (List.prefix_append _ _).isInfix
  · exact (List.prefix_append _ _).isInfix

/-- A text in which no stand-in opens is inert. -/
theorem inert_of_unopened (followed : Bool) (unopened : ¬opening <:+: text) : Inert count followed text := by
  induction text with
  | nil => exact .nil
  | cons c text hypothesis =>
      refine .cons (absent_of_unopened unopened _ (List.suffix_refl _)) (fun _ breaksOff => unopened breaksOff.opens) ?_
      exact hypothesis fun inside => unopened (inside.trans (List.suffix_cons c text).isInfix)

/-- Where a text in which no stand-in opens goes over into a stand-in, none is found before. -/
theorem read?_eq_none_of_unopened (full : text ≠ []) (unopened : ¬opening <:+: text)
    (behind : hidden = [] ∨ opening <+: hidden) : read? (text ++ hidden) = none := by
  have absent := absent_of_unopened unopened text (List.suffix_refl text)
  rcases behind with rfl | ⟨after, rfl⟩
  · rwa [List.append_nil]
  · cases found : read? (text ++ (opening ++ after)) with
    | none => rfl
    | some read =>
        rcases read?_or_breaksOff full found with ⟨behind, whole, -⟩ | ⟨breaksOff, -⟩
        · cases absent.symm.trans whole
        · exact absurd breaksOff.opens unopened

theorem consText_consText (first second : List Char) (parts : List Part) :
    Part.consText first (Part.consText second parts) = Part.consText (first ++ second) parts := by
  match parts with
  | [] => rfl
  | .text next :: parts => exact congrArg (Part.text · :: parts) (List.append_assoc first second next).symm
  | .standIn number :: parts => rfl

/-- A text in which no stand-in opens is found as it is. -/
theorem parts_text (full : text ≠ []) (unopened : ¬opening <:+: text) (behind : hidden = [] ∨ opening <+: hidden) :
    parts count (text ++ hidden) = Part.consText text (parts count hidden) := by
  induction text with
  | nil => exact absurd rfl full
  | cons c text hypothesis =>
      have plain := read?_eq_none_of_unopened full unopened behind
      rw [List.cons_append] at plain ⊢
      rw [parts_cons plain]
      cases text with
      | nil => rfl
      | cons d text =>
          have later : ¬opening <:+: d :: text := fun inside => unopened (inside.trans (List.suffix_cons c _).isInfix)
          rw [hypothesis (List.cons_ne_nil d text) later, consText_consText]
          rfl

/-- Markup takes stand-ins as they are. -/
theorem isPlain_ofNumber (number : Nat) : ∀ c ∈ ofNumber number, Markup.IsPlain c := by
  have fixed : ∀ c ∈ opening ++ closing, Markup.IsPlain c := by
    have all : ((opening ++ closing).all fun c => decide (Markup.IsPlain c)) = true := by rfl
    simpa only [List.all_eq_true, decide_eq_true_eq] using all
  intro c member
  rw [ofNumber, List.append_assoc, List.mem_append, List.mem_append] at member
  rcases member with member | member | member
  · exact fixed c (List.mem_append_left _ member)
  · rw [Nat.toString_eq_repr, Nat.toList_repr] at member
    have digit := Nat.isDigit_of_mem_toDigits (by decide) (by decide) member
    refine ⟨?_, ?_, ?_, ?_, ?_, ?_⟩ <;> rintro rfl <;> cases digit
  · exact fixed c (List.mem_append_right _ member)

theorem opening_prefix_hide {placeholder : Placeholder} (number : Nat) :
    opening <+: hide number (.code placeholder :: pieces) := by
  rw [hide, ofNumber, List.append_assoc, List.append_assoc]
  exact List.prefix_append _ _

/-- Pieces without such texts are found again one by one. -/
theorem parts_hide (number : Nat) (apart : Placeholder.Apart pieces)
    (texts : ∀ source, .text source ∈ pieces → source ≠ [] ∧ ¬opening <:+: source)
    (within : number + (pieces.filterMap Piece.code?).length ≤ count) :
    parts count (hide number pieces) = partsOf number pieces := by
  induction pieces generalizing number with
  | nil => exact parts_nil
  | cons piece pieces hypothesis =>
      have later : ∀ source, .text source ∈ pieces → source ≠ [] ∧ ¬opening <:+: source := fun source member =>
        texts source (List.mem_cons_of_mem piece member)
      cases piece with
      | code placeholder =>
          have more : number + 1 + (pieces.filterMap Piece.code?).length ≤ count := by
            simp only [List.filterMap_cons, Piece.code?, List.length_cons] at within
            omega
          rw [hide, partsOf, parts_standIn (read?_ofNumber number _) (Text.number?_toString number) (by omega),
            hypothesis (number + 1) apart.tail later more]
      | text source =>
          obtain ⟨full, unopened⟩ := texts source List.mem_cons_self
          have rest := hypothesis number apart.tail later within
          cases pieces with
          | nil =>
              rw [hide, hide, parts_text full unopened (.inl rfl), parts_nil]
              rfl
          | cons next pieces =>
              cases next with
              | text other => cases apart
              | code placeholder =>
                  rw [hide, parts_text full unopened (.inr (opening_prefix_hide number)), rest]
                  rfl

end StandIn

namespace Placeholder

/-- No text among the pieces of a source is empty. -/
theorem ne_nil_of_mem_pieces {text source : List Char} {found : List Piece} (cut : pieces text = .ok found)
    (member : .text source ∈ found) : source ≠ [] := by
  refine pieces_induction (motive := fun _ found => ∀ source, .text source ∈ found → source ≠ []) ?_ ?_ cut source member
  · exact fun _ none => absurd none List.not_mem_nil
  · intro text rest piece others starts full source member
    unfold Piece.cons at member
    split at member
    · next first next pieces =>
        rcases List.mem_cons.1 member with same | later
        · cases same
          exact List.append_ne_nil_of_left_ne_nil (start_source_ne_nil starts) next
        · exact full source (List.mem_cons_of_mem _ later)
    · rcases List.mem_cons.1 member with rfl | later
      · exact start_source_ne_nil starts
      · exact full source later

end Placeholder

end HtmlTemplate
