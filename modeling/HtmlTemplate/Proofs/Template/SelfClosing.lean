import HtmlTemplate.Markup.Document
import HtmlTemplate.Proofs.Markup.Extent
import HtmlTemplate.Proofs.Text.Space
import HtmlTemplate.Template.SelfClosing
import Mathlib

/-!
# Where tags are written out that close themselves

A tag that closes itself is found by its shape alone, from an angle bracket up to the next one. So a text may be cut
before an opening bracket and behind a closing one, and the tags are written out in each part for itself.
-/

namespace HtmlTemplate
namespace SelfClosing

open Markup (takeWhile_append_stop)

variable {text name content rest front behind : List Char}

/-! ## The shape of a tag -/

/-- The text is a tag that closes itself, from the name on, with more text behind it. -/
structure Shaped (text name content rest : List Char) : Prop where
  shape : text = name ++ (content ++ '/' :: '>' :: rest)
  first : ∃ c ∈ name.head?, c.isAlpha = true
  named : ∀ c ∈ name, Name.isTagPart c = true
  inside : ∀ c ∈ content, isInside c = true
  apart : ∀ c ∈ content.head?, Text.isSpace c = true

theorem isTagPart_of_isAlpha {c : Char} (alpha : c.isAlpha = true) : Name.isTagPart c = true := by
  simp [Name.isTagPart, Char.isAlphanum, alpha]

theorem isTagPart_of_isSpace {c : Char} (space : Text.isSpace c = true) : Name.isTagPart c = false := by
  cases part : Name.isTagPart c with
  | false => rfl
  | true =>
      -- No range of white space holds a letter, a digit or one of the signs.
      have small : c.toNat < 128 := by
        simp only [Name.isTagPart, Char.isAlphanum, Char.isAlpha, Char.isUpper, Char.isLower, Char.isDigit, ge_iff_le,
          Bool.or_eq_true, Bool.and_eq_true, decide_eq_true_eq, beq_iff_eq, UInt32.le_iff_toNat_le] at part
        have upper : 'Z'.val.toNat = 90 := rfl
        have lower : 'z'.val.toNat = 122 := rfl
        have digit : '9'.val.toNat = 57 := rfl
        rcases part with ((((((_ | _) | _) | rfl) | rfl) | rfl) | rfl)
        all_goals first | decide | (simp only [Char.toNat]; omega)
      have each : ∀ n < 128, Text.isSpace (Char.ofNat n) = true → Name.isTagPart (Char.ofNat n) = false := by
        decide
      rw [← Char.ofNat_toNat c] at space part
      exact absurd part (by rw [each _ small space]; exact Bool.false_ne_true)

namespace Shaped

/-- The name of a tag ends where no character of a name follows. -/
theorem nameSpan (shaped : Shaped text name content rest) :
    text.takeWhile Name.isTagPart = name ∧ text.dropWhile Name.isTagPart = content ++ '/' :: '>' :: rest := by
  rw [shaped.shape]
  refine takeWhile_append_stop shaped.named fun c head => ?_
  cases content with
  | nil =>
      cases head
      decide
  | cons d content =>
      cases head
      exact isTagPart_of_isSpace (shaped.apart c rfl)

/-- What stands in a tag behind its name ends with the slash. -/
theorem insideSpan (shaped : Shaped text name content rest) :
    (content ++ '/' :: '>' :: rest).takeWhile isInside = content ++ ['/'] ∧
      (content ++ '/' :: '>' :: rest).dropWhile isInside = '>' :: rest := by
  rw [List.append_cons content '/' ('>' :: rest)]
  refine takeWhile_append_stop (fun c member => ?_) fun c head => by cases head; decide
  rcases List.mem_append.1 member with among | last
  · exact shaped.inside c among
  · rw [List.mem_singleton.1 last]
    decide

/-- A text of the shape of a tag is read as that tag. -/
theorem reads (shaped : Shaped text name content rest) : read? text = some (name, content, rest) := by
  obtain ⟨c, head, alpha⟩ := shaped.first
  obtain ⟨tail, rfl⟩ := List.head?_eq_some_iff.1 head
  have nameIs := shaped.nameSpan.1
  have insideIs := shaped.insideSpan.1
  have startsApart : (content.head?.map Text.isSpace).getD true = true := by
    cases head : content.head? with
    | none => rfl
    | some d => exact shaped.apart d head
  have afterName : text.drop (c :: tail).length = content ++ '/' :: '>' :: rest := by
    rw [shaped.shape]
    exact List.drop_left
  have afterInside : text.drop ((c :: tail).length + (content ++ ['/']).length) = '>' :: rest := by
    rw [← List.drop_drop, afterName, List.append_cons content '/' ('>' :: rest)]
    exact List.drop_left
  have starts : text = c :: (tail ++ (content ++ '/' :: '>' :: rest)) := shaped.shape
  unfold read?
  split
  · next d _ =>
      obtain rfl := (List.cons.inj starts).1
      simp only [alpha, nameIs, afterName, insideIs, afterInside, startsApart, Bool.not_true, Bool.false_eq_true,
        if_false, List.getLast?_concat, List.dropLast_concat, if_true]
  · cases starts

end Shaped

/-- What is read as a tag has the shape of one. -/
theorem shaped_of_read? (found : read? text = some (name, content, rest)) : Shaped text name content rest := by
  unfold read? at found
  split at found
  case h_2 => cases found
  case h_1 c tail =>
    split at found
    case isTrue => cases found
    case isFalse alpha =>
      simp only [Bool.not_eq_true', Bool.not_eq_false] at alpha
      dsimp only at found
      split at found
      case h_2 => cases found
      case h_1 last drops =>
        split at found
        case isFalse => cases found
        case isTrue apart =>
          simp only [Option.some.injEq, Prod.mk.injEq] at found
          obtain ⟨rfl, rfl, rfl⟩ := found
          generalize nameIs : (c :: tail).takeWhile Name.isTagPart = name at *
          generalize insideIs : ((c :: tail).drop name.length).takeWhile isInside = inside at *
          have written : inside.dropLast ++ ['/'] = inside := List.dropLast_append_getLast? '/' last
          refine ⟨?_, ⟨c, ?_, alpha⟩, ?_, fun d member => ?_, ?_⟩
          · have wholeName : name ++ (c :: tail).drop name.length = c :: tail := by
              rw [← nameIs]
              exact List.prefix_iff_eq_append.1 (List.takeWhile_prefix _)
            have wholeInside : inside ++ ((c :: tail).drop name.length).drop inside.length =
                (c :: tail).drop name.length := by
              rw [← insideIs]
              exact List.prefix_iff_eq_append.1 (List.takeWhile_prefix _)
            rw [List.drop_drop, drops] at wholeInside
            rw [← wholeName, ← wholeInside, ← written]
            simp
          · rw [← nameIs, List.takeWhile_cons_of_pos (isTagPart_of_isAlpha alpha)]
            rfl
          · rw [← nameIs]
            exact List.all_eq_true.1 List.all_takeWhile
          · have among : d ∈ inside := List.mem_of_mem_dropLast member
            rw [← insideIs] at among
            exact List.all_eq_true.1 List.all_takeWhile d among
          · intro d head
            rw [Option.mem_def.1 head] at apart
            exact apart

/-- A tag is read just when the text has its shape. -/
theorem read?_eq_some_iff : read? text = some (name, content, rest) ↔ Shaped text name content rest :=
  ⟨shaped_of_read?, Shaped.reads⟩

theorem Shaped.append (shaped : Shaped text name content rest) (more : List Char) :
    Shaped (text ++ more) name content (rest ++ more) :=
  { shaped with shape := by simp [shaped.shape] }

/-- The brackets of a tag stand around all of it. -/
theorem Shaped.bare (shaped : Shaped text name content rest) : ∀ c ∈ name ++ content ++ ['/'], isInside c = true := by
  intro c member
  rcases List.mem_append.1 member with either | last
  · rcases List.mem_append.1 either with named | inside
    · have part := shaped.named c named
      rw [isInside, Bool.and_eq_true, bne_iff_ne, bne_iff_ne]
      refine ⟨?_, ?_⟩ <;> rintro rfl <;> cases part
    · exact shaped.inside c inside
  · rw [List.mem_singleton.1 last]
    decide

/-! ## Writing out in parts -/

@[simp]
theorem expand_nil : expand [] = [] := by
  rw [expand]

theorem expand_cons_of_ne {c : Char} (other : c ≠ '<') (rest : List Char) : expand (c :: rest) = c :: expand rest := by
  rw [expand, if_neg (mt beq_iff_eq.1 other)]

theorem expand_of_none (none : read? rest = none) : expand ('<' :: rest) = '<' :: expand rest := by
  rw [expand, if_pos (beq_self_eq_true _)]
  split
  · next found => rw [none] at found; cases found
  · rfl

theorem expand_of_shaped (shaped : Shaped text name content rest) :
    expand ('<' :: text) = expandTag name content ++ expand rest := by
  rw [expand, if_pos (beq_self_eq_true _)]
  have found := read?_eq_some_iff.2 shaped
  split
  · next other =>
      rw [found] at other
      cases other
      rfl
  · next none => rw [found] at none; cases none

/-- Text without opening brackets stays as it is. -/
theorem expand_append_plain (plain : '<' ∉ front) (behind : List Char) :
    expand (front ++ behind) = front ++ expand behind := by
  induction front with
  | nil => rfl
  | cons c front hypothesis =>
      obtain ⟨other, plain⟩ := List.ne_and_not_mem_of_not_mem_cons plain
      rw [List.cons_append, expand_cons_of_ne other.symm, hypothesis plain, List.cons_append]

theorem expand_plain (plain : '<' ∉ text) : expand text = text := by
  simpa using expand_append_plain plain []

/-- Writing out does not change how a text begins. -/
theorem head?_expand (text : List Char) : (expand text).head? = text.head? := by
  match text with
  | [] => rw [expand_nil]
  | c :: rest =>
      by_cases bracket : c = '<'
      · subst bracket
        cases isTag : read? rest with
        | none => rw [expand_of_none isTag, List.head?_cons, List.head?_cons]
        | some found =>
            obtain ⟨name, content, after⟩ := found
            rw [expand_of_shaped (read?_eq_some_iff.1 isTag), expandTag]
            split <;> rfl
      · rw [expand_cons_of_ne bracket, List.head?_cons, List.head?_cons]

/-- A text may be cut between the two parts: behind a closing bracket, before an opening one, or at its end. -/
def Parts (front behind : List Char) : Prop :=
  front.getLast? = some '>' ∨ ∀ c ∈ behind.head?, c = '<'

theorem Parts.behindOf (first : List Char) (parts : Parts (first ++ front) behind) (full : front ≠ []) :
    Parts front behind :=
  parts.imp_left fun ends => by rwa [List.getLast?_append_of_ne_nil _ full] at ends

theorem Parts.opened (parts : Parts ('<' :: front) behind) : Parts front behind := by
  cases front with
  | nil => exact .inr (parts.resolve_left (by decide))
  | cons d front => exact parts.behindOf ['<'] (List.cons_ne_nil d front)

/-- What has the shape of a tag in a text that may be cut has it before the cut. -/
theorem Shaped.within (parts : Parts front behind) (shaped : Shaped (front ++ behind) name content rest) :
    ∃ after, rest = after ++ behind ∧ Shaped front name content after := by
  have bare : ∀ c ∈ name ++ content ++ ['/'], c ≠ '<' ∧ c ≠ '>' := fun c member => by
    simpa [isInside] using shaped.bare c member
  have shape : front ++ behind = name ++ content ++ ['/'] ++ ['>'] ++ rest := by simp [shaped.shape]
  obtain ⟨more, tag, starts⟩ | ⟨after, source, ends⟩ := List.append_eq_append_iff.1 shape
  · -- The tag goes on behind the cut, which is only possible if nothing of it does.
    rcases List.eq_nil_or_concat more with rfl | ⟨more, last, rfl⟩
    · have same : front = name ++ content ++ ['/'] ++ ['>'] := by simpa using tag.symm
      exact ⟨[], by simpa using starts.symm, { shaped with shape := by simp [same] }⟩
    · rw [List.concat_eq_append, ← List.append_assoc] at tag
      rw [List.concat_eq_append] at starts
      obtain ⟨whole, -⟩ := List.append_inj' tag rfl
      rcases parts with closed | opened
      · have member : '>' ∈ name ++ content ++ ['/'] := by
          rw [whole]
          exact List.mem_append_left _ (List.mem_of_getLast? closed)
        exact absurd rfl (bare '>' member).2
      · cases more with
        | nil =>
            have isLast : last = '>' := by simpa using (congrArg List.getLast? tag).symm
            have begins := opened last (by rw [starts]; rfl)
            rw [isLast] at begins
            cases begins
        | cons d more =>
            have begins := opened d (by rw [starts]; rfl)
            exact absurd begins (bare d (by rw [whole]; simp)).1
  · exact ⟨after, ends, { shaped with shape := by simp [source] }⟩

/-- In a text that may be cut, tags are written out before and behind the cut. -/
theorem expand_append (parts : Parts front behind) : expand (front ++ behind) = expand front ++ expand behind := by
  induction length : front.length using Nat.strong_induction_on generalizing front with
  | _ length hypothesis =>
      have inner : ∀ {first rest : List Char}, front = first ++ rest → first ≠ [] →
          expand (rest ++ behind) = expand rest ++ expand behind := by
        rintro first rest rfl full
        by_cases none : rest = []
        · rw [none, expand_nil, List.nil_append, List.nil_append]
        · refine hypothesis _ ?_ (parts.behindOf _ none) rfl
          have := List.length_pos_of_ne_nil full
          simp at length
          omega
      match front with
      | [] => rw [expand_nil, List.nil_append, List.nil_append]
      | c :: front =>
          have tail := inner (List.singleton_append (x := c) (l := front)).symm (List.cons_ne_nil c [])
          rw [List.cons_append]
          by_cases bracket : c = '<'
          · subst bracket
            cases isTag : read? front with
            | some found =>
                obtain ⟨name, content, after⟩ := found
                have shaped := read?_eq_some_iff.1 isTag
                have source : '<' :: front = '<' :: (name ++ (content ++ ['/', '>'])) ++ after := by simp [shaped.shape]
                rw [expand_of_shaped shaped, expand_of_shaped (shaped.append behind), List.append_assoc,
                  inner source (List.cons_ne_nil _ _)]
            | none =>
                have isNone : read? (front ++ behind) = none := by
                  rw [Option.eq_none_iff_forall_ne_some]
                  rintro ⟨name, content, rest⟩ found
                  obtain ⟨after, -, within⟩ := (read?_eq_some_iff.1 found).within parts.opened
                  rw [read?_eq_some_iff.2 within] at isTag
                  cases isTag
                rw [expand_of_none isTag, expand_of_none isNone, List.cons_append, tail]
          · rw [expand_cons_of_ne bracket, expand_cons_of_ne bracket, List.cons_append, tail]

end SelfClosing

/-! ## Line ends -/

namespace Markup

variable {p : Char → Bool} {c : Char} {text rest front behind : List Char}

theorem joinLineEnds_carriage (lone : rest.head? ≠ some '\n') :
    joinLineEnds ('\r' :: rest) = '\n' :: joinLineEnds rest := by
  rw [joinLineEnds]
  rintro tail rfl
  exact lone rfl

example : joinLineEnds ['\r', 'a'] = ['\n', 'a'] := by
  cbv

theorem joinLineEnds_cons (other : c ≠ '\r') (rest : List Char) :
    joinLineEnds (c :: rest) = c :: joinLineEnds rest := by
  rw [joinLineEnds]
  · exact fun _ same _ => other same
  · exact other

theorem head?_joinLineEnds (text : List Char) :
    (joinLineEnds text).head? = text.head?.map fun c => if c = '\r' then '\n' else c := by
  match text with
  | [] => rfl
  | c :: rest =>
      by_cases carriage : c = '\r'
      · subst carriage
        by_cases feed : rest.head? = some '\n'
        · obtain ⟨behind, rfl⟩ := List.head?_eq_some_iff.1 feed
          rfl
        · rw [joinLineEnds_carriage feed]
          rfl
      · rw [joinLineEnds_cons carriage, List.head?_cons, List.head?_cons, Option.map_some, if_neg carriage]

theorem getLast?_joinLineEnds (text : List Char) :
    (joinLineEnds text).getLast? = text.getLast?.map fun c => if c = '\r' then '\n' else c := by
  fun_induction joinLineEnds text <;> grind [joinLineEnds]

theorem mem_of_mem_joinLineEnds (member : c ∈ joinLineEnds text) : c ∈ text ∨ (c = '\n' ∧ '\r' ∈ text) := by
  fun_induction joinLineEnds text <;> grind

theorem joinLineEnds_eq_self (none : '\r' ∉ text) : joinLineEnds text = text := by
  induction text with
  | nil => rfl
  | cons c text hypothesis =>
      obtain ⟨other, none⟩ := List.ne_and_not_mem_of_not_mem_cons none
      rw [joinLineEnds_cons other.symm, hypothesis none]

/-- Line ends are joined in two parts of a text, unless a line end goes across. -/
theorem joinLineEnds_append (apart : front.getLast? ≠ some '\r' ∨ behind.head? ≠ some '\n') :
    joinLineEnds (front ++ behind) = joinLineEnds front ++ joinLineEnds behind := by
  have inner : ∀ {d : Char} {tail : List Char}, ((d :: tail).getLast? ≠ some '\r' ∨ behind.head? ≠ some '\n') →
      tail.getLast? ≠ some '\r' ∨ behind.head? ≠ some '\n' := by
    intro d tail
    refine Or.imp_left fun last => ?_
    cases tail with
    | nil => exact nofun
    | cons => rwa [List.getLast?_cons_cons] at last
  fun_induction joinLineEnds front with
  | case1 rest hypothesis =>
      rw [List.cons_append, List.cons_append, joinLineEnds, List.cons_append, hypothesis (inner (inner apart))]
  | case2 rest lone hypothesis =>
      have stays : (rest ++ behind).head? ≠ some '\n' := by
        cases rest with
        | nil => exact apart.resolve_left fun other => other rfl
        | cons d rest => exact fun feed => lone rest (by rw [Option.some.inj feed])
      rw [List.cons_append, joinLineEnds_carriage stays, List.cons_append, hypothesis (inner apart)]
  | case3 c rest _ other hypothesis =>
      rw [List.cons_append, joinLineEnds_cons other, List.cons_append, hypothesis (inner apart)]
  | case4 => rfl

/-- A class of characters is passed in the same way, if the two parts of a line end are alike to it. -/
theorem takeWhile_joinLineEnds (alike : p '\r' = p '\n') (text : List Char) :
    (joinLineEnds text).takeWhile p = joinLineEnds (text.takeWhile p) ∧
      (joinLineEnds text).dropWhile p = joinLineEnds (text.dropWhile p) := by
  have passed : ∀ c ∈ text.takeWhile p, p c = true := List.all_eq_true.1 List.all_takeWhile
  have stops : ∀ c ∈ (text.dropWhile p).head?, p c = false := by
    intro c head
    have first := List.head?_dropWhile_not p text
    rw [Option.mem_def.1 head] at first
    simpa using first
  have apart : (text.takeWhile p).getLast? ≠ some '\r' ∨ (text.dropWhile p).head? ≠ some '\n' := by
    by_contra both
    rw [not_or, not_not, not_not] at both
    have first := passed _ (List.mem_of_getLast? both.1)
    rw [alike, stops _ both.2] at first
    cases first
  have parts := joinLineEnds_append apart
  rw [List.takeWhile_append_dropWhile] at parts
  have passes : ∀ c ∈ joinLineEnds (text.takeWhile p), p c = true := by
    intro c member
    rcases mem_of_mem_joinLineEnds member with same | ⟨rfl, carriage⟩
    · exact passed c same
    · exact alike.symm.trans (passed _ carriage)
  have ends : ∀ c ∈ (joinLineEnds (text.dropWhile p)).head?, p c = false := by
    intro c head
    rw [head?_joinLineEnds, Option.mem_map] at head
    obtain ⟨d, first, rfl⟩ := head
    have stop := stops d first
    split
    · next carriage => rwa [← alike, ← carriage]
    · exact stop
  rw [parts]
  exact takeWhile_append_stop passes ends

end Markup

namespace SelfClosing

open Markup (joinLineEnds joinLineEnds_append joinLineEnds_cons joinLineEnds_carriage joinLineEnds_eq_self
  head?_joinLineEnds getLast?_joinLineEnds takeWhile_joinLineEnds mem_of_mem_joinLineEnds)
open Text (trimRight_cons head?_trimRight)

theorem joinLineEnds_eq_nil_iff {text : List Char} : joinLineEnds text = [] ↔ text = [] := by
  rw [← List.head?_eq_none_iff, head?_joinLineEnds, Option.map_eq_none_iff, List.head?_eq_none_iff]

theorem trimRight_joinLineEnds (text : List Char) :
    Text.trimRight (joinLineEnds text) = joinLineEnds (Text.trimRight text) := by
  have carriage : Text.isSpace '\r' = true := by decide
  have feed : Text.isSpace '\n' = true := by decide
  fun_induction joinLineEnds text with
  | case1 rest hypothesis =>
      simp only [trimRight_cons, hypothesis, joinLineEnds_eq_nil_iff, carriage, feed, if_true]
      split <;> simp [joinLineEnds]
  | case2 rest lone hypothesis =>
      simp only [trimRight_cons, hypothesis, joinLineEnds_eq_nil_iff, carriage, feed, if_true]
      split
      · rfl
      · rw [joinLineEnds_carriage]
        intro head
        obtain ⟨tail, source⟩ := List.head?_eq_some_iff.1 (head?_trimRight head)
        exact lone tail source
  | case3 c rest _ other hypothesis =>
      simp only [trimRight_cons, hypothesis, joinLineEnds_eq_nil_iff]
      split
      · split
        · rfl
        · rw [joinLineEnds_cons other]
          rfl
      · rw [joinLineEnds_cons other]
  | case4 => rfl

theorem trimmed_joinLineEnds (content : List Char) :
    trimmed (joinLineEnds content) = joinLineEnds (trimmed content) := by
  fun_cases joinLineEnds content with
  | case1 rest =>
      rw [trimmed, trimmed, trimRight_joinLineEnds, trimRight_cons]
      split
      · next blank => rw [blank]; rfl
      · rw [joinLineEnds]
  | case2 rest lone =>
      rw [trimmed, trimmed, trimRight_joinLineEnds, joinLineEnds_carriage]
      intro head
      obtain ⟨tail, source⟩ := List.head?_eq_some_iff.1 (head?_trimRight head)
      exact lone tail source
  | case3 c rest _ other => rw [trimmed, trimmed, joinLineEnds_cons other, trimRight_joinLineEnds]
  | case4 => rfl

theorem Shaped.joined (shaped : Shaped text name content rest) :
    Shaped (joinLineEnds text) name (joinLineEnds content) (joinLineEnds rest) where
  shape := by
    have plain : '\r' ∉ name := fun member => by cases shaped.named _ member
    have first : (content ++ '/' :: '>' :: rest).head? ≠ some '\n' ∨ name.getLast? ≠ some '\r' := by
      refine .inr fun last => plain (List.mem_of_getLast? last)
    rw [shaped.shape, joinLineEnds_append first.symm, joinLineEnds_append (.inr (by simp)), joinLineEnds_eq_self plain,
      joinLineEnds_cons (by decide), joinLineEnds_cons (by decide)]
  first := shaped.first
  named := shaped.named
  inside c member := by
    rcases mem_of_mem_joinLineEnds member with same | ⟨rfl, -⟩
    · exact shaped.inside c same
    · decide
  apart c head := by
    rw [head?_joinLineEnds, Option.mem_map] at head
    obtain ⟨d, first, rfl⟩ := head
    have space := shaped.apart d first
    split
    · decide
    · exact space

/-- What has the shape of a tag with line ends joined has it without. -/
theorem Shaped.of_joined (shaped : Shaped (joinLineEnds text) name content rest) :
    ∃ content rest, Shaped text name content rest := by
  have alike : Name.isTagPart '\r' = Name.isTagPart '\n' := by decide
  have alsoInside : isInside '\r' = isInside '\n' := by decide
  obtain ⟨nameIs, behind⟩ := shaped.nameSpan
  obtain ⟨insideIs, rests⟩ := shaped.insideSpan
  rw [(takeWhile_joinLineEnds alike text).1] at nameIs
  rw [← behind, (takeWhile_joinLineEnds alike text).2] at insideIs rests
  have source := List.takeWhile_append_dropWhile (p := Name.isTagPart) (l := text)
  have named : ∀ c ∈ text.takeWhile Name.isTagPart, Name.isTagPart c = true := List.all_eq_true.1 List.all_takeWhile
  generalize text.takeWhile Name.isTagPart = written at nameIs source named
  generalize text.dropWhile Name.isTagPart = tail at insideIs rests source
  have more := List.takeWhile_append_dropWhile (p := isInside) (l := tail)
  have within : ∀ c ∈ tail.takeWhile isInside, isInside c = true := List.all_eq_true.1 List.all_takeWhile
  rw [(takeWhile_joinLineEnds alsoInside tail).1] at insideIs
  rw [(takeWhile_joinLineEnds alsoInside tail).2] at rests
  generalize tail.takeWhile isInside = inside at insideIs more within
  generalize tail.dropWhile isInside = after at rests more
  obtain rfl : written = name := by
    rw [← nameIs, joinLineEnds_eq_self fun member => by cases named _ member]
  have last : inside.getLast? = some '/' := by
    have joined := getLast?_joinLineEnds inside
    rw [insideIs, List.getLast?_concat, eq_comm, Option.map_eq_some_iff] at joined
    obtain ⟨c, last, same⟩ := joined
    split at same <;> cases same
    exact last
  have head : after.head? = some '>' := by
    have joined := head?_joinLineEnds after
    rw [rests, List.head?_cons, eq_comm, Option.map_eq_some_iff] at joined
    obtain ⟨c, head, same⟩ := joined
    split at same <;> cases same
    exact head
  obtain ⟨before, rfl⟩ : ∃ before, inside = before ++ ['/'] := ⟨_, (List.dropLast_append_getLast? '/' last).symm⟩
  obtain ⟨rest, rfl⟩ := List.head?_eq_some_iff.1 head
  refine ⟨before, rest, ?_, shaped.first, named, fun c member => within c (List.mem_append_left _ member), ?_⟩
  · rw [← source, ← more]
    simp
  · intro c head
    have joined : joinLineEnds before = content := by
      rw [joinLineEnds_append (.inr (by simp))] at insideIs
      exact List.append_cancel_right insideIs
    have space := shaped.apart (if c = '\r' then '\n' else c) (by rw [← joined, head?_joinLineEnds, head]; rfl)
    split at space
    · next carriage => rw [carriage]; decide
    · exact space

theorem getLast?_expandTag (name content : List Char) : (expandTag name content).getLast? = some '>' := by
  unfold expandTag
  split
  · rw [List.getLast?_append_of_ne_nil _ (List.cons_ne_nil _ _)]
    rfl
  · rw [List.getLast?_concat]

theorem expandTag_joinLineEnds (shaped : Shaped text name content rest) :
    expandTag name (joinLineEnds content) = joinLineEnds (expandTag name content) := by
  have plain : joinLineEnds name = name := joinLineEnds_eq_self fun member => by cases shaped.named _ member
  have ends : name.getLast? ≠ some '\r' := fun last => by cases shaped.named _ (List.mem_of_getLast? last)
  have opening (behind : List Char) : joinLineEnds ('<' :: name ++ behind) = '<' :: name ++ joinLineEnds behind := by
    rw [List.cons_append, joinLineEnds_cons (by decide), joinLineEnds_append (.inl ends), plain, List.cons_append]
  unfold expandTag
  split
  · rw [List.append_assoc, List.append_assoc, opening, joinLineEnds_append (.inr (by simp))]
    rfl
  · have closing : joinLineEnds (name ++ ['>']) = name ++ ['>'] := by
      rw [joinLineEnds_append (.inl ends), plain]
      rfl
    rw [trimmed_joinLineEnds]
    simp only [List.append_assoc]
    rw [opening, joinLineEnds_append (.inr (by simp)), joinLineEnds_append (.inl (by decide)), closing]
    rfl

/-- Line ends may be joined before tags are written out. -/
theorem expand_joinLineEnds (text : List Char) : expand (joinLineEnds text) = joinLineEnds (expand text) := by
  induction length : text.length using Nat.strong_induction_on generalizing text with
  | _ length hypothesis =>
      have inner : ∀ rest : List Char, rest.length < text.length →
          expand (joinLineEnds rest) = joinLineEnds (expand rest) :=
        fun rest shorter => hypothesis _ (length ▸ shorter) rest rfl
      fun_cases joinLineEnds text with
      | case1 rest =>
          rw [expand_cons_of_ne (by decide), expand_cons_of_ne (by decide), expand_cons_of_ne (by decide), joinLineEnds,
            inner rest (by simp)]
      | case2 rest lone =>
          rw [expand_cons_of_ne (by decide), expand_cons_of_ne (by decide), inner rest (by simp), joinLineEnds_carriage]
          rw [head?_expand]
          intro head
          obtain ⟨tail, source⟩ := List.head?_eq_some_iff.1 head
          exact lone tail source
      | case3 c rest _ other =>
          by_cases bracket : c = '<'
          · subst bracket
            cases isTag : read? rest with
            | some found =>
                obtain ⟨name, content, after⟩ := found
                have shaped := read?_eq_some_iff.1 isTag
                have shorter : after.length < ('<' :: rest).length := by
                  simp [shaped.shape]
                  omega
                rw [expand_of_shaped shaped, expand_of_shaped shaped.joined, expandTag_joinLineEnds shaped,
                  inner after shorter, joinLineEnds_append (.inl (by rw [getLast?_expandTag]; decide))]
            | none =>
                have isNone : read? (joinLineEnds rest) = none := by
                  rw [Option.eq_none_iff_forall_ne_some]
                  rintro ⟨name, content, after⟩ found
                  obtain ⟨content, after, shaped⟩ := (read?_eq_some_iff.1 found).of_joined
                  rw [read?_eq_some_iff.2 shaped] at isTag
                  cases isTag
                rw [expand_of_none isTag, expand_of_none isNone, joinLineEnds_cons other, inner rest (by simp)]
          · rw [expand_cons_of_ne bracket, expand_cons_of_ne bracket, joinLineEnds_cons other, inner rest (by simp)]
      | case4 =>
          rw [expand_nil]
          rfl

/-- The mark of an encoding may be dropped before tags are written out. -/
theorem expand_withoutMark (text : List Char) :
    expand (Markup.withoutMark text) = Markup.withoutMark (expand text) := by
  unfold Markup.withoutMark
  split
  · rw [expand_cons_of_ne (by decide)]
    rfl
  · next unmarked =>
      split
      · next rest same =>
          have head := head?_expand text
          rw [same] at head
          obtain ⟨tail, source⟩ := List.head?_eq_some_iff.1 head.symm
          exact absurd source (unmarked tail)
      · rfl

end SelfClosing

end HtmlTemplate
