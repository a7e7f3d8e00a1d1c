import HtmlTemplate.Markup.Token
import Mathlib

/-!
# How far markup reaches

Tags, comments and declarations end with a closing bracket, unless the text ends first. What is read of them up to
this bracket does not depend on the text behind it.
-/

namespace HtmlTemplate
namespace Markup

variable {α β : Type} {c : Char} {text rest front : List Char} {attributes found : Attributes}
  {state : TagState} {flag : Bool}

/-! ## Runs of characters -/

theorem takeWhile_append_stop {p : Char → Bool} {run : List Char} (all : ∀ c ∈ run, p c = true) {more : List Char}
    (stops : ∀ c ∈ more.head?, p c = false) :
    (run ++ more).takeWhile p = run ∧ (run ++ more).dropWhile p = more := by
  rw [List.takeWhile_append_of_pos all, List.dropWhile_append_of_pos all]
  cases more with
  | nil => simp
  | cons c more => simp [stops c rfl]

theorem drop_takeWhile_length (p : Char → Bool) (text : List Char) :
    text.drop (text.takeWhile p).length = text.dropWhile p := by
  induction text with
  | nil => rfl
  | cons c text hypothesis => cases passes : p c <;> simp [passes, hypothesis]

/-! ## Tags -/

/-- The attributes are read up to a closing bracket, and they are read so whatever stands behind it. -/
def TagEnds (attributes : Attributes) (state : TagState) (text : List Char) (found : Attributes × Bool)
    (rest : List Char) : Prop :=
  ∃ front, text = front ++ '>' :: rest ∧
    ∀ other, readAttributes attributes state (front ++ '>' :: other) = some (found.1, found.2, other)

theorem TagEnds.cons {next : Attributes} {behind : TagState} {result : Attributes × Bool}
    (goesOn : ∀ tail, readAttributes attributes state (c :: tail) = readAttributes next behind tail)
    (ends : TagEnds next behind text result rest) : TagEnds attributes state (c :: text) result rest := by
  obtain ⟨front, rfl, reads⟩ := ends
  exact ⟨c :: front, rfl, fun other => (goesOn _).trans (reads other)⟩

theorem readAttributes_ends (read : readAttributes attributes state text = some (found, flag, rest)) :
    TagEnds attributes state text (found, flag) rest := by
  fun_induction readAttributes attributes state text
  all_goals first
    | cases read; done
    | refine .cons (fun tail => ?_) (‹_ → _› read)
      rw [readAttributes]
      simp only [*, if_true, if_false, Bool.false_eq_true]
    | cases read
      obtain rfl := beq_iff_eq.1 ‹(_ == '>') = true›
      exact ⟨[], rfl, fun other => by simp [readAttributes, isGap]⟩

theorem readTag_eq (text : List Char) : readTag text =
    (readAttributes .empty .outside (text.dropWhile fun c => !endsTagName c)).map fun found =>
      ({ name := nameText (text.takeWhile fun c => !endsTagName c), attributes := found.1, selfClosing := found.2.1 },
        found.2.2) := by
  rw [readTag, drop_takeWhile_length]
  cases readAttributes .empty .outside (text.dropWhile fun c => !endsTagName c) <;> rfl

/-- A tag ends with a closing bracket, and it is read up to there whatever stands behind it. -/
theorem readTag_ends {tag : Tag} (read : readTag text = some (tag, rest)) :
    ∃ front, text = front ++ '>' :: rest ∧ ∀ other, readTag (front ++ '>' :: other) = some (tag, other) := by
  rw [readTag_eq, Option.map_eq_some_iff] at read
  obtain ⟨⟨found, flag, rest⟩, inside, same⟩ := read
  cases same
  obtain ⟨front, source, reads⟩ := readAttributes_ends inside
  have parts := List.takeWhile_append_dropWhile (p := fun c => !endsTagName c) (l := text)
  have named : ∀ c ∈ text.takeWhile fun c => !endsTagName c, (!endsTagName c) = true :=
    List.all_eq_true.1 List.all_takeWhile
  have first := List.head?_dropWhile_not (fun c => !endsTagName c) text
  rw [source] at parts first
  refine ⟨(text.takeWhile fun c => !endsTagName c) ++ front, by rw [List.append_assoc, parts], fun other => ?_⟩
  have stops : ∀ c ∈ (front ++ '>' :: other).head?, (!endsTagName c) = false := by
    cases front with
    | nil =>
        rintro c ⟨⟩
        decide
    | cons d front =>
        rintro c ⟨⟩
        simpa using first
  obtain ⟨name, behind⟩ := takeWhile_append_stop named stops
  rw [readTag_eq, List.append_assoc, name, behind, reads]
  rfl

/-! ## Readers that end at a closing bracket -/

/-- If a reader leaves something of the text, it reads up to a closing bracket, and it reads the same up to there
whatever follows. -/
def Extends (read : List Char → α × List Char) (text : List Char) : Prop :=
  (read text).2 ≠ [] →
    ∃ front, text = front ++ '>' :: (read text).2 ∧
      ∀ other, read (front ++ '>' :: other) = ((read text).1, other)

/-- A character may be read before what another reader reads behind it. -/
theorem Extends.cons {read : List Char → β × List Char} {inner : List Char → α × List Char}
    (leaves : ∀ tail, (read (c :: tail)).2 = (inner tail).2)
    (follows : ∀ first second, (inner first).1 = (inner second).1 → (read (c :: first)).1 = (read (c :: second)).1)
    (reaches : Extends inner text) : Extends read (c :: text) := by
  intro left
  rw [leaves] at left ⊢
  obtain ⟨front, source, reads⟩ := reaches left
  refine ⟨c :: front, congrArg _ source, fun other => Prod.ext (follows _ _ ?_) ?_⟩
  · show (inner (front ++ '>' :: other)).1 = _
    rw [reads]
  · exact (leaves _).trans (congrArg Prod.snd (reads other))

theorem Extends.closing {read : List Char → α × List Char} (value : α)
    (ends : ∀ tail, read ('>' :: tail) = (value, tail)) : Extends read ('>' :: text) := by
  intro _
  rw [ends]
  exact ⟨[], rfl, ends⟩

theorem Extends.nil {read : List Char → α × List Char} (none : (read []).2 = []) : Extends read [] :=
  fun left => absurd none left

theorem readComment_extends (state : CommentState) (text : List Char) : Extends (readComment state) text := by
  fun_induction readComment state text
  all_goals first
    | exact .nil (by simp [readComment])
    | refine .cons (fun tail => ?_) (fun first second same => ?_) ‹_› <;> simp [readComment, prepend, *]
    | obtain rfl := beq_iff_eq.1 ‹(_ == '>') = true›
      exact .closing [] fun tail => by simp [readComment]

theorem readSection_extends (text : List Char) : Extends readSection text := by
  fun_induction readSection text with
  | case1 rest =>
      intro _
      exact ⟨[']', ']'], rfl, fun other => rfl⟩
  | case2 c rest other hypothesis =>
      have reads : readSection (c :: rest) = prepend [c] (readSection rest) := by rw [readSection]; exact other
      intro left
      rw [reads] at left ⊢
      obtain ⟨front, source, inner⟩ := hypothesis left
      refine ⟨c :: front, congrArg _ source, fun behind => ?_⟩
      rw [List.cons_append, readSection, inner]
      · rfl
      · -- The mark that ends a section would have been there before.
        rintro tail rfl same
        rw [source] at other
        match front with
        | [d] =>
            cases same
            exact other _ rfl rfl
        | d :: e :: front =>
            cases same
            exact other _ rfl rfl
  | case3 => exact .nil rfl

/-! ## Readers that stop at the first closing bracket -/

/-- The text up to the first closing bracket is read in the same way whatever stands behind it, and without a closing
bracket all of the text is read. -/
structure Stops (read : List Char → α × List Char) : Prop where
  closing : ∀ front, '>' ∉ front → ∃ value, ∀ rest, read (front ++ '>' :: rest) = (value, rest)
  final : ∀ text, '>' ∉ text → (read text).2 = []

theorem Stops.extends {read : List Char → α × List Char} (stops : Stops read) (text : List Char) :
    Extends read text := by
  intro left
  by_cases member : '>' ∈ text
  · obtain ⟨front, rest, rfl, plain⟩ := List.eq_append_cons_of_mem member
    obtain ⟨value, reads⟩ := stops.closing front plain
    exact ⟨front, by rw [reads], fun other => by rw [reads, reads]⟩
  · exact absurd (stops.final text member) left

theorem takeWhile_cut {p : Char → Bool} (stop : p '>' = false) (front rest : List Char) :
    (front ++ '>' :: rest).takeWhile p = front.takeWhile p ∧
      (front ++ '>' :: rest).dropWhile p = front.dropWhile p ++ '>' :: rest := by
  induction front with
  | nil => simp [stop]
  | cons c front hypothesis =>
      cases passes : p c with
      | true => simp [passes, hypothesis]
      | false => simp [passes]

theorem not_mem_dropWhile {p : Char → Bool} (plain : c ∉ text) : c ∉ text.dropWhile p :=
  fun member => plain (List.dropWhile_subset p member)

theorem isPrefixOf_cut {mark : List Char} (plain : c ∉ mark) (front rest : List Char) :
    mark.isPrefixOf (front ++ c :: rest) = mark.isPrefixOf front := by
  induction mark generalizing front with
  | nil => rfl
  | cons d mark hypothesis =>
      obtain ⟨other, plain⟩ := List.ne_and_not_mem_of_not_mem_cons plain
      cases front with
      | nil => simp [List.isPrefixOf, other.symm]
      | cons e front => simp [List.isPrefixOf, hypothesis plain]

theorem startsWith_eq (mark : String) (text : List Char) :
    startsWith mark text = mark.toList.isPrefixOf (text.map Char.toLower) := by
  rw [startsWith, List.map_take, Bool.eq_iff_iff, List.isPrefixOf_iff_prefix, List.isPrefixOf_iff_prefix,
    ← String.length_toList]
  constructor
  · exact fun shorter => shorter.trans (List.take_prefix _ _)
  · exact fun whole => List.prefix_take_iff.2 ⟨whole, le_rfl⟩

theorem startsWith_cut (c : Char) (mark : String) (plain : c.toLower ∉ mark.toList) (front rest : List Char) :
    startsWith mark (front ++ c :: rest) = startsWith mark front := by
  rw [startsWith_eq, startsWith_eq, List.map_append, List.map_cons]
  exact isPrefixOf_cut plain _ _

theorem skipGaps_cut (front rest : List Char) : skipGaps (front ++ '>' :: rest) = skipGaps front ++ '>' :: rest :=
  (takeWhile_cut (by decide) front rest).2

theorem skipTag_eq (text : List Char) : skipTag text = (text.dropWhile fun c => c != '>').drop 1 :=
  rfl

theorem skipTag_cut (plain : '>' ∉ front) (rest : List Char) : skipTag (front ++ '>' :: rest) = rest := by
  have passed : front.dropWhile (fun c => c != '>') = [] :=
    List.dropWhile_eq_nil_iff.2 fun c member => bne_iff_ne.2 fun same => plain (same ▸ member)
  rw [skipTag_eq, (takeWhile_cut (by decide) front rest).2, passed]
  rfl

theorem skipTag_final (plain : '>' ∉ text) : skipTag text = [] := by
  have passed : text.dropWhile (fun c => c != '>') = [] :=
    List.dropWhile_eq_nil_iff.2 fun c member => bne_iff_ne.2 fun same => plain (same ▸ member)
  rw [skipTag_eq, passed]
  rfl

theorem readBogus_eq (text : List Char) :
    readBogus text = ([.comment (keptText (text.takeWhile fun c => c != '>'))], skipTag text) := by
  rw [readBogus, skipTag_eq, ← drop_takeWhile_length, List.drop_drop]

theorem readBogus_stops : Stops readBogus where
  closing front plain :=
    ⟨_, fun rest => by rw [readBogus_eq, (takeWhile_cut (by decide) front rest).1, skipTag_cut plain]⟩
  final text plain := by
    rw [readBogus_eq]
    exact skipTag_final plain

/-! ## Document types -/

theorem Stops.behindGaps {read : List Char → α × List Char} (stops : Stops read) :
    Stops fun text => read (skipGaps text) where
  closing front plain := by
    obtain ⟨value, reads⟩ := stops.closing (skipGaps front) (not_mem_dropWhile plain)
    exact ⟨value, fun rest => by rw [skipGaps_cut, reads]⟩
  final text plain := stops.final _ (not_mem_dropWhile plain)

theorem endDoctype_stops (doctype : Doctype) (matters : Bool) : Stops (endDoctype doctype matters) where
  closing front plain := by
    cases front with
    | nil => exact ⟨doctype, fun rest => rfl⟩
    | cons c front =>
        refine ⟨{ doctype with broken := matters }, fun rest => ?_⟩
        have other : c ≠ '>' := fun same => plain (same ▸ List.mem_cons_self)
        rw [List.cons_append, endDoctype, ← List.cons_append, skipTag_cut plain]
        all_goals simp [other]
  final text plain := by
    unfold endDoctype
    split
    · exact absurd List.mem_cons_self plain
    · rfl
    · exact skipTag_final plain

/-- What an identifier and the text behind it may look like before a closing bracket. -/
inductive IdentifierCut (front : List Char) : Prop
  | quoted (value : String) (behind : List Char) (plain : '>' ∉ behind)
      (reads : ∀ rest, readIdentifier (front ++ '>' :: rest) = .quoted value (behind ++ '>' :: rest))
  | cutOff (value : String) (reads : ∀ rest, readIdentifier (front ++ '>' :: rest) = .cutOff value rest)
  | absent (reads : ∀ rest, readIdentifier (front ++ '>' :: rest) = .absent)

/-- May the character stand in an identifier that opened with the quote? -/
def isQuoted (quote c : Char) : Bool :=
  c != quote && c != '>'

theorem readIdentifier_quote {quote : Char} (known : (quote == '"' || quote == '\'') = true) (text : List Char) :
    readIdentifier (quote :: text) =
      match text.dropWhile (isQuoted quote) with
      | c :: after =>
          if c == quote then .quoted (keptText (text.takeWhile (isQuoted quote))) after
          else .cutOff (keptText (text.takeWhile (isQuoted quote))) after
      | [] => .cutOff (keptText (text.takeWhile (isQuoted quote))) [] := by
  rw [readIdentifier, if_pos known, ← drop_takeWhile_length]
  rfl

theorem readIdentifier_other (other : (c == '"' || c == '\'') = false) (text : List Char) :
    readIdentifier (c :: text) = .absent :=
  if_neg (by rw [other]; exact Bool.false_ne_true)

theorem readIdentifier_cut (plain : '>' ∉ front) : IdentifierCut front := by
  match front with
  | [] => exact .absent fun rest => readIdentifier_other (by decide) rest
  | quote :: front =>
      cases known : quote == '"' || quote == '\'' with
      | false => exact .absent fun rest => readIdentifier_other known _
      | true =>
          obtain ⟨other, plain⟩ := List.ne_and_not_mem_of_not_mem_cons plain
          have stop : isQuoted quote '>' = false := by simp [isQuoted]
          have reads (rest : List Char) := readIdentifier_quote known (front ++ '>' :: rest)
          simp only [takeWhile_cut stop] at reads
          have inner : '>' ∉ front.dropWhile (isQuoted quote) := not_mem_dropWhile plain
          have head := List.head?_dropWhile_not (isQuoted quote) front
          generalize front.dropWhile (isQuoted quote) = behind at reads inner head
          match behind with
          | [] =>
              refine .cutOff (keptText (front.takeWhile (isQuoted quote))) fun rest => (reads rest).trans ?_
              exact if_neg (mt beq_iff_eq.1 other)
          | c :: behind =>
              -- What stops before the bracket is the quote.
              have same : c = quote := by
                have notBracket : c ≠ '>' := fun same => inner (same ▸ List.mem_cons_self)
                simpa [isQuoted, notBracket] using head
              refine .quoted (keptText (front.takeWhile (isQuoted quote))) behind (List.not_mem_of_not_mem_cons inner)
                fun rest => (reads rest).trans ?_
              exact if_pos (beq_iff_eq.2 same)

/-- Without a closing bracket there is none behind an identifier either. -/
theorem readIdentifier_final (plain : '>' ∉ text) :
    (∀ value rest, readIdentifier text = .quoted value rest → '>' ∉ rest) ∧
      ∀ value rest, readIdentifier text = .cutOff value rest → rest = [] := by
  match text with
  | [] => exact ⟨nofun, nofun⟩
  | quote :: text =>
      cases known : quote == '"' || quote == '\'' with
      | false =>
          rw [readIdentifier_other known]
          exact ⟨nofun, nofun⟩
      | true =>
          rw [readIdentifier_quote known]
          have inner : '>' ∉ text.dropWhile (isQuoted quote) := not_mem_dropWhile (List.not_mem_of_not_mem_cons plain)
          have head := List.head?_dropWhile_not (isQuoted quote) text
          generalize text.dropWhile (isQuoted quote) = behind at inner head
          match behind with
          | [] => exact ⟨nofun, fun value rest same => by cases same; rfl⟩
          | c :: behind =>
              have same : c = quote := by
                have notBracket : c ≠ '>' := fun same => inner (same ▸ List.mem_cons_self)
                simpa [isQuoted, notBracket] using head
              simp only [beq_iff_eq.2 same, if_true]
              exact ⟨fun value rest same => by cases same; exact List.not_mem_of_not_mem_cons inner, nofun⟩

theorem readSystem_stops (doctype : Doctype) : Stops (readSystem doctype) where
  closing front plain := by
    cases readIdentifier_cut plain with
    | quoted value behind inner reads =>
        have stops := (endDoctype_stops { doctype with systemId := some value } false).behindGaps
        obtain ⟨result, ends⟩ := stops.closing behind inner
        exact ⟨result, fun rest => by rw [readSystem, reads]; exact ends rest⟩
    | cutOff value reads => exact ⟨_, fun rest => by rw [readSystem, reads]⟩
    | absent reads => exact ⟨_, fun rest => by rw [readSystem, reads, skipTag_cut plain]⟩
  final text plain := by
    obtain ⟨quoted, cutOff⟩ := readIdentifier_final plain
    unfold readSystem
    split
    · next value rest reads => exact (endDoctype_stops _ false).behindGaps.final rest (quoted value rest reads)
    · next value rest reads => exact cutOff value rest reads
    · exact skipTag_final plain

theorem readPublic_stops (doctype : Doctype) : Stops (readPublic doctype) where
  closing front plain := by
    cases readIdentifier_cut plain with
    | quoted value behind inner reads =>
        have gapless : '>' ∉ skipGaps behind := not_mem_dropWhile inner
        obtain ⟨result, ends⟩ := (endDoctype_stops { doctype with publicId := some value } true).closing _ gapless
        obtain ⟨other, goesOn⟩ := (readSystem_stops { doctype with publicId := some value }).closing _ gapless
        cases readIdentifier_cut gapless with
        | quoted system after _ also =>
            exact ⟨other, fun rest => by rw [readPublic, reads]; simp only [skipGaps_cut, also, goesOn]⟩
        | cutOff system also =>
            exact ⟨other, fun rest => by rw [readPublic, reads]; simp only [skipGaps_cut, also, goesOn]⟩
        | absent also => exact ⟨result, fun rest => by rw [readPublic, reads]; simp only [skipGaps_cut, also, ends]⟩
    | cutOff value reads => exact ⟨_, fun rest => by rw [readPublic, reads]⟩
    | absent reads => exact ⟨_, fun rest => by rw [readPublic, reads, skipTag_cut plain]⟩
  final text plain := by
    obtain ⟨quoted, cutOff⟩ := readIdentifier_final plain
    unfold readPublic
    split
    · next value rest reads =>
        have gapless : '>' ∉ skipGaps rest := not_mem_dropWhile (quoted value rest reads)
        dsimp only
        split
        · exact (endDoctype_stops _ true).final _ gapless
        · exact (readSystem_stops _).final _ gapless
    · next value rest reads => exact cutOff value rest reads
    · exact skipTag_final plain

theorem drop_cut {n : Nat} (long : n ≤ front.length) (rest : List Char) :
    (front ++ '>' :: rest).drop n = front.drop n ++ '>' :: rest :=
  List.drop_append_of_le_length long

theorem length_le_of_startsWith {mark : String} (starts : startsWith mark text = true) : mark.length ≤ text.length := by
  rw [startsWith_eq, List.isPrefixOf_iff_prefix] at starts
  simpa only [List.length_map, String.length_toList] using starts.length_le

/-- May the character stand in the name of a document type? -/
def isDoctypePart (c : Char) : Bool :=
  !(isGap c || c == '>')

/-- A document type, from behind its name on. -/
def readNamedDoctype (name rest : List Char) : Doctype × List Char :=
  let doctype : Doctype := { name := nameText name, broken := name.isEmpty }
  if name.isEmpty then (doctype, skipTag rest)
  else if startsWith "public" rest then readPublic doctype (skipGaps (rest.drop 6))
  else if startsWith "system" rest then readSystem doctype (skipGaps (rest.drop 6))
  else endDoctype doctype true rest

theorem readDoctype_eq (text : List Char) : readDoctype text =
    readNamedDoctype ((skipGaps text).takeWhile isDoctypePart)
      (skipGaps ((skipGaps text).dropWhile isDoctypePart)) := by
  rw [← drop_takeWhile_length]
  rfl

theorem readNamedDoctype_stops (name : List Char) : Stops (readNamedDoctype name) where
  closing front plain := by
    unfold readNamedDoctype
    simp only [startsWith_cut '>' "public" (by decide), startsWith_cut '>' "system" (by decide)]
    have dropped : '>' ∉ front.drop 6 := fun member => plain (List.mem_of_mem_drop member)
    split
    · exact ⟨_, fun rest => by rw [skipTag_cut plain]⟩
    · split
      · next starts =>
          obtain ⟨value, reads⟩ := (readPublic_stops _).behindGaps.closing _ dropped
          exact ⟨value, fun rest => by rw [drop_cut (n := 6) (length_le_of_startsWith starts), reads]⟩
      · split
        · next starts =>
            obtain ⟨value, reads⟩ := (readSystem_stops _).behindGaps.closing _ dropped
            exact ⟨value, fun rest => by rw [drop_cut (n := 6) (length_le_of_startsWith starts), reads]⟩
        · exact (endDoctype_stops _ true).closing front plain
  final text plain := by
    have dropped : '>' ∉ text.drop 6 := fun member => plain (List.mem_of_mem_drop member)
    unfold readNamedDoctype
    dsimp only
    split
    · exact skipTag_final plain
    · split
      · exact (readPublic_stops _).behindGaps.final _ dropped
      · split
        · exact (readSystem_stops _).behindGaps.final _ dropped
        · exact (endDoctype_stops _ true).final text plain

theorem readDoctype_stops : Stops readDoctype where
  closing front plain := by
    obtain ⟨value, reads⟩ := (readNamedDoctype_stops ((skipGaps front).takeWhile isDoctypePart)).behindGaps.closing
      ((skipGaps front).dropWhile isDoctypePart) (not_mem_dropWhile (not_mem_dropWhile plain))
    refine ⟨value, fun rest => ?_⟩
    obtain ⟨name, behind⟩ := takeWhile_cut (p := isDoctypePart) (by decide) (skipGaps front) rest
    rw [readDoctype_eq, skipGaps_cut, name, behind, reads]
  final text plain := by
    rw [readDoctype_eq]
    exact (readNamedDoctype_stops _).behindGaps.final _ (not_mem_dropWhile (not_mem_dropWhile plain))

/-! ## Markup -/

theorem readDeclaration_comment (inForeign : Bool) (text : List Char) :
    readDeclaration inForeign ('-' :: '-' :: text) =
      ([.comment (keptText (readComment .opened text).1)], (readComment .opened text).2) := rfl

theorem readDeclaration_other (inForeign : Bool) (other : ¬['-', '-'] <+: text) : readDeclaration inForeign text =
    if startsWith "doctype" text then
      ([.doctype (readDoctype (text.drop 7)).1], (readDoctype (text.drop 7)).2)
    else if inForeign && "[CDATA[".toList.isPrefixOf text then
      (Token.ofText (readSection (text.drop 7)).1, (readSection (text.drop 7)).2)
    else readBogus text := by
  rw [readDeclaration]
  rintro rest rfl
  exact other ⟨rest, rfl⟩

theorem readDeclaration_section (text : List Char) : readDeclaration true ("[CDATA[".toList ++ text) =
    (Token.ofText (readSection text).1, (readSection text).2) := rfl

theorem readDeclaration_extends (inForeign : Bool) (text : List Char) : Extends (readDeclaration inForeign) text := by
  intro left
  by_cases comment : ['-', '-'] <+: text
  · obtain ⟨text, rfl⟩ := comment
    obtain ⟨front, source, reads⟩ := readComment_extends .opened text left
    exact ⟨'-' :: '-' :: front, congrArg (['-', '-'] ++ ·) source, fun other => by
      rw [List.cons_append, List.cons_append, readDeclaration_comment, reads]
      rfl⟩
  · rw [readDeclaration_other inForeign comment] at left ⊢
    split at left
    · next declared =>
        rw [if_pos declared]
        obtain ⟨front, source, reads⟩ := readDoctype_stops.extends (text.drop 7) left
        have long : 7 ≤ text.length := length_le_of_startsWith declared
        refine ⟨text.take 7 ++ front, ?_, fun other => ?_⟩
        · rw [List.append_assoc]
          exact (List.take_append_drop 7 text).symm.trans (congrArg _ source)
        · have first : (text.take 7 ++ front ++ '>' :: other).take 7 = text.take 7 := by simp [long]
          have behind : (text.take 7 ++ front ++ '>' :: other).drop 7 = front ++ '>' :: other := by simp [long]
          have starts : startsWith "doctype" (text.take 7 ++ front ++ '>' :: other) = true := by
            rw [startsWith, show "doctype".length = 7 from rfl, first]
            exact declared
          have noComment : ¬['-', '-'] <+: text.take 7 ++ front ++ '>' :: other := fun dashes =>
            comment ((first ▸ List.prefix_take_iff.2 ⟨dashes, by decide⟩ : ['-', '-'] <+: text.take 7).trans
              (List.take_prefix 7 text))
          rw [readDeclaration_other inForeign noComment, if_pos starts, behind, reads]
    · next undeclared =>
        rw [if_neg undeclared]
        split at left
        · next opens =>
            rw [if_pos opens]
            obtain ⟨foreign, starts⟩ := Bool.and_eq_true_iff.1 opens
            obtain ⟨text, rfl⟩ := List.isPrefixOf_iff_prefix.1 starts
            obtain ⟨front, source, reads⟩ := readSection_extends text left
            subst foreign
            exact ⟨"[CDATA[".toList ++ front, congrArg ("[CDATA[".toList ++ ·) source, fun other => by
              rw [List.append_assoc, readDeclaration_section, reads]
              rfl⟩
        · next closed =>
            rw [if_neg closed]
            by_cases member : '>' ∈ text
            · obtain ⟨front, rest, rfl, plain⟩ := List.eq_append_cons_of_mem member
              obtain ⟨value, reads⟩ := readBogus_stops.closing front plain
              refine ⟨front, by rw [reads], fun other => ?_⟩
              have noComment : ¬['-', '-'] <+: front ++ '>' :: other := by
                rw [← List.isPrefixOf_iff_prefix, isPrefixOf_cut (by decide)] at comment ⊢
                exact comment
              rw [startsWith_cut '>' _ (by decide)] at undeclared
              rw [isPrefixOf_cut (by decide)] at closed
              rw [readDeclaration_other inForeign noComment, startsWith_cut '>' _ (by decide),
                isPrefixOf_cut (by decide), if_neg undeclared, if_neg closed, reads, reads]
            · exact absurd (readBogus_stops.final text member) left

theorem readMarkup_start (inForeign : Bool) (alpha : c.isAlpha = true) (text : List Char) :
    readMarkup inForeign (c :: text) =
      ((readTag (c :: text)).map fun found => ([.start found.1], found.2)).getD ([], []) := by
  rw [readMarkup]
  · rw [if_pos alpha]
    cases readTag (c :: text) <;> rfl
  all_goals (intros; subst_vars; cases alpha)

theorem readMarkup_stop (inForeign : Bool) (alpha : c.isAlpha = true) (text : List Char) :
    readMarkup inForeign ('/' :: c :: text) =
      ((readTag (c :: text)).map fun found => ([.stop found.1.name], found.2)).getD ([], []) := by
  have other : (c == '>') = false := beq_eq_false_iff_ne.2 fun same => by subst same; cases alpha
  rw [readMarkup, if_neg (by rw [other]; exact Bool.false_ne_true), if_pos alpha]
  cases readTag (c :: text) <;> rfl

theorem readTag_extends (f : Tag → List Token) (text : List Char) :
    Extends (fun text => ((readTag text).map fun found => (f found.1, found.2)).getD ([], [])) text := by
  intro left
  cases read : readTag text with
  | none =>
      simp only [read] at left
      exact absurd rfl left
  | some found =>
      obtain ⟨tag, rest⟩ := found
      obtain ⟨front, source, reads⟩ := readTag_ends read
      exact ⟨front, by simpa [read] using source, fun other => by simp [read, reads]⟩

/-- What is read of a text that starts with a character is read of this character first. -/
theorem Extends.starts {read inner : List Char → α × List Char} (reaches : Extends inner (c :: text))
    (other : c ≠ '>') (goesOn : ∀ tail, read (c :: tail) = inner (c :: tail)) : Extends read (c :: text) := by
  intro left
  rw [goesOn] at left ⊢
  obtain ⟨front, source, reads⟩ := reaches left
  cases front with
  | nil => exact absurd (List.cons.inj source).1 other
  | cons d front =>
      obtain rfl := (List.cons.inj source).1
      exact ⟨c :: front, source, fun other => (goesOn _).trans (reads other)⟩

/-- Markup is read up to a closing bracket and in the same way whatever follows, unless all of the text is read. -/
theorem readMarkup_extends (inForeign : Bool) (starts : c.isAlpha = true ∨ c = '/' ∨ c = '!' ∨ c = '?')
    (text : List Char) : Extends (readMarkup inForeign) (c :: text) := by
  have notBracket {c : Char} (alpha : c.isAlpha = true) : c ≠ '>' := fun same => by subst same; cases alpha
  rcases starts with alpha | rfl | rfl | rfl
  · exact (readTag_extends (fun tag => [.start tag]) _).starts (notBracket alpha) (readMarkup_start inForeign alpha)
  · match text with
    | [] => exact fun left => absurd rfl left
    | c :: text =>
        by_cases closing : c = '>'
        · subst closing
          exact fun _ => ⟨['/'], rfl, fun other => rfl⟩
        · suffices behind : Extends (fun tail => readMarkup inForeign ('/' :: tail)) (c :: text) from
            .cons (fun _ => rfl) (fun _ _ same => same) behind
          by_cases alpha : c.isAlpha = true
          · exact (readTag_extends (fun tag => [.stop tag.name]) _).starts closing (readMarkup_stop inForeign alpha)
          · refine (readBogus_stops.extends _).starts closing fun tail => ?_
            rw [readMarkup, if_neg (mt beq_iff_eq.1 closing), if_neg alpha]
  · exact .cons (fun _ => rfl) (fun _ _ same => same) (readDeclaration_extends inForeign text)
  · exact (readBogus_stops.extends _).starts (by decide) fun _ => rfl

/-! ## Raw text -/

/-- The name is read, and a character follows that ends the name of a tag. -/
def startsName (name : String) (text : List Char) : Bool :=
  startsWith name text &&
    match text.drop name.length with
    | c :: _ => endsTagName c
    | [] => false

theorem startsName_cut (name : String) (plain : '<' ∉ name.toList) (front rest : List Char) :
    startsName name (front ++ '<' :: rest) = startsName name front := by
  unfold startsName
  rw [startsWith_cut '<' name plain]
  cases starts : startsWith name front with
  | false => rfl
  | true =>
      rw [List.drop_append_of_le_length (length_le_of_startsWith starts)]
      cases front.drop name.length <;> rfl

theorem startsEndTag_cut (name : String) (plain : '<' ∉ name.toList) (front rest : List Char) :
    startsEndTag name (front ++ '<' :: rest) = startsEndTag name front := by
  match front with
  | [] => rfl
  | c :: front =>
      by_cases slash : c = '/'
      · subst slash
        exact startsName_cut name plain front rest
      · simp [startsEndTag, slash]

theorem readRaw_cons (name : String) (c : Char) (text : List Char) : readRaw name (c :: text) =
    if c == '<' && startsEndTag name text then ([], c :: text) else prepend [c] (readRaw name text) :=
  rfl

theorem readRaw_parts (name : String) (text : List Char) : (readRaw name text).1 ++ (readRaw name text).2 = text := by
  induction text with
  | nil => rfl
  | cons c text hypothesis =>
      rw [readRaw_cons]
      split
      · rfl
      · exact congrArg (c :: ·) hypothesis

/-- Raw text ends with the text, or before an end tag. -/
theorem readRaw_stops (name : String) (text : List Char) : (readRaw name text).2 = [] ∨
    ∃ behind, (readRaw name text).2 = '<' :: behind ∧ startsEndTag name behind = true := by
  induction text with
  | nil => exact .inl rfl
  | cons c text hypothesis =>
      rw [readRaw_cons]
      split
      · next stop =>
          obtain ⟨bracket, ends⟩ := Bool.and_eq_true_iff.1 stop
          exact .inr ⟨text, by rw [beq_iff_eq.1 bracket], ends⟩
      · exact hypothesis

/-- Before any end tag, raw text is read in the same way. -/
theorem readRaw_same {name : String} (plain : '<' ∉ name.toList) {behind other : List Char}
    (read : readRaw name (front ++ '<' :: behind) = (front, '<' :: behind)) (ends : startsEndTag name other = true) :
    readRaw name (front ++ '<' :: other) = (front, '<' :: other) := by
  induction front with
  | nil =>
      rw [List.nil_append, readRaw_cons, ends]
      rfl
  | cons c front hypothesis =>
      rw [List.cons_append, readRaw_cons, startsEndTag_cut name plain] at read ⊢
      split at read
      · cases congrArg Prod.fst read
      · next goesOn =>
          rw [if_neg goesOn, hypothesis]
          · rfl
          · obtain ⟨first, rests⟩ := Prod.mk.inj read
            exact Prod.ext (List.cons.inj first).2 rests

theorem readScript_parts (cover : Hiding) (dashes : Nat) (text : List Char) :
    (readScript cover dashes text).1 ++ (readScript cover dashes text).2 = text := by
  fun_induction readScript cover dashes text <;> simp_all [prepend]

theorem readScript_stops (cover : Hiding) (dashes : Nat) (text : List Char) : (readScript cover dashes text).2 = [] ∨
    ∃ behind, (readScript cover dashes text).2 = '<' :: behind ∧ startsEndTag "script" behind = true := by
  fun_induction readScript cover dashes text <;> simp_all [prepend]

/-- Before any end tag, a script is read in the same way. -/
theorem readScript_same (cover : Hiding) (dashes : Nat) {behind other : List Char}
    (read : readScript cover dashes (front ++ '<' :: behind) = (front, '<' :: behind))
    (ends : startsEndTag "script" other = true) :
    readScript cover dashes (front ++ '<' :: other) = (front, '<' :: other) := by
  induction front generalizing cover dashes with
  | nil =>
      cases cover with
      | plain => simp [readScript, ends]
      | comment => simp [readScript, ends]
      | script =>
          -- An end tag in a hidden script does not end the text, so something would have been read.
          rw [List.nil_append, readScript, if_pos (beq_self_eq_true _)] at read
          split at read <;> cases congrArg Prod.fst read
  | cons c front hypothesis =>
      have tag (tail : List Char) := startsEndTag_cut "script" (by decide) front tail
      have script (tail : List Char) : startsScript (front ++ '<' :: tail) = startsScript front :=
        startsName_cut "script" (by decide) front tail
      have opening (tail : List Char) :
          "!--".toList.isPrefixOf (front ++ '<' :: tail) = "!--".toList.isPrefixOf front :=
        isPrefixOf_cut (by decide) front tail
      have goesOn {cover : Hiding} {dashes : Nat}
          (read : prepend [c] (readScript cover dashes (front ++ '<' :: behind)) = (c :: front, '<' :: behind)) :
          prepend [c] (readScript cover dashes (front ++ '<' :: other)) = (c :: front, '<' :: other) := by
        obtain ⟨first, rests⟩ := Prod.mk.inj read
        rw [hypothesis cover dashes (Prod.ext (List.cons.inj first).2 rests)]
        rfl
      rw [List.cons_append] at read ⊢
      unfold readScript at read ⊢
      simp only [tag, script, opening] at read ⊢
      split at read
      · next bracket =>
          rw [if_pos bracket]
          cases cover with
          | plain =>
              dsimp only at read ⊢
              split at read
              · cases congrArg Prod.fst read
              · next noTag =>
                  rw [if_neg noTag]
                  split at read
                  · next opens => rw [if_pos opens]; exact goesOn read
                  · next closed => rw [if_neg closed]; exact goesOn read
          | comment =>
              dsimp only at read ⊢
              split at read
              · cases congrArg Prod.fst read
              · next noTag =>
                  rw [if_neg noTag]
                  split at read
                  · next opens => rw [if_pos opens]; exact goesOn read
                  · next closed => rw [if_neg closed]; exact goesOn read
          | script =>
              dsimp only at read ⊢
              split at read
              · next closes => rw [if_pos closes]; exact goesOn read
              · next hidden => rw [if_neg hidden]; exact goesOn read
      · next other =>
          rw [if_neg other]
          split at read
          · next dash => rw [if_pos dash]; exact goesOn read
          · next other =>
              rw [if_neg other]
              split at read
              · next closing => rw [if_pos closing]; exact goesOn read
              · next other => rw [if_neg other]; exact goesOn read

end Markup
end HtmlTemplate
