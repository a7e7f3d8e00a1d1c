import HtmlTemplate.Proofs.Markup.Names
import HtmlTemplate.Proofs.Placement.RoundTrip
import HtmlTemplate.Proofs.Script.Enclosure
import HtmlTemplate.Proofs.Text.Bytes

/-!
# No stand-in is left in a tree

Stand-ins go through the markup with the text around them. Those in texts, in comments and in the values of
attributes give way to placeholders when the tree is made; those in names do not, since nothing but text can stand
in the place of a name. A tree is free of stand-ins if no name was written with one, as long as each stand-in that
is found in a text has the number of a placeholder.
-/

namespace HtmlTemplate

namespace StandIn

variable {text rest shown front after part digits : List Char} {c : Char} {count : Nat} {sources : List (List Char)}

/-! ## Texts without stand-ins -/

/-- No stand-in is anywhere in a text. -/
def Absent (text : List Char) : Prop :=
  ∀ rest, rest <:+ text → read? rest = none

theorem absent_nil : Absent [] := by
  intro rest suffix
  obtain rfl := List.suffix_nil.1 suffix
  rfl

theorem absent_cons (plain : read? (c :: text) = none) (absent : Absent text) : Absent (c :: text) := by
  intro rest suffix
  rcases List.suffix_cons_iff.1 suffix with rfl | later
  · exact plain
  · exact absent rest later

theorem read?_eq_none_of_append (plain : read? (front ++ after) = none) : read? front = none := by
  cases found : read? front with
  | none => rfl
  | some read =>
    obtain ⟨digits, rest⟩ := read
    cases plain.symm.trans (read?_append found after)

theorem Absent.of_part (absent : Absent text) (inside : part <:+: text) : Absent part := by
  obtain ⟨before, after, rfl⟩ := inside
  intro rest ⟨start, whole⟩
  refine read?_eq_none_of_append (absent (rest ++ after) ⟨before ++ start, ?_⟩)
  rw [← whole]
  simp only [List.append_assoc]

/-- A text in which stand-ins do not even open has none. -/
theorem absent_of_unopened (unopened : ¬opening <:+: text) : Absent text := by
  rintro rest ⟨before, rfl⟩
  cases found : read? rest with
  | none => rfl
  | some read =>
    obtain ⟨digits, behind⟩ := read
    refine absurd ⟨before, digits ++ (closing ++ behind), ?_⟩ unopened
    rw [(read?_eq_some_iff.1 found).1, List.append_assoc]

theorem absent_of_underscore_notMem (without : '_' ∉ text) : Absent text := by
  refine absent_of_unopened fun inside => without (inside.subset ?_)
  decide

/-- A character that is in no stand-in. -/
def Foreign (c : Char) : Prop :=
  c ∉ opening ∧ Text.isDigit c = false

instance (c : Char) : Decidable (Foreign c) :=
  inferInstanceAs (Decidable (_ ∧ _))

theorem Foreign.ne_underscore (foreign : Foreign c) : c ≠ '_' := by
  rintro rfl
  exact foreign.1 (by decide)

/-- A foreign character is in no stand-in. -/
theorem Foreign.notMem (foreign : Foreign c) (allDigits : digits.all Text.isDigit = true) :
    c ∉ opening ++ (digits ++ closing) := by
  intro member
  rcases List.mem_append.1 member with opens | member
  · exact foreign.1 opens
  · rcases List.mem_append.1 member with digit | closes
    · cases (List.all_eq_true.1 allDigits c digit).symm.trans foreign.2
    · exact foreign.1 (List.mem_of_mem_take (i := 2) closes)

/-- No stand-in goes over a foreign character. -/
theorem read?_eq_none_of_foreign (foreign : Foreign c) (plain : read? front = none) :
    read? (front ++ c :: after) = none := by
  cases found : read? (front ++ c :: after) with
  | none => rfl
  | some read =>
    obtain ⟨digits, rest⟩ := read
    obtain ⟨source, numbered, allDigits⟩ := read?_eq_some_iff.1 found
    have whole : front ++ c :: after = opening ++ (digits ++ closing) ++ rest := by
      rw [source]
      simp only [List.append_assoc]
    rcases List.append_eq_append_iff.1 whole with ⟨back, inside, starts⟩ | ⟨behind, outside, -⟩
    · cases back with
      | nil =>
        rw [List.append_nil] at inside
        cases plain.symm.trans (read?_eq_some_iff.2 ⟨by rw [← inside, List.append_nil], numbered, allDigits⟩)
      | cons d back =>
        obtain ⟨rfl, -⟩ := List.cons.inj starts
        refine absurd ?_ (foreign.notMem allDigits)
        rw [inside]
        exact List.mem_append_right _ List.mem_cons_self
    · have found : read? front = some (digits, behind) :=
        read?_eq_some_iff.2 ⟨by rw [outside]; simp only [List.append_assoc], numbered, allDigits⟩
      cases plain.symm.trans found

/-- Texts without stand-ins have none when a foreign character stands between them. -/
theorem Absent.append_cons (absent : Absent front) (foreign : Foreign c) (later : Absent after) :
    Absent (front ++ c :: after) := by
  induction front with
  | nil => exact absent_cons (read?_eq_none foreign.ne_underscore) later
  | cons d front hypothesis =>
    refine absent_cons ?_ (hypothesis (absent.of_part (List.suffix_cons d front).isInfix))
    exact read?_eq_none_of_foreign foreign (absent _ (List.suffix_refl _))

theorem foreign_dollar : Foreign '$' := by decide

theorem foreign_brace : Foreign '\x7d' := by decide

/-- Up to its next dollar, what a text is shown as stands in the text. -/
def Shown (text shown : List Char) : Prop :=
  ∀ run, '$' ∉ run → run <+: shown → run <+: text

theorem shown_dollar : Shown text ('$' :: shown) := by
  intro run without starts
  cases run with
  | nil => exact List.nil_prefix
  | cons c run =>
    obtain ⟨rfl, -⟩ := List.cons_prefix_cons.1 starts
    exact absurd List.mem_cons_self without

theorem Shown.cons (same : Shown text shown) (c : Char) : Shown (c :: text) (c :: shown) := by
  intro run without starts
  cases run with
  | nil => exact List.nil_prefix
  | cons d run =>
    obtain ⟨rfl, behind⟩ := List.cons_prefix_cons.1 starts
    exact List.cons_prefix_cons.2 ⟨rfl, same run (fun member => without (List.mem_cons_of_mem _ member)) behind⟩

/-- What is shown of a text that starts with no stand-in starts with none. -/
theorem Shown.read?_eq_none (same : Shown text shown) (plain : read? (c :: text) = none) : read? (c :: shown) = none := by
  cases found : read? (c :: shown) with
  | none => rfl
  | some read =>
    obtain ⟨digits, behind⟩ := read
    obtain ⟨source, numbered, allDigits⟩ := read?_eq_some_iff.1 found
    have whole : c :: shown = '_' :: (opening.drop 1 ++ (digits ++ closing)) ++ behind := by
      change _ = opening ++ (digits ++ closing) ++ behind
      rw [source]
      simp only [List.append_assoc]
    obtain ⟨rfl, tail⟩ := List.cons.inj whole
    obtain ⟨more, again⟩ := same (opening.drop 1 ++ (digits ++ closing))
      (fun member => foreign_dollar.notMem allDigits (List.mem_cons_of_mem '_' member)) ⟨behind, tail.symm⟩
    have found : read? ('_' :: text) = some (digits, more) := by
      refine read?_eq_some_iff.2 ⟨?_, numbered, allDigits⟩
      change _ :: text = '_' :: (opening.drop 1 ++ (digits ++ (closing ++ more)))
      rw [← again]
      simp only [List.append_assoc]
    cases plain.symm.trans found

/-! ## Texts whose stand-ins are known -/

/-- Each stand-in that is found in a text has a number below `count`. -/
inductive Known (count : Nat) : List Char → Prop
  | nil : Known count []
  | cons {c : Char} {rest : List Char} (plain : read? (c :: rest) = none) (later : Known count rest) :
      Known count (c :: rest)
  | standIn {text digits rest : List Char} {number : Nat} (found : read? text = some (digits, rest))
      (numbered : Text.number? digits = some number) (within : number < count) (later : Known count rest) :
      Known count text

theorem Known.ofNumber_append {number : Nat} (within : number < count) (later : Known count rest) :
    Known count (ofNumber number ++ rest) :=
  .standIn (read?_ofNumber number rest) (Text.number?_toString number) within later

theorem parts_nil : parts count [] = [] := by
  rw [parts]
  rfl

theorem parts_cons (plain : read? (c :: rest) = none) :
    parts count (c :: rest) = Part.consText [c] (parts count rest) := by
  rw [parts]
  split
  · next found => cases plain.symm.trans found
  · rfl

theorem parts_standIn {number : Nat} (found : read? text = some (digits, rest))
    (numbered : Text.number? digits = some number) (within : number < count) :
    parts count text = .standIn number :: parts count rest := by
  rw [parts]
  split
  · next other =>
    obtain ⟨rfl, rfl⟩ := Prod.mk.inj (Option.some.inj (found.symm.trans other))
    have counted : (Text.number? digits).filter (fun number => number < count) = some number :=
      Option.filter_eq_some_iff.2 ⟨numbered, by simpa using within⟩
    rw [counted]
  · next other => cases found.symm.trans other

/-- The texts that known stand-ins leave hold none, and a text in front of them starts the whole text. -/
theorem Known.absent_of_mem_parts (known : Known count text) :
    (∀ value, .text value ∈ parts count text → Absent value) ∧
      ∀ value others, parts count text = .text value :: others → value <+: text := by
  induction known with
  | nil =>
    rw [parts_nil]
    exact ⟨fun value member => absurd member List.not_mem_nil, fun value others impossible => by cases impossible⟩
  | standIn found numbered within later hypothesis =>
    rw [parts_standIn found numbered within]
    refine ⟨fun value member => ?_, fun value others impossible => by cases impossible⟩
    rcases List.mem_cons.1 member with impossible | below
    · cases impossible
    · exact hypothesis.1 value below
  | @cons c rest plain later hypothesis =>
    rw [parts_cons plain]
    have first : ∀ next, Absent next → next <+: rest → Absent (c :: next) ∧ c :: next <+: c :: rest := by
      rintro next absent ⟨after, rfl⟩
      rw [← List.cons_append] at plain
      exact ⟨absent_cons (read?_eq_none_of_append plain) absent, List.prefix_append _ after⟩
    have cases : ∃ next others, Part.consText [c] (parts count rest) = .text (c :: next) :: others ∧
        Absent next ∧ next <+: rest ∧ others ⊆ parts count rest := by
      match parts count rest, hypothesis with
      | [], _ => exact ⟨[], [], rfl, absent_nil, List.nil_prefix, List.Subset.refl _⟩
      | .standIn number :: others, _ => exact ⟨[], _, rfl, absent_nil, List.nil_prefix, List.Subset.refl _⟩
      | .text next :: others, hypothesis =>
        exact ⟨next, others, rfl, hypothesis.1 next List.mem_cons_self, hypothesis.2 next others rfl,
          List.subset_cons_self _ _⟩
    obtain ⟨next, others, shape, absent, starts, below⟩ := cases
    rw [shape]
    constructor
    · intro value member
      rcases List.mem_cons.1 member with same | other
      · cases same
        exact (first next absent starts).1
      · exact hypothesis.1 value (below other)
    · intro value more same
      cases same
      exact (first next absent starts).2

/-! ## Placeholders put back -/

theorem Known.shown_restore (dollars : ∀ source ∈ sources, source.head? = some '$')
    (known : Known sources.length text) : Shown text (restore sources text) := by
  induction known with
  | nil =>
    rw [restore_nil]
    exact fun run _ starts => starts
  | cons plain later hypothesis =>
    rw [restore_cons plain]
    exact hypothesis.cons _
  | standIn found numbered within later hypothesis =>
    rcases restore_cases sources found with ⟨number, source, -, there, replaced⟩ | ⟨unknown, -⟩
    · obtain ⟨others, rfl⟩ := List.head?_eq_some_iff.1 (dollars source (List.mem_of_getElem? there))
      rw [replaced]
      exact shown_dollar
    · exact absurd (unknown _ numbered) (Nat.not_le.2 within)

/-- The source of a placeholder that has no stand-in in it. -/
def Enclosed (source : List Char) : Prop :=
  ∃ inside, source = '$' :: (inside ++ ['\x7d']) ∧ Absent inside

/-- With the placeholders put back, a text whose stand-ins are known has none. -/
theorem Known.absent_restore (enclosed : ∀ source ∈ sources, Enclosed source) (known : Known sources.length text) :
    Absent (restore sources text) := by
  have dollars : ∀ source ∈ sources, source.head? = some '$' := by
    intro source member
    obtain ⟨inside, rfl, -⟩ := enclosed source member
    rfl
  induction known with
  | nil =>
    rw [restore_nil]
    exact absent_nil
  | cons plain later hypothesis =>
    rw [restore_cons plain]
    exact absent_cons ((later.shown_restore dollars).read?_eq_none plain) hypothesis
  | standIn found numbered within later hypothesis =>
    rcases restore_cases sources found with ⟨number, source, -, there, replaced⟩ | ⟨unknown, -⟩
    · obtain ⟨inside, rfl, absent⟩ := enclosed source (List.mem_of_getElem? there)
      rw [replaced, List.cons_append, List.append_assoc]
      exact absent_cons (read?_eq_none foreign_dollar.ne_underscore) (absent.append_cons foreign_brace hypothesis)
    · exact absurd (unknown _ numbered) (Nat.not_le.2 within)

theorem shown_unescape (text : List Char) : Shown text (Placeholder.unescape text) := by
  fun_induction Placeholder.unescape text with
  | case1 rest hypothesis => exact shown_dollar
  | case2 rest hypothesis => exact shown_dollar
  | case3 c rest _ _ hypothesis => exact hypothesis.cons c
  | case4 => exact fun run _ starts => starts

/-- Taking backslashes from dollars brings no stand-in about. -/
theorem Absent.unescape (absent : Absent text) : Absent (Placeholder.unescape text) := by
  fun_induction Placeholder.unescape text with
  | case1 rest hypothesis =>
    have later := hypothesis (absent.of_part (List.suffix_append ['\\', '$', '\x7b'] rest).isInfix)
    exact absent_cons (StandIn.read?_eq_none (by decide)) (absent_cons (StandIn.read?_eq_none (by decide)) later)
  | case2 rest hypothesis =>
    have later := hypothesis (absent.of_part (List.suffix_append ['\\', '$', '!', '\x7b'] rest).isInfix)
    exact absent_cons (StandIn.read?_eq_none (by decide))
      (absent_cons (StandIn.read?_eq_none (by decide)) (absent_cons (StandIn.read?_eq_none (by decide)) later))
  | case3 c rest _ _ hypothesis =>
    have later := hypothesis (absent.of_part (List.suffix_cons c rest).isInfix)
    exact absent_cons ((shown_unescape rest).read?_eq_none (absent _ (List.suffix_refl _))) later
  | case4 => exact absent_nil

end StandIn

/-! ## Pieces and values -/

namespace Placeholder

/-- A placeholder is written between a dollar and a brace, with its code in between. -/
theorem shape_of_start {text rest : List Char} {placeholder : Placeholder}
    (found : start text = .piece (.code placeholder) rest) :
    ∃ inside, placeholder.source = '$' :: (inside ++ ['\x7d']) ∧ placeholder.code.toList <:+: inside := by
  unfold start at found
  split at found
  · next mark escape behind opened =>
    split at found
    · cases found
    · next inside after closed =>
      dsimp only at found
      split at found
      · cases found
      · obtain ⟨opens, marked⟩ : ∃ opens, mark = '$' :: opens := by
          unfold opening? at opened
          split at opened <;> cases opened
          · exact ⟨_, rfl⟩
          · exact ⟨_, rfl⟩
        cases found
        refine ⟨opens ++ inside, by rw [marked]; rfl, ?_⟩
        obtain ⟨lead, trail, source, -⟩ := Text.trim_source inside
        refine ⟨opens ++ lead, trail, ?_⟩
        rw [String.toList_ofList]
        conv_rhs => rw [source]
        simp only [List.append_assoc]
  · split at found <;> cases found

theorem source_within_of_mem {text : List Char} {found : List Piece} {piece : Piece} (cut : pieces text = .ok found)
    (member : piece ∈ found) : piece.source <:+: text := by
  obtain ⟨before, behind, rfl⟩ := List.append_of_mem member
  have joined := flatMap_source cut
  rw [List.flatMap_append, List.flatMap_cons] at joined
  exact ⟨before.flatMap Piece.source, behind.flatMap Piece.source, by rw [← joined, List.append_assoc]⟩

end Placeholder

/-- The text of a segment, or its code. -/
def Segment.text : Segment → String
  | .static value => value
  | .code script _ => script

/-- A value whose source holds no stand-in has none in its segments. -/
theorem Value.absent_of_parse {raw : String} {value : Value} (parsed : Value.parse raw = .ok value)
    (absent : StandIn.Absent raw.toList) : ∀ segment ∈ value.segments, StandIn.Absent segment.text.toList := by
  obtain ⟨-, pieces, cut, read⟩ := pieces_of_parse parsed
  intro segment member
  rcases piece_of_mem_segmentsOf read member with ⟨source, among, rfl⟩ | ⟨placeholder, among, rfl, -⟩
  · rw [Segment.text, String.toList_ofList]
    exact (absent.of_part (Placeholder.source_within_of_mem cut among)).unescape
  · obtain ⟨inside, shape, code⟩ := Placeholder.shape_of_start (Placeholder.start_of_mem_pieces cut among [])
    have inner : inside <:+: placeholder.source := ⟨['$'], ['\x7d'], by rw [shape]; rfl⟩
    exact absent.of_part (code.trans (inner.trans (Placeholder.source_within_of_mem cut among)))

/-! ## Trees -/

/-- The texts in a kind of node. -/
def Kind.texts : Kind → List String
  | .element tag => [tag]
  | .customTag name renderer => [name, renderer]
  | .text value => [value]
  | .placeholder code _ => [code]
  | .branch test => test.toList
  | .iteration item index source => item :: source :: index.toList
  | .comment value _ => [value]
  | .doctype name => [name]
  | .document => []
  | .conditional => []

/-- The texts in an attribute: its name, and the source and the segments of its value. -/
def Attribute.texts (given : Attribute) : List String :=
  given.name :: given.value.raw :: given.value.segments.map Segment.text

/-- No stand-in is in a node of the tree or in an attribute of one. -/
structure Tree.FreeOfStandIns (tree : Tree) : Prop where
  kind : ∀ id, ∀ text ∈ (tree.kind id).texts, StandIn.Absent text.toList
  given : ∀ id, ∀ given ∈ (tree.node id).attributes, ∀ text ∈ given.texts, StandIn.Absent text.toList

namespace Template

/-- The tokens that are taken of the markup of a source, with stand-ins for its placeholders. -/
def tokens (pieces : List Piece) : List Markup.Token :=
  Markup.tokens (SelfClosing.expand (StandIn.hide 0 pieces))

theorem acceptsOwn_absent : Markup.AcceptsOwn fun name => StandIn.Absent name.toList := by
  have without : ∀ names : List String,
      names.all (fun name => !name.toByteArray.data.toList.contains '_'.toUInt8) = true →
        ∀ name ∈ names, StandIn.Absent name.toList := by
    intro names all name member
    refine StandIn.absent_of_underscore_notMem fun inside => ?_
    have none := List.all_eq_true.1 all name member
    have written : '_'.toUInt8 ∈ name.toByteArray.data.toList := Text.mem_toByteArray (by decide) inside
    simp [written] at none
  exact ⟨without _ (by decide), fun vocabulary => without _ (by cases vocabulary <;> decide), without _ (by decide)⟩

/-- In a source in which stand-ins do not even open, placeholders hold none. -/
theorem enclosed_of_mem_sites {source : List Char} {pieces : List Piece} {site : Site}
    (unopened : ¬StandIn.opening <:+: source) (cut : Placeholder.pieces source = .ok pieces)
    (known : site ∈ sites .first pieces) :
    StandIn.Enclosed site.placeholder.source ∧ StandIn.Absent site.placeholder.code.toList := by
  have among := code_mem_of_mem_sites known
  have absent := (StandIn.absent_of_unopened unopened).of_part (Placeholder.source_within_of_mem cut among)
  obtain ⟨inside, shape, code⟩ := Placeholder.shape_of_start (Placeholder.start_of_mem_pieces cut among [])
  have inner : inside <:+: site.placeholder.source := ⟨['$'], ['\x7d'], by rw [shape]; rfl⟩
  exact ⟨⟨inside, shape, absent.of_part inner⟩, absent.of_part (code.trans inner)⟩

variable {plan : Plan} {content : Markup.Content} {kind : Kind} {attributes : List Attribute}

/-- A text of the markup whose stand-ins are known holds none once the placeholders are put back. -/
theorem Plan.absent_restore (enclosed : ∀ site ∈ plan.sites, StandIn.Enclosed site.placeholder.source) {value : String}
    (known : StandIn.Known plan.sites.length value.toList) : StandIn.Absent (plan.restore value).toList := by
  rw [Plan.restore, String.toList_ofList]
  refine StandIn.Known.absent_restore (fun source member => ?_) (by rw [List.length_map]; exact known)
  obtain ⟨site, present, rfl⟩ := List.mem_map.1 member
  exact enclosed site present

/-- What is made of content without stand-ins in its names holds none, if those in its texts are known. -/
theorem Makes.absent (makes : Makes plan content kind attributes)
    (sound : ∀ site ∈ plan.sites,
      StandIn.Enclosed site.placeholder.source ∧ StandIn.Absent site.placeholder.code.toList)
    (named : ∀ name ∈ content.names, StandIn.Absent name.toList)
    (known : ∀ text ∈ content.texts, StandIn.Known plan.sites.length text.toList) :
    (∀ text ∈ kind.texts, StandIn.Absent text.toList) ∧
      ∀ given ∈ attributes, ∀ text ∈ given.texts, StandIn.Absent text.toList := by
  have restored : ∀ value ∈ content.texts, StandIn.Absent (plan.restore value).toList := fun value member =>
    plan.absent_restore (fun site present => (sound site present).1) (known value member)
  have single : ∀ {value : String}, StandIn.Absent value.toList → ∀ text ∈ [value], StandIn.Absent text.toList := by
    intro value absent text member
    rw [List.mem_singleton.1 member]
    exact absent
  have none : ∀ given ∈ ([] : List Attribute), ∀ text ∈ given.texts, StandIn.Absent text.toList :=
    fun given member => absurd member List.not_mem_nil
  cases makes with
  | doctype name => exact ⟨single (named name List.mem_cons_self), none⟩
  | comment value => exact ⟨single (restored value List.mem_cons_self), none⟩
  | @text value part among =>
    refine ⟨single ?_, none⟩
    rw [String.toList_ofList]
    exact ((known value List.mem_cons_self).absent_of_mem_parts.1 part among).unescape
  | placeholder present => exact ⟨single (sound _ present).2, none⟩
  | element written =>
    refine ⟨single (named _ List.mem_cons_self), fun given member text among => ?_⟩
    obtain ⟨source, present, name, parsed⟩ := written given member
    have value := restored source.2 (List.mem_map_of_mem present)
    rcases List.mem_cons.1 among with rfl | among
    · rw [name]
      exact named _ (List.mem_cons_of_mem _ (List.mem_map_of_mem present))
    · rcases List.mem_cons.1 among with rfl | among
      · rw [(Value.pieces_of_parse parsed).1]
        exact value
      · obtain ⟨segment, inside, rfl⟩ := List.mem_map.1 among
        exact Value.absent_of_parse parsed value segment inside

/-- The tree of a template holds no stand-in, if none is in the name of a tag, of an attribute or of a document type
that is read, and each that is found in a text, a comment or the value of an attribute has the number of a
placeholder. -/
theorem read_freeOfStandIns {file source : String} {root : NodeId} {tree : Tree} {pieces : List Piece}
    (unopened : ¬StandIn.opening <:+: source.toList) (cut : Placeholder.pieces source.toList = .ok pieces)
    (ran : read file source = .ok (root, tree))
    (named : ∀ token ∈ tokens pieces, token.Named fun name => StandIn.Absent name.toList)
    (known : ∀ content ∈ Markup.Content.deepAll (contents pieces), ∀ text ∈ content.texts,
      StandIn.Known (sites .first pieces).length text.toList) :
    tree.FreeOfStandIns := by
  have names := Markup.accepts_of_mem_names_read acceptsOwn_absent named
  have nodes : ∀ id, (∀ text ∈ (tree.kind id).texts, StandIn.Absent text.toList) ∧
      ∀ given ∈ (tree.node id).attributes, ∀ text ∈ given.texts, StandIn.Absent text.toList := by
    intro id
    rcases madeOf_of_read cut ran id with ⟨document, none⟩ | ⟨content, among, makes⟩
    · rw [document, none]
      exact ⟨fun text member => absurd member List.not_mem_nil, fun given member => absurd member List.not_mem_nil⟩
    · exact makes.absent (fun site => enclosed_of_mem_sites unopened cut) (names content among) (known content among)
  exact ⟨fun id => (nodes id).1, fun id => (nodes id).2⟩

/-- A link with a placeholder in its address and one in its text, and a comment. -/
theorem read_freeOfStandIns_link :
    let source := "<a href=\"/$\x7bpage\x7d\">$\x7btitle\x7d</a><!-- $!\x7bnote\x7d-->"
    ∃ pieces root tree, ¬StandIn.opening <:+: source.toList ∧ Placeholder.pieces source.toList = .ok pieces ∧
      read "page" source = .ok (root, tree) ∧
      (∀ token ∈ tokens pieces, token.Named fun name => StandIn.Absent name.toList) ∧
      (∀ content ∈ Markup.Content.deepAll (contents pieces), ∀ text ∈ content.texts,
        StandIn.Known (sites .first pieces).length text.toList) ∧
      tree.FreeOfStandIns := by
  intro source
  have unopened : ¬StandIn.opening <:+: source.toList := by decide
  have letters : source.toList = _ := String.toList_ofList
  have ends : (read "page" source).isOk = true := by
    rw [read, letters]
    decide +kernel
  have written : (Placeholder.pieces source.toList).toOption.map (fun pieces =>
      ((sites .first pieces).length, (Markup.Content.deepAll (contents pieces)).flatMap Markup.Content.texts)) =
        some (3, ["/__tpl_expr_0__", "__tpl_expr_1__", " __tpl_expr_2__"]) := by
    rw [letters]
    decide +kernel
  have taken : (Placeholder.pieces source.toList).toOption.map tokens =
      some [.start { name := "a", attributes := .one "href" "/__tpl_expr_0__" }, .text "__tpl_expr_1__".toList,
        .stop "a", .comment " __tpl_expr_2__", .done] := by
    rw [letters]
    decide +kernel
  cases cut : Placeholder.pieces source.toList with
  | error failed =>
    rw [cut] at written
    cases written
  | ok pieces =>
    cases ran : read "page" source with
    | error fault =>
      rw [ran] at ends
      cases ends
    | ok result =>
      obtain ⟨root, tree⟩ := result
      rw [cut] at written taken
      obtain ⟨three, texts⟩ := Prod.mk.inj (Option.some.inj written)
      have tokensOf : tokens pieces = _ := Option.some.inj taken
      have named : ∀ token ∈ tokens pieces, token.Named fun name => StandIn.Absent name.toList := by
        rw [tokensOf]
        have link : Markup.Tag.Named (fun name => StandIn.Absent name.toList)
            { name := "a", attributes := .one "href" "/__tpl_expr_0__" } := by
          refine ⟨StandIn.absent_of_underscore_notMem (by decide), fun given member => ?_⟩
          rw [List.mem_singleton.1 member]
          exact StandIn.absent_of_underscore_notMem (by decide)
        simp only [List.forall_mem_cons]
        exact ⟨link, trivial, trivial, trivial, trivial, fun token member => absurd member List.not_mem_nil⟩
      have known : ∀ content ∈ Markup.Content.deepAll (contents pieces), ∀ text ∈ content.texts,
          StandIn.Known (sites .first pieces).length text.toList := by
        intro content among text inside
        have member := List.mem_flatMap.2 ⟨content, among, inside⟩
        rw [texts] at member
        rw [three]
        have address : StandIn.Known 3 ('/' :: (StandIn.ofNumber 0 ++ [])) :=
          .cons (by decide) (.ofNumber_append (by decide) .nil)
        have title : StandIn.Known 3 (StandIn.ofNumber 1 ++ []) := .ofNumber_append (by decide) .nil
        have note : StandIn.Known 3 (' ' :: (StandIn.ofNumber 2 ++ [])) :=
          .cons (by decide) (.ofNumber_append (by decide) .nil)
        simp only [List.mem_cons, List.not_mem_nil, or_false] at member
        rcases member with rfl | rfl | rfl
        · exact address
        · exact title
        · exact note
      exact ⟨pieces, root, tree, unopened, rfl, rfl, named, known, read_freeOfStandIns unopened cut ran named known⟩

/-- A document type keeps the stand-in for a placeholder in its name. -/
theorem read_doctype_standIn :
    let source := "<!DOCTYPE $\x7bx\x7d>"
    ¬StandIn.opening <:+: source.toList ∧
      ∃ root tree id, read "page" source = .ok (root, tree) ∧ tree.kind id = .doctype "__tpl_expr_0__" ∧
        ¬StandIn.Absent "__tpl_expr_0__".toList := by
  intro source
  have letters : source.toList = _ := String.toList_ofList
  have kind : (read "page" source).toOption.map (fun result => result.2.kind ⟨1⟩) = some (.doctype "__tpl_expr_0__") := by
    rw [read, letters]
    decide +kernel
  have holds : ¬StandIn.Absent "__tpl_expr_0__".toList := by
    intro absent
    have none := absent _ (List.suffix_refl _)
    revert none
    decide
  refine ⟨by decide +kernel, ?_⟩
  cases ran : read "page" source with
  | error fault =>
    rw [ran] at kind
    cases kind
  | ok result =>
    rw [ran] at kind
    exact ⟨result.1, result.2, ⟨1⟩, rfl, Option.some.inj kind, holds⟩

end Template

end HtmlTemplate
