import HtmlTemplate.Proofs.Placement.Absence

/-!
# Elements around a fragment

Markup is read as a whole document: there is an `<html>` around it, with a `<head>` and a `<body>`. Those of which the
start tags are not in the source are left out of the tree, so that a fragment stays one. This module says exactly which
elements are left out. Whether a source writes them is found out by searching its text, so that what looks like such a
tag in a comment, in the value of an attribute or in raw text keeps them.
-/

namespace HtmlTemplate

/-! ## Tags in a tree -/

/-- The tag of an element. -/
def Kind.element? : Kind → Option String
  | .element tag => some tag
  | _ => none

theorem Kind.element?_eq_some_iff {kind : Kind} {tag : String} : kind.element? = some tag ↔ kind = .element tag := by
  cases kind <;> simp [element?]

/-- The tags of the elements in a tree, in the order in which they were made. -/
def Tree.tags (tree : Tree) : List String :=
  tree.nodes.filterMap fun node => node.kind.element?

/-- The elements in a tree with the places where they stand, in the same order. -/
def Tree.spots (tree : Tree) : List (String × Position) :=
  tree.nodes.filterMap fun node => node.kind.element?.map fun tag => (tag, node.position)

namespace Tree

theorem mem_tags_iff {tree : Tree} {tag : String} : tag ∈ tree.tags ↔ ∃ id, tree.kind id = .element tag := by
  rw [tags, List.mem_filterMap]
  constructor
  · rintro ⟨node, member, found⟩
    obtain ⟨index, bound, rfl⟩ := List.mem_iff_getElem.1 member
    refine ⟨⟨index⟩, ?_⟩
    rw [Tree.kind, Tree.node, List.getD_eq_getElem?_getD, List.getElem?_eq_getElem bound, Option.getD_some]
    exact Kind.element?_eq_some_iff.1 found
  · rintro ⟨id, kind⟩
    have present : id.index < tree.nodes.length := by
      by_contra absent
      rw [kind_of_not_has absent] at kind
      cases kind
    refine ⟨tree.nodes[id.index], List.getElem_mem present, ?_⟩
    rw [Tree.kind, Tree.node, List.getD_eq_getElem?_getD, List.getElem?_eq_getElem present, Option.getD_some] at kind
    exact Kind.element?_eq_some_iff.2 kind

theorem map_spots (tree : Tree) : tree.spots.map Prod.fst = tree.tags := by
  rw [spots, tags, List.map_filterMap]
  refine List.filterMap_congr fun node _ => ?_
  cases node.kind.element? <;> rfl

theorem spots_update {tree : Tree} {id : NodeId} {change : Node → Node}
    (keeps : ∀ node, (change node).kind = node.kind ∧ (change node).position = node.position) :
    (tree.update id change).spots = tree.spots := by
  unfold spots update
  generalize tree.nodes = nodes
  generalize id.index = index
  induction nodes generalizing index with
  | nil => cases index <;> rfl
  | cons node nodes hypothesis =>
      cases index with
      | zero =>
          rw [List.modify_zero_cons, List.filterMap_cons, List.filterMap_cons, (keeps node).1, (keeps node).2]
      | succ index => rw [List.modify_succ_cons, List.filterMap_cons, List.filterMap_cons, hypothesis]

theorem spots_push (tree : Tree) (node : Node) :
    (tree.push node).2.spots = tree.spots ++ (node.kind.element?.map fun tag => (tag, node.position)).toList := by
  unfold spots push
  rw [List.filterMap_append]
  cases found : node.kind.element? <;> simp [found]

end Tree

/-! ## Searching for start tags -/

/-- The tag of an element. -/
def Markup.Content.element? : Markup.Content → Option String
  | .element tag _ _ => some tag
  | _ => none

open HtmlTemplate.Tree

namespace Template

open Markup (Content)

variable {α β : Type} {plan : Plan} {text : List Char} {ahead later : List Mark} {front back tags : List String} {tag : String}

/-- Where the start tag of an element is found, and the characters in which the next one is looked for. -/
def seek (tag : String) (ahead : List Mark) : Option Position × List Mark :=
  match findTag? ('<' :: tag.toLower.toList) ahead with
  | some (position, rest) => (some position, rest)
  | none => (none, ahead)

/-- The characters in which start tags are looked for behind the elements with these tags. -/
def seekAll (tags : List String) (ahead : List Mark) : List Mark :=
  tags.foldl (fun ahead tag => (seek tag ahead).2) ahead

/-- Elements with these tags, each with the place where its start tag is found. -/
def placed : List String → List Mark → List (String × Option Position)
  | [], _ => []
  | tag :: tags, ahead => (tag, (seek tag ahead).1) :: placed tags (seek tag ahead).2

/-- Is an element left out? Its tag has to be one that need not be written, and not to be found. -/
def Plan.leavesOut (plan : Plan) (element : String × Option Position) : Bool :=
  impliedTags.contains element.1 && plan.rootless && element.2.isNone

theorem seekAll_append (front back : List String) (ahead : List Mark) :
    seekAll (front ++ back) ahead = seekAll back (seekAll front ahead) :=
  List.foldl_append

theorem placed_append (front back : List String) (ahead : List Mark) :
    placed (front ++ back) ahead = placed front ahead ++ placed back (seekAll front ahead) := by
  induction front generalizing ahead with
  | nil => rfl
  | cons tag front hypothesis => exact congrArg (_ :: ·) (hypothesis _)

theorem suffix_of_findTag? {position : Position} (found : findTag? text ahead = some (position, later)) : later <:+ ahead := by
  induction ahead with
  | nil => cases found
  | cons mark ahead hypothesis =>
      rw [findTag?] at found
      split at found
      · obtain ⟨-, rfl⟩ := Prod.mk.inj (Option.some.inj found)
        exact List.suffix_cons mark ahead
      · exact (hypothesis found).trans (List.suffix_cons mark ahead)

theorem suffix_seek (tag : String) (ahead : List Mark) : (seek tag ahead).2 <:+ ahead := by
  unfold seek
  cases found : findTag? ('<' :: tag.toLower.toList) ahead with
  | none => exact List.suffix_refl ahead
  | some read => exact suffix_of_findTag? found

theorem findTag?_eq_none_iff :
    findTag? text ahead = none ↔ ∀ mark rest, mark :: rest <:+ ahead → startsWithTag text (mark :: rest) = false := by
  induction ahead with
  | nil => exact iff_of_true rfl fun mark rest suffix => absurd (List.suffix_nil.1 suffix) (List.cons_ne_nil mark rest)
  | cons mark ahead hypothesis =>
      rw [findTag?]
      constructor
      · intro none first rest suffix
        split at none
        · cases none
        · next other =>
            rcases List.suffix_cons_iff.1 suffix with same | further
            · rw [same]
              exact Bool.eq_false_iff.2 other
            · exact hypothesis.1 none first rest further
      · intro never
        rw [if_neg (Bool.eq_false_iff.1 (never mark ahead (List.suffix_refl _)))]
        exact hypothesis.2 fun first rest suffix => never first rest (suffix.trans (List.suffix_cons mark ahead))

/-- What is not found is not found further behind. -/
theorem findTag?_of_suffix (absent : findTag? text ahead = none) (behind : later <:+ ahead) :
    findTag? text later = none :=
  findTag?_eq_none_iff.2 fun mark rest suffix => findTag?_eq_none_iff.1 absent mark rest (suffix.trans behind)

theorem placed_of_findTag? (absent : findTag? ('<' :: tag.toLower.toList) ahead = none) {place : Option Position}
    (member : (tag, place) ∈ placed tags ahead) : place = none := by
  induction tags generalizing ahead with
  | nil => cases member
  | cons name tags hypothesis =>
      rcases List.mem_cons.1 member with same | further
      · obtain ⟨rfl, rfl⟩ := Prod.mk.inj same
        rw [seek, absent]
      · exact hypothesis (findTag?_of_suffix absent (suffix_seek name ahead)) further

/-! ## Elements that are made -/

/-- The element stands where its start tag is found, if it is found. -/
def Stands (spot : String × Position) (element : String × Option Position) : Prop :=
  spot.1 = element.1 ∧ ∀ place, element.2 = some place → spot.2 = place

theorem map_of_stands {spots : List (String × Position)} {elements : List (String × Option Position)}
    (stand : List.Forall₂ Stands spots elements) : spots.map Prod.fst = elements.map Prod.fst := by
  induction stand with
  | nil => rfl
  | cons first _ hypothesis => rw [List.map_cons, List.map_cons, first.1, hypothesis]

/-- Elements with these tags have been looked for, and those that are not left out have been made where they were
found. -/
structure Grown (plan : Plan) (tags : List String) (before after : Growth) : Prop where
  ahead : after.ahead = seekAll tags before.ahead
  made : ∃ made, after.tree.spots = before.tree.spots ++ made ∧
    List.Forall₂ Stands made ((placed tags before.ahead).filter fun element => !plan.leavesOut element)

theorem Grown.refl (growth : Growth) : Grown plan [] growth growth :=
  ⟨rfl, [], (List.append_nil _).symm, .nil⟩

theorem Grown.trans {before between after : Growth} (first : Grown plan front before between)
    (second : Grown plan back between after) : Grown plan (front ++ back) before after := by
  obtain ⟨begun, spots, stand⟩ := first.made
  obtain ⟨more, others, standToo⟩ := second.made
  refine ⟨by rw [second.ahead, first.ahead, seekAll_append], begun ++ more, ?_, ?_⟩
  · rw [others, spots, List.append_assoc]
  · rw [placed_append, List.filter_append]
    exact List.rel_append stand (first.ahead ▸ standToo)

namespace Grow

/-- The elements that a step looks for, and makes if it succeeds. -/
def Makes (plan : Plan) (tags : List String) (work : Grow α) : Prop :=
  ∀ growth value after, work growth = .ok (value, after) → Grown plan tags growth after

theorem makes_pure (value : α) : Makes plan [] (pure value : Grow α) := by
  intro growth _ _ ran
  cases ran
  exact .refl growth

theorem Makes.bind {work : Grow α} {next : α → Grow β} (begins : Makes plan front work)
    (goesOn : ∀ value, Makes plan back (next value)) : Makes plan (front ++ back) (work >>= next) := by
  intro growth value after ran
  obtain ⟨first, between, began, rest⟩ := bind_eq_ok ran
  exact (begins growth first between began).trans (goesOn first between value after rest)

theorem locate_apply (tag : String) (growth : Growth) :
    locate tag growth = .ok ((seek tag growth.ahead).1, { growth with ahead := (seek tag growth.ahead).2 }) := by
  change (match findTag? ('<' :: tag.toLower.toList) growth.ahead with
    | some (position, ahead) => do
        set { growth with ahead }
        return some position
    | none => return none : Grow (Option Position)) growth = _
  unfold seek
  cases sought : findTag? ('<' :: tag.toLower.toList) growth.ahead <;> rfl

theorem locate_eq_ok {found : Option Position} {growth after : Growth} (ran : locate tag growth = .ok (found, after)) :
    found = (seek tag growth.ahead).1 ∧ after = { growth with ahead := (seek tag growth.ahead).2 } := by
  rw [locate_apply] at ran
  cases ran
  exact ⟨rfl, rfl⟩

/-- A node that is added is one more, and the others keep their tags and their places. -/
theorem spots_of_add {parent id : NodeId} {position : Position} {kind : Kind} {attributes : List (String × String)}
    {growth after : Growth} (ran : add parent position kind attributes growth = .ok (id, after)) :
    after.ahead = growth.ahead ∧
      after.tree.spots = growth.tree.spots ++ (kind.element?.map fun tag => (tag, position)).toList := by
  obtain ⟨made, created, appended, ahead⟩ := add_eq_ok ran
  obtain ⟨read, -, -, -, -, -, rfl⟩ := create_eq_ok_iff.1 created
  refine ⟨ahead, ?_⟩
  rw [append_eq appended, setChildren, spots_update, setParent, spots_update]
  · exact spots_push _ _
  · exact fun _ => ⟨rfl, rfl⟩
  · exact fun _ => ⟨rfl, rfl⟩

theorem makes_addUntagged {parent : NodeId} {position : Position} {kind : Kind} (untagged : kind.element? = none) :
    Makes plan [] (do let _ ← add parent position kind []) := by
  intro growth _ after ran
  obtain ⟨id, between, added, rest⟩ := bind_eq_ok ran
  cases rest
  obtain ⟨ahead, made⟩ := spots_of_add added
  exact ⟨ahead, [], by rw [made, untagged]; rfl, .nil⟩

theorem makes_addParts (parent : NodeId) (position : Position) (parts : List StandIn.Part) :
    Makes plan [] (addParts plan parent position parts) := by
  induction parts with
  | nil => exact makes_pure ()
  | cons part parts hypothesis =>
      cases part with
      | text value => exact (makes_addUntagged rfl).bind fun _ => hypothesis
      | standIn number =>
          unfold addParts
          split
          · next site found =>
              refine (?_ : Makes plan [] (addPlaceholder parent site)).bind fun _ => hypothesis
              unfold addPlaceholder
              dsimp only
              cases Code.check site.placeholder.code with
              | error fault => exact fun _ _ _ ran => by cases ran
              | ok done => exact makes_addUntagged rfl
          · exact (makes_pure ()).bind fun _ => hypothesis

end Grow

theorem Grown.leaveOut {growth : Growth} (left : plan.leavesOut (tag, (seek tag growth.ahead).1) = true) :
    Grown plan [tag] growth { growth with ahead := (seek tag growth.ahead).2 } := by
  refine ⟨rfl, [], (List.append_nil _).symm, ?_⟩
  rw [placed, placed, List.filter_cons, left]
  exact .nil

theorem Grown.make {growth after : Growth} {parent id : NodeId} {position : Position}
    {attributes : List (String × String)} (kept : plan.leavesOut (tag, (seek tag growth.ahead).1) = false)
    (stands : ∀ place, (seek tag growth.ahead).1 = some place → position = place)
    (added : Grow.add parent position (.element tag) attributes { growth with ahead := (seek tag growth.ahead).2 } =
      .ok (id, after)) : Grown plan [tag] growth after := by
  obtain ⟨ahead, made⟩ := Grow.spots_of_add added
  refine ⟨ahead, [(tag, position)], made, ?_⟩
  rw [placed, placed, List.filter_cons, kept]
  exact .cons ⟨rfl, stands⟩ .nil

mutual

/-- The elements that are made for a piece of content. The induction is on the content. -/
theorem makes_grow : ∀ (content : Content) (parent : NodeId) (position : Position),
    Grow.Makes plan (content.deep.filterMap Content.element?) (grow plan parent position content)
  | .doctype name, parent, position => by
      rw [grow]
      exact Grow.makes_addUntagged rfl
  | .text value, parent, position => by
      rw [grow]
      exact Grow.makes_addParts parent position _
  | .comment value, parent, position => by
      rw [grow]
      exact Grow.makes_addUntagged rfl
  | .element tag attributes children, parent, position => by
      rw [grow, Content.deep]
      intro growth value after ran
      obtain ⟨found, sought, looked, ran⟩ := Grow.bind_eq_ok ran
      obtain ⟨rfl, rfl⟩ := Grow.locate_eq_ok looked
      cases left : plan.leavesOut (tag, (seek tag growth.ahead).1) with
      | true =>
          unfold Plan.leavesOut at left
          rw [if_pos left] at ran
          exact (Grown.leaveOut left).trans (makes_growAll children parent position _ value after ran)
      | false =>
          unfold Plan.leavesOut at left
          rw [if_neg (Bool.eq_false_iff.1 left)] at ran
          obtain ⟨id, made, added, ran⟩ := Grow.bind_eq_ok ran
          have stands (place : Position) (found : (seek tag growth.ahead).1 = some place) :
              (seek tag growth.ahead).1.getD position = place := by rw [found, Option.getD_some]
          exact (Grown.make left stands added).trans (makes_growAll children id _ _ value after ran)

/-- The elements that are made for pieces of content. -/
theorem makes_growAll : ∀ (contents : List Content) (parent : NodeId) (position : Position),
    Grow.Makes plan ((Content.deepAll contents).filterMap Content.element?) (growAll plan parent position contents)
  | [], parent, position => by
      rw [growAll]
      exact Grow.makes_pure ()
  | content :: contents, parent, position => by
      rw [growAll, Content.deepAll, List.filterMap_append]
      exact (makes_grow content parent position).bind fun _ => makes_growAll contents parent position

end

/-! ## What the source says -/

theorem holds_eq_true_iff {part text : List Char} : holds part text = true ↔ part <:+: text := by
  induction text with
  | nil => rw [holds, List.isEmpty_iff, List.infix_nil]
  | cons c text hypothesis =>
      rw [holds, Bool.or_eq_true, List.isPrefixOf_iff_prefix, hypothesis, List.infix_cons_iff]

/-- The mark shows a character, or blanks it out. -/
def Mark.Shows (mark : Mark) (c : Char) : Prop :=
  mark.character = c ∨ mark.character = ' '

theorem forall₂_marks (position : Position) (source : List Char) :
    List.Forall₂ (fun mark c => mark.character = c) (marks position source) source := by
  induction source generalizing position with
  | nil => exact .nil
  | cons c source hypothesis => exact .cons rfl (hypothesis _)

/-- The characters among which tags are looked for are those of the source in lower case, unless they are blank. -/
theorem shows_tagMarks (position : Position) (pieces : List Piece) :
    List.Forall₂ Mark.Shows (tagMarks position pieces) ((pieces.flatMap Piece.source).map Char.toLower) := by
  induction pieces generalizing position with
  | nil => exact .nil
  | cons piece pieces hypothesis =>
      rw [List.flatMap_cons, List.map_append]
      cases piece with
      | text source =>
          refine List.rel_append ?_ (hypothesis _)
          rw [List.forall₂_map_left_iff, List.forall₂_map_right_iff]
          exact (forall₂_marks position source).imp fun mark c same => .inl (congrArg Char.toLower same)
      | code placeholder =>
          refine List.rel_append ?_ (hypothesis _)
          rw [List.forall₂_map_left_iff, List.forall₂_map_right_iff]
          exact (forall₂_marks position placeholder.source).imp fun mark c same => .inr rfl

theorem prefix_of_shows {shown : List Char} (shows : List.Forall₂ Mark.Shows ahead shown) (solid : ' ' ∉ text)
    (starts : text <+: ahead.map Mark.character) : text <+: shown := by
  induction shows generalizing text with
  | nil => exact starts
  | @cons mark c ahead shown same rest hypothesis =>
      cases text with
      | nil => exact List.nil_prefix
      | cons d text =>
          rw [List.map_cons, List.cons_prefix_cons] at starts
          obtain ⟨rfl, onward⟩ := starts
          rw [List.mem_cons, not_or] at solid
          rcases same with rfl | blank
          · exact List.cons_prefix_cons.2 ⟨rfl, hypothesis solid.2 onward⟩
          · exact absurd blank.symm solid.1

/-- A start tag is found only if the text that it starts with is in the source. -/
theorem findTag?_of_shows {shown : List Char} (shows : List.Forall₂ Mark.Shows ahead shown) (solid : ' ' ∉ text)
    (absent : ¬text <:+: shown) : findTag? text ahead = none := by
  induction shows with
  | nil => rfl
  | @cons mark c ahead shown same rest hypothesis =>
      rw [List.infix_cons_iff, not_or] at absent
      rw [findTag?, if_neg, hypothesis absent.2]
      intro starts
      rw [startsWithTag, Bool.and_eq_true, List.isPrefixOf_iff_prefix, List.map_take] at starts
      exact absent.1 (prefix_of_shows (.cons same rest) solid (starts.1.trans (List.take_prefix _ _)))

/-! ## Templates -/

/-- The tags of the elements that the markup of a source is read as. -/
def elements (pieces : List Piece) : List String :=
  (Content.deepAll (contents pieces)).filterMap Content.element?

variable {file source : String} {root : NodeId} {tree : Tree} {pieces : List Piece}

/-- The elements in the tree of a template are those of its markup that are not left out, and stand where their start
tags are found. -/
theorem stands_of_read (cut : Placeholder.pieces source.toList = .ok pieces) (ran : read file source = .ok (root, tree)) :
    List.Forall₂ Stands tree.spots ((placed (elements pieces) (tagMarks .first pieces)).filter fun element =>
      !(planOf source.toList pieces).leavesOut element) := by
  obtain ⟨after, grown, rfl⟩ := growAll_of_read cut ran
  obtain ⟨made, spots, stand⟩ := (makes_growAll (contents pieces) ⟨0⟩ .first _ _ _ grown).made
  rw [spots]
  exact stand

theorem tags_of_read (cut : Placeholder.pieces source.toList = .ok pieces) (ran : read file source = .ok (root, tree)) :
    tree.tags = ((placed (elements pieces) (tagMarks .first pieces)).filter fun element =>
      !(planOf source.toList pieces).leavesOut element).map Prod.fst := by
  rw [← map_spots, map_of_stands (stands_of_read cut ran)]

/-- An element that is left out: its tag is not found, and the source does not even look as if it had a root. -/
theorem leavesOut_planOf {place : Option Position} (implied : tag ∈ impliedTags) :
    (planOf source.toList pieces).leavesOut (tag, place) = true ↔
      place = none ∧ ¬"<html".toList <:+: source.toList.map Char.toLower := by
  rw [Plan.leavesOut, planOf, Bool.and_eq_true, Bool.and_eq_true, Bool.not_eq_true', ← Bool.not_eq_true,
    holds_eq_true_iff, Option.isNone_iff_eq_none, List.contains_iff_mem]
  exact ⟨fun left => ⟨left.2, left.1.2⟩, fun left => ⟨⟨implied, left.2⟩, left.1⟩⟩

theorem toLower_of_mem_impliedTags : ∀ tag ∈ impliedTags, tag.toLower = tag := by
  decide +kernel

/-- What is found of a root looks like one in the source. -/
theorem findTag?_root (cut : Placeholder.pieces source.toList = .ok pieces)
    (rootless : ¬"<html".toList <:+: source.toList.map Char.toLower) :
    findTag? ('<' :: "html".toList) (tagMarks .first pieces) = none := by
  refine findTag?_of_shows (shows_tagMarks .first pieces) (by decide) ?_
  rw [Placeholder.flatMap_source cut]
  exact rootless

/-- No element is put around a fragment if and only if no tag that the markup implies is found in the text of the source,
and nothing in it looks like the tag of a root. So it is when the text has no such tag, wherever it stands. -/
theorem read_unwrapped (cut : Placeholder.pieces source.toList = .ok pieces) (ran : read file source = .ok (root, tree)) :
    ((∀ id tag, tree.kind id = .element tag → tag ∉ impliedTags) ↔
      ∀ tag place, (tag, place) ∈ placed (elements pieces) (tagMarks .first pieces) → tag ∈ impliedTags →
        place = none ∧ ¬"<html".toList <:+: source.toList.map Char.toLower) ∧
      (¬"<html".toList <:+: source.toList.map Char.toLower →
        (∀ tag ∈ ["head", "body"], findTag? ('<' :: tag.toList) (tagMarks .first pieces) = none) →
        ∀ id tag, tree.kind id = .element tag → tag ∉ impliedTags) := by
  have exactly : (∀ id tag, tree.kind id = .element tag → tag ∉ impliedTags) ↔
      ∀ tag place, (tag, place) ∈ placed (elements pieces) (tagMarks .first pieces) → tag ∈ impliedTags →
        place = none ∧ ¬"<html".toList <:+: source.toList.map Char.toLower := by
    constructor
    · intro unwrapped tag place found implied
      rw [← leavesOut_planOf implied]
      by_contra kept
      have made : tag ∈ tree.tags := by
        rw [tags_of_read cut ran]
        exact List.mem_map.2 ⟨(tag, place), List.mem_filter.2 ⟨found, by simpa using kept⟩, rfl⟩
      obtain ⟨id, kind⟩ := mem_tags_iff.1 made
      exact unwrapped id tag kind implied
    · intro left id tag kind implied
      have made := mem_tags_iff.2 ⟨id, kind⟩
      rw [tags_of_read cut ran] at made
      obtain ⟨⟨tag, place⟩, found, rfl⟩ := List.mem_map.1 made
      obtain ⟨found, kept⟩ := List.mem_filter.1 found
      rw [(leavesOut_planOf implied).2 (left tag place found implied)] at kept
      cases kept
  refine ⟨exactly, fun rootless unwritten => exactly.2 fun tag place found implied => ⟨?_, rootless⟩⟩
  refine placed_of_findTag? ?_ found
  rw [toLower_of_mem_impliedTags tag implied]
  rcases List.mem_cons.1 implied with rfl | inside
  · exact findTag?_root cut rootless
  · exact unwritten tag inside

/-- The tag of a header starts like that of a head, and is none. -/
theorem read_unwrapped_header :
    let source := "<header>$\x7bname\x7d</header>"
    ∃ pieces root tree, Placeholder.pieces source.toList = .ok pieces ∧ read "page" source = .ok (root, tree) ∧
      tree.tags = ["header"] ∧ ∀ id tag, tree.kind id = .element tag → tag ∉ impliedTags := by
  intro source
  have letters : source.toList = _ := String.toList_ofList
  have unwritten : (Placeholder.pieces source.toList).toOption.map (fun pieces =>
      ["head", "body"].all fun tag => (findTag? ('<' :: tag.toList) (tagMarks .first pieces)).isNone) = some true := by
    rw [letters]
    decide +kernel
  have made : (read "page" source).toOption.map (fun result => result.2.tags) = some ["header"] := by
    rw [read, letters]
    decide +kernel
  cases cut : Placeholder.pieces source.toList with
  | error failed =>
    rw [cut] at unwritten
    cases unwritten
  | ok pieces =>
    cases ran : read "page" source with
    | error fault =>
      rw [ran] at made
      cases made
    | ok result =>
      obtain ⟨root, tree⟩ := result
      rw [cut] at unwritten
      rw [ran] at made
      have none := List.all_eq_true.1 (Option.some.inj unwritten)
      refine ⟨pieces, root, tree, rfl, rfl, Option.some.inj made, ?_⟩
      exact (read_unwrapped cut ran).2 (by decide +kernel) fun tag member => Option.isNone_iff_eq_none.1 (none tag member)

/-- The markup has a comment and a paragraph, and is wrapped for what the comment says. -/
theorem read_wrapped :
    let source := "<!-- <html> --><p></p>"
    ∃ pieces root tree id, Placeholder.pieces source.toList = .ok pieces ∧
      (∀ tag, .start tag ∈ tokens pieces → tag.name ∉ impliedTags) ∧
      read "page" source = .ok (root, tree) ∧ tree.kind id = .element "html" := by
  intro source
  have letters : source.toList = _ := String.toList_ofList
  have taken : (Placeholder.pieces source.toList).toOption.map tokens =
      some [.comment " <html> ", .start { name := "p" }, .stop "p", .done] := by
    rw [letters]
    decide +kernel
  have kind : (read "page" source).toOption.map (fun result => result.2.kind ⟨2⟩) = some (.element "html") := by
    rw [read, letters]
    decide +kernel
  cases cut : Placeholder.pieces source.toList with
  | error failed =>
    rw [cut] at taken
    cases taken
  | ok pieces =>
    cases ran : read "page" source with
    | error fault =>
      rw [ran] at kind
      cases kind
    | ok result =>
      obtain ⟨root, tree⟩ := result
      rw [cut] at taken
      rw [ran] at kind
      refine ⟨pieces, root, tree, ⟨2⟩, rfl, fun tag member => ?_, rfl, Option.some.inj kind⟩
      rw [show tokens pieces = _ from Option.some.inj taken] at member
      simp only [List.mem_cons, List.not_mem_nil, Markup.Token.start.injEq, reduceCtorEq, false_or, or_false] at member
      rw [member]
      decide

end Template
end HtmlTemplate
