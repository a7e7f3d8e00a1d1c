import HtmlTemplate.Proofs.Placement.Marking
import HtmlTemplate.Proofs.Placement.Provenance
import HtmlTemplate.Proofs.Walk.Calm

/-!
# Where elements are located

Once the markup of a source is read, nothing is known any more of where its tags were written. Their places are found
out by searching the source for what looks like a start tag, one element after the other. This module compares the
places that are found with those of the start tags that the elements come from. They are the same if nothing but start
tags looks like one, if elements come in the order of their tags, and if no element without a tag is looked for before
one that has one of the same name. What looks like a start tag in a comment, in the value of an attribute or in raw
text leads the search astray.
-/

namespace HtmlTemplate

open HtmlTemplate.Tree

/-! ## Elements of trees -/

namespace Tree

/-- The elements of a tree, in the order in which they were made. -/
def elementIds (tree : Tree) : List NodeId :=
  ((List.range tree.nodes.length).map NodeId.mk).filter fun id => (tree.kind id).element?.isSome

/-- The elements of a tree, one by one: their tags, and for some of them the places where they stand. -/
def Located (tree : Tree) (elements : List (String × Option Position)) : Prop :=
  List.Forall₂ (fun id element => tree.kind id = .element element.1 ∧
    ∀ place, element.2 = some place → (tree.node id).position = place) tree.elementIds elements

/-- The tag of an element, and where it stands. -/
def spot? (tree : Tree) (id : NodeId) : Option (String × Position) :=
  (tree.kind id).element?.map fun tag => (tag, (tree.node id).position)

theorem spots_eq_filterMap (tree : Tree) :
    tree.spots = ((List.range tree.nodes.length).map NodeId.mk).filterMap tree.spot? := by
  have nodes : tree.nodes = ((List.range tree.nodes.length).map NodeId.mk).map tree.node :=
    List.ext_getElem (by simp) fun index bound _ => by simp [Tree.node, List.getD_eq_getElem?_getD, bound]
  rw [spots]
  conv_lhs => rw [nodes, List.filterMap_map]
  rfl

theorem located_of_stands {tree : Tree} {elements : List (String × Option Position)}
    (stand : List.Forall₂ Template.Stands tree.spots elements) : tree.Located elements := by
  rw [spots_eq_filterMap] at stand
  unfold Located elementIds
  generalize (List.range tree.nodes.length).map NodeId.mk = ids at stand ⊢
  induction ids generalizing elements with
  | nil =>
      cases stand
      exact .nil
  | cons id ids hypothesis =>
      cases tagged : (tree.kind id).element? with
      | none =>
          have spot : tree.spot? id = none := by rw [spot?, tagged, Option.map_none]
          rw [List.filterMap_cons_none spot] at stand
          rw [List.filter_cons_of_neg (by rw [tagged]; exact Bool.false_ne_true)]
          exact hypothesis stand
      | some tag =>
          have spot : tree.spot? id = some (tag, (tree.node id).position) := by rw [spot?, tagged, Option.map_some]
          rw [List.filterMap_cons_some spot] at stand
          rw [List.filter_cons_of_pos (by rw [tagged]; rfl)]
          cases stand with
          | cons first others => exact .cons ⟨first.1 ▸ Kind.element?_eq_some_iff.1 tagged, first.2⟩ (hypothesis others)

end Tree

namespace Template

variable {ahead : List Mark} {tag : String} {elements : List (String × Option Position)} {position : Position}

/-! ## What looks like a start tag -/

/-- The places where the start tag of an element with this tag seems to stand. -/
def sightings (tag : String) : List Mark → List Position
  | [] => []
  | mark :: rest =>
      if startsWithTag ('<' :: tag.toLower.toList) (mark :: rest) then mark.position :: sightings tag rest
      else sightings tag rest

/-- The places of the start tags that elements with this tag come from. Letters of both cases are the same. -/
def writtenFor (tag : String) (elements : List (String × Option Position)) : List Position :=
  elements.filterMap fun element => if element.1.toLower = tag.toLower then element.2 else none

/-- The search is not led astray: what looks like the start tag of an element is the start tag of an element of that
name, elements come in the order of their start tags, and those without come after those of their name that have one. -/
structure Evident (elements : List (String × Option Position)) (ahead : List Mark) : Prop where
  sighted : ∀ element ∈ elements, sightings element.1 ahead = writtenFor element.1 elements
  ordered : (elements.filterMap Prod.snd).Pairwise Position.Before
  foremost : elements.Pairwise fun element later =>
    element.2 = none → element.1.toLower = later.1.toLower → later.2 = none

instance (elements : List (String × Option Position)) (ahead : List Mark) : Decidable (Evident elements ahead) :=
  decidable_of_iff (_ ∧ _ ∧ _)
    ⟨fun ⟨sighted, ordered, foremost⟩ => ⟨sighted, ordered, foremost⟩,
      fun ⟨sighted, ordered, foremost⟩ => ⟨sighted, ordered, foremost⟩⟩

theorem findTag?_of_sightings_nil (none : sightings tag ahead = []) :
    findTag? ('<' :: tag.toLower.toList) ahead = .none := by
  induction ahead with
  | nil => rfl
  | cons mark rest hypothesis =>
      rw [sightings] at none
      split at none
      · cases none
      · next other => rw [findTag?, if_neg other, hypothesis none]

/-- The first place is found, and the others are still ahead. -/
theorem findTag?_of_sightings_cons {places : List Position} (seen : sightings tag ahead = position :: places) :
    ∃ front mark rest, ahead = front ++ mark :: rest ∧ mark.position = position ∧
      findTag? ('<' :: tag.toLower.toList) ahead = some (position, rest) := by
  induction ahead with
  | nil => cases seen
  | cons mark rest hypothesis =>
      rw [sightings] at seen
      split at seen
      · next starts =>
          obtain ⟨rfl, -⟩ := List.cons.inj seen
          exact ⟨[], mark, rest, rfl, rfl, by rw [findTag?, if_pos starts]⟩
      · next other =>
          obtain ⟨front, found, behind, rfl, place, search⟩ := hypothesis seen
          exact ⟨mark :: front, found, behind, rfl, place, by rw [findTag?, if_neg other, search]⟩

theorem sublist_sightings (tag : String) (ahead : List Mark) : (sightings tag ahead).Sublist (ahead.map Mark.position) := by
  induction ahead with
  | nil => exact .slnil
  | cons mark rest hypothesis =>
      rw [sightings]
      split
      · exact hypothesis.cons_cons _
      · exact hypothesis.cons _

/-- What is seen behind a character is what is seen farther on in the source. -/
theorem sightings_behind {front rest : List Mark} {mark : Mark}
    (apart : ((front ++ mark :: rest).map Mark.position).Pairwise Position.Before) (tag : String) :
    sightings tag rest =
      (sightings tag (front ++ mark :: rest)).filter fun place => decide (mark.position.Before place) := by
  induction front with
  | nil =>
      obtain ⟨farther, -⟩ := List.pairwise_cons.1 apart
      have kept : (sightings tag rest).filter (fun place => decide (mark.position.Before place)) = sightings tag rest :=
        List.filter_eq_self.2 fun place seen => decide_eq_true (farther place ((sublist_sightings tag rest).subset seen))
      rw [List.nil_append, sightings]
      split
      · rw [List.filter_cons_of_neg (by simpa using Position.Before.irrefl mark.position), kept]
      · exact kept.symm
  | cons first front hypothesis =>
      obtain ⟨farther, apart⟩ := List.pairwise_cons.1 apart
      have nearer : ¬mark.position.Before first.position := fun back =>
        Position.Before.irrefl _ (back.trans (farther _ (List.mem_map_of_mem (List.mem_append_right _ List.mem_cons_self))))
      rw [hypothesis apart, List.cons_append, sightings]
      split
      · rw [List.filter_cons_of_neg (by simpa using nearer)]
      · rfl

theorem writtenFor_none (tag name : String) (elements : List (String × Option Position)) :
    writtenFor tag ((name, none) :: elements) = writtenFor tag elements :=
  List.filterMap_cons_none (ite_self none)

theorem writtenFor_self (tag : String) (place : Position) (elements : List (String × Option Position)) :
    writtenFor tag ((tag, some place) :: elements) = place :: writtenFor tag elements :=
  List.filterMap_cons_some (if_pos rfl)

/-- The start tags of the elements behind one are those farther on in the source. -/
theorem writtenFor_behind {place : Position} (farther : ∀ other ∈ elements.filterMap Prod.snd, place.Before other)
    (tag name : String) : writtenFor tag elements =
      (writtenFor tag ((name, some place) :: elements)).filter fun other => decide (place.Before other) := by
  have kept : (writtenFor tag elements).filter (fun other => decide (place.Before other)) = writtenFor tag elements := by
    refine List.filter_eq_self.2 fun other member => decide_eq_true (farther other ?_)
    obtain ⟨element, among, written⟩ := List.mem_filterMap.1 member
    split at written
    · exact List.mem_filterMap.2 ⟨element, among, written⟩
    · cases written
  rw [writtenFor, writtenFor, List.filterMap_cons]
  split
  · exact kept.symm
  · next other written =>
      split at written
      · cases written
        rw [List.filter_cons_of_neg (by simpa using Position.Before.irrefl place)]
        exact kept.symm
      · cases written

/-- The search finds each start tag that an element comes from, and no others. The induction is on the elements: what
looks like the start tag of a later element stands behind what is passed by. -/
theorem placed_of_evident (apart : (ahead.map Mark.position).Pairwise Position.Before)
    (evident : Evident elements ahead) : placed (elements.map Prod.fst) ahead = elements := by
  induction elements generalizing ahead with
  | nil => rfl
  | cons element elements hypothesis =>
      obtain ⟨tag, place⟩ := element
      obtain ⟨sighted, inOrder, foremost⟩ := evident
      obtain ⟨own, others⟩ := List.forall_mem_cons.1 sighted
      obtain ⟨first, remain⟩ := List.pairwise_cons.1 foremost
      rw [List.map_cons, placed]
      cases place with
      | none =>
          -- No later element has a start tag of this name.
          have unwritten : writtenFor tag elements = [] := by
            refine List.filterMap_eq_nil_iff.2 fun later member => ?_
            split
            · next same => exact first later member rfl same.symm
            · rfl
          rw [writtenFor_none, unwritten] at own
          have search : seek tag ahead = (none, ahead) := by rw [seek, findTag?_of_sightings_nil own]
          rw [search, hypothesis apart ⟨fun later member => ?_, inOrder, remain⟩]
          rw [others later member, writtenFor_none]
      | some place =>
          obtain ⟨farther, ordered⟩ := List.pairwise_cons.1 inOrder
          rw [writtenFor_self] at own
          obtain ⟨front, mark, rest, rfl, rfl, found⟩ := findTag?_of_sightings_cons own
          have search : seek tag (front ++ mark :: rest) = (some mark.position, rest) := by rw [seek, found]
          have behind : (rest.map Mark.position).Pairwise Position.Before := by
            rw [List.map_append, List.map_cons] at apart
            exact (List.pairwise_cons.1 (List.pairwise_append.1 apart).2.1).2
          rw [search, hypothesis behind ⟨fun later member => ?_, ordered, remain⟩]
          rw [sightings_behind apart, others later member, ← writtenFor_behind farther]

/-! ## Where start tags are written -/

/-- The place in the source of the character that a rest of the text starts with. -/
def placeOf (pieces : List Piece) (ahead : List Char) : Position :=
  (((readMarks pieces).drop ((readMarks pieces).length - ahead.length)).head?.map Mark.position).getD .first

/-- The elements that the markup of a source is read as, in the order in which they begin. Those that come from a start
tag have the place of that tag with them. -/
def origins (pieces : List Piece) : List (String × Option Position) :=
  (Markup.elementsOf (SelfClosing.expand (StandIn.hide 0 pieces))).map fun element =>
    (element.1, element.2.map (placeOf pieces))

theorem map_origins (pieces : List Piece) : (origins pieces).map Prod.fst = Template.elements pieces := by
  rw [origins, List.map_map]
  exact Markup.map_elementsOf _

/-- Start tags are written where there is an opening bracket in the source. -/
theorem bracket_of_mem_origins {pieces : List Piece} {place : Position} (member : (tag, some place) ∈ origins pieces) :
    ∃ front rest, pieces.flatMap Piece.source = front ++ '<' :: rest ∧ place = Position.first.advance front := by
  obtain ⟨⟨name, start⟩, among, same⟩ := List.mem_map.1 member
  obtain ⟨-, placed⟩ := Prod.mk.inj same
  obtain ⟨ahead, rfl, rfl⟩ := Option.map_eq_some_iff.1 placed
  obtain ⟨⟨before, whole⟩, behind, -, -, rfl, -⟩ := Markup.readTag_of_mem_elementsOf among
  rw [← map_readMarks] at whole
  have length := congrArg List.length whole
  rw [List.length_append, List.length_map] at length
  have ahead : ((readMarks pieces).drop ((readMarks pieces).length - ('<' :: behind).length)).map Mark.character =
      '<' :: behind := by
    rw [List.map_drop, ← whole, ← length, Nat.add_sub_cancel, List.drop_left]
  rw [placeOf]
  cases left : (readMarks pieces).drop ((readMarks pieces).length - ('<' :: behind).length) with
  | nil =>
      rw [left] at ahead
      cases ahead
  | cons mark rest =>
      rw [left, List.map_cons] at ahead
      obtain ⟨bracket, -⟩ := List.cons.inj ahead
      have written : mark ∈ readMarks pieces := List.mem_of_mem_drop (left ▸ List.mem_cons_self)
      obtain ⟨front, rest, parts, place⟩ := mem_marks_iff.1 (mem_readMarks written bracket)
      exact ⟨front, rest, bracket ▸ parts, place⟩

/-! ## Unknown tags -/

/-- If the halt is for a tag that is not known, then it is the tag of the element, and the fault points at it. -/
def PointsAt (tree : Tree) (id : NodeId) (halt : Halt) : Prop :=
  ∀ fault tag, halt = .fault fault → fault.cause = .unknownTag tag →
    tree.kind id = .element tag ∧ fault.position = (tree.node id).position

section Unknown

open Walk

variable {registry : Registry} {state : Progress} {context : Context} {id : NodeId}

theorem pointsAt_of_rejected {halt : Halt} (rejected : Rejected registry id context halt) : PointsAt context.tree id halt := by
  intro fault name same cause
  cases rejected with
  | unrecognized tagged unknown =>
      obtain rfl := Halt.fault.inj same
      obtain rfl := Cause.unknownTag.inj cause
      have needed := unknown.needed
      unfold needsEntry at needed
      split at needed
      · next element =>
          rw [element] at tagged
          rw [element, Option.some.inj tagged]
          exact ⟨rfl, rfl⟩
      · cases needed
  | disallowed _ _ nested =>
      obtain rfl := Halt.fault.inj same
      cases nested.symm.trans cause

theorem pointsAt_checkTag :
    Holds (PointsAt context.tree id) (checkTag registry id) state context fun _ _ _ => True :=
  Meets.weaken holds_checkTag_inspected (fun _ => pointsAt_of_rejected) fun _ _ _ _ => trivial

end Unknown

/-! ## Templates -/

variable {file source : String} {root : NodeId} {tree : Tree} {pieces : List Piece}

/-- If the search is not led astray, then the elements of a template are those of its markup, wrappers that are not
written aside, and those that come from a start tag stand where the bracket of that tag does. Faults for tags that are
not known point at their element. -/
theorem read_located (cut : Placeholder.pieces source.toList = .ok pieces) (ran : read file source = .ok (root, tree))
    (evident : Evident (origins pieces) (tagMarks .first pieces)) :
    tree.Located ((origins pieces).filter fun element => !(planOf source.toList pieces).leavesOut element) ∧
      (∀ tag place, (tag, some place) ∈ origins pieces →
        ∃ front rest, source.toList = front ++ '<' :: rest ∧ place = Position.first.advance front) ∧
      ∀ registry id state context halt, (Walk.checkTag registry id state context).1.1 = .error halt →
        PointsAt context.tree id halt := by
  refine ⟨Tree.located_of_stands ?_, fun tag place member => ?_, fun registry id state context halt failed => ?_⟩
  · have apart : ((tagMarks .first pieces).map Mark.position).Pairwise Position.Before := by
      rw [positions_tagMarks]
      exact pairwise_marks _ _
    have stands := stands_of_read cut ran
    rw [← map_origins, placed_of_evident apart evident] at stands
    exact stands
  · rw [← Placeholder.flatMap_source cut]
    exact bracket_of_mem_origins member
  · have points := @pointsAt_checkTag registry state context id
    unfold Walk.Holds at points
    generalize Walk.checkTag registry id state context = result at failed points
    obtain ⟨⟨ended, _⟩, _⟩ := result
    obtain rfl : ended = .error halt := failed
    exact points

/-- What the pieces of a source and its tree are computed to be is what they are. -/
theorem exists_read {α β : Type} {ofPieces : List Piece → α} {ofRead : NodeId × Tree → β} {cutTo : α} {madeTo : β}
    (cuts : (Placeholder.pieces source.toList).toOption.map ofPieces = some cutTo)
    (makes : (read file source).toOption.map ofRead = some madeTo) :
    ∃ pieces root tree, Placeholder.pieces source.toList = .ok pieces ∧ read file source = .ok (root, tree) ∧
      ofPieces pieces = cutTo ∧ ofRead (root, tree) = madeTo := by
  cases cut : Placeholder.pieces source.toList with
  | error failed =>
      rw [cut] at cuts
      cases cuts
  | ok pieces =>
      cases ran : read file source with
      | error fault =>
          rw [ran] at makes
          cases makes
      | ok result =>
          rw [cut] at cuts
          rw [ran] at makes
          exact ⟨pieces, result.1, result.2, rfl, rfl, Option.some.inj cuts, Option.some.inj makes⟩

/-- Tags that close themselves, line ends, tags in upper case and code that looks like a tag do not lead the search
astray, and neither do elements that no tag was written for. -/
theorem read_located_apart :
    let source := "<main>\r\n<BR/><table>$\x7b'<td>'\x7d<tr><td>a</table></main>"
    ∃ pieces root tree, Placeholder.pieces source.toList = .ok pieces ∧ read "page" source = .ok (root, tree) ∧
      tree.Located [("main", some ⟨1, 1⟩), ("br", some ⟨2, 1⟩), ("table", some ⟨2, 6⟩), ("tbody", none),
        ("tr", some ⟨2, 22⟩), ("td", some ⟨2, 26⟩)] := by
  intro source
  have letters : source.toList = _ := String.toList_ofList
  have written : (Placeholder.pieces source.toList).toOption.map (fun pieces =>
      (decide (Evident (origins pieces) (tagMarks .first pieces)), (origins pieces).filter fun element =>
        !(planOf source.toList pieces).leavesOut element)) =
      some (true, [("main", some ⟨1, 1⟩), ("br", some ⟨2, 1⟩), ("table", some ⟨2, 6⟩), ("tbody", none),
        ("tr", some ⟨2, 22⟩), ("td", some ⟨2, 26⟩)]) := by
    rw [letters]
    decide +kernel
  have made : (read "page" source).toOption.map (fun result => result.2.tags.length) = some 6 := by
    rw [read, letters]
    decide +kernel
  obtain ⟨pieces, root, tree, cut, ran, known, -⟩ := exists_read written made
  obtain ⟨evident, kept⟩ := Prod.mk.inj known
  have located := (read_located cut ran (of_decide_eq_true evident)).1
  rw [kept] at located
  exact ⟨pieces, root, tree, cut, ran, located⟩

/-- The paragraph is located where the comment in front of it speaks of one. -/
theorem read_astray :
    let source := "<!-- <p> --><p></p>"
    ∃ pieces root tree id, Placeholder.pieces source.toList = .ok pieces ∧ read "page" source = .ok (root, tree) ∧
      ((origins pieces).filter fun element => !(planOf source.toList pieces).leavesOut element) =
        [("p", some ⟨1, 13⟩)] ∧
      tree.elementIds = [id] ∧ tree.kind id = .element "p" ∧ (tree.node id).position = ⟨1, 6⟩ := by
  intro source
  have letters : source.toList = _ := String.toList_ofList
  have written : (Placeholder.pieces source.toList).toOption.map (fun pieces =>
      (origins pieces).filter fun element => !(planOf source.toList pieces).leavesOut element) =
      some [("p", some ⟨1, 13⟩)] := by
    rw [letters]
    decide +kernel
  have made : (read "page" source).toOption.map (fun result =>
      (result.2.elementIds, result.2.kind ⟨2⟩, (result.2.node ⟨2⟩).position)) =
      some ([⟨2⟩], .element "p", ⟨1, 6⟩) := by
    rw [read, letters]
    decide +kernel
  obtain ⟨pieces, root, tree, cut, ran, single, located⟩ := exists_read written made
  obtain ⟨only, kind, place⟩ := (Prod.mk.inj located).imp_right Prod.mk.inj
  exact ⟨pieces, root, tree, ⟨2⟩, cut, ran, single, only, kind, place⟩

end Template
end HtmlTemplate
