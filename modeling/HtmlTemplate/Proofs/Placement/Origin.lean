import HtmlTemplate.Proofs.Placement.Making
import HtmlTemplate.Proofs.Placement.StandIn

/-!
# Where code comes from

The code in the tree of a template is code of its placeholders. This holds of text without exception, and of
attributes as long as no value, once its references are resolved, opens a placeholder itself or hides one
behind a backslash: values are searched for placeholders a second time.
-/

namespace HtmlTemplate

/-! ## Code in trees and in values -/

/-- A placeholder with this code is among the pieces of a source. -/
def Piece.Writes (pieces : List Piece) (code : String) (escape : Bool) : Prop :=
  ∃ placeholder, .code placeholder ∈ pieces ∧ placeholder.code = code ∧ placeholder.escape = escape

/-- The placeholders of a tree and the code in its attributes are of certain kinds. -/
structure Tree.HoldsOnly (inText inAttributes : String → Bool → Prop) (tree : Tree) : Prop where
  placeholder : ∀ id code escape, tree.kind id = .placeholder code escape → inText code escape
  segment : ∀ id, ∀ given ∈ (tree.node id).attributes, ∀ code escape,
    .code code escape ∈ given.value.segments → inAttributes code escape

/-- A segment is made of a piece: of a text without the backslashes of its dollars, or of the code of a placeholder,
which was checked. -/
theorem Value.piece_of_mem_segmentsOf {pieces : List Piece} {segments : List Segment} {segment : Segment}
    (read : segmentsOf pieces = .ok segments) (member : segment ∈ segments) :
    (∃ source, .text source ∈ pieces ∧ segment = .static (String.ofList (Placeholder.unescape source))) ∨
      ∃ placeholder, .code placeholder ∈ pieces ∧ segment = .code placeholder.code placeholder.escape ∧
        Code.check placeholder.code = .ok () := by
  induction pieces generalizing segments with
  | nil =>
      cases read
      cases member
  | cons piece pieces hypothesis =>
      simp only [List.mem_cons]
      cases piece with
      | text source =>
          rw [segmentsOf] at read
          split at read
          · next others rest =>
              cases read
              rcases List.mem_cons.1 member with first | later
              · exact .inl ⟨source, .inl rfl, first⟩
              · exact (hypothesis rest later).imp (fun ⟨source, among, same⟩ => ⟨source, .inr among, same⟩)
                  fun ⟨placeholder, among, same⟩ => ⟨placeholder, .inr among, same⟩
          · cases read
      | code placeholder =>
          rw [segmentsOf] at read
          split at read
          · cases read
          · next checked =>
              split at read
              · next others rest =>
                  cases read
                  rcases List.mem_cons.1 member with first | later
                  · exact .inr ⟨placeholder, .inl rfl, first, checked⟩
                  · exact (hypothesis rest later).imp (fun ⟨source, among, same⟩ => ⟨source, .inr among, same⟩)
                      fun ⟨placeholder, among, same⟩ => ⟨placeholder, .inr among, same⟩
              · cases read

/-- A value keeps its source, and its segments are made of the pieces of that. -/
theorem Value.pieces_of_parse {raw : String} {value : Value} (parsed : Value.parse raw = .ok value) :
    value.raw = raw ∧ ∃ pieces, Placeholder.pieces raw.toList = .ok pieces ∧ segmentsOf pieces = .ok value.segments := by
  unfold Value.parse at parsed
  split at parsed
  · cases parsed
  · next pieces cut =>
      split at parsed
      · cases parsed
      · next segments read =>
          cases parsed
          exact ⟨rfl, pieces, cut, read⟩

/-- The code of a value is that of placeholders in its source. -/
theorem Value.writes_of_parse {raw : String} {value : Value} {code : String} {escape : Bool}
    (parsed : Value.parse raw = .ok value) (member : .code code escape ∈ value.segments) :
    ∃ pieces, Placeholder.pieces raw.toList = .ok pieces ∧ Piece.Writes pieces code escape := by
  obtain ⟨-, pieces, cut, read⟩ := pieces_of_parse parsed
  rcases piece_of_mem_segmentsOf read member with ⟨source, -, impossible⟩ | ⟨placeholder, among, same, -⟩
  · cases impossible
  · obtain ⟨rfl, rfl⟩ := Segment.code.inj same
    exact ⟨pieces, cut, placeholder, among, rfl, rfl⟩

mutual

/-- The values of the attributes in a piece of content. -/
def Markup.Content.values : Markup.Content → List String
  | .element _ attributes children => attributes.list.map Prod.snd ++ Markup.Content.valuesAll children
  | _ => []

/-- The values of the attributes in pieces of content. -/
def Markup.Content.valuesAll : List Markup.Content → List String
  | [] => []
  | content :: contents => content.values ++ Markup.Content.valuesAll contents

end

mutual

/-- The values of an element are among those of the content that it stands in. -/
theorem Markup.Content.values_of_mem_deep {tag : String} {attributes : Markup.Attributes}
    {children : List Markup.Content} {given : String × String} (written : given ∈ attributes.list) :
    ∀ {content : Markup.Content}, .element tag attributes children ∈ content.deep → given.2 ∈ content.values
  | .element other others below, member => by
      rw [Markup.Content.deep] at member
      rw [Markup.Content.values]
      rcases List.mem_cons.1 member with same | deeper
      · obtain ⟨rfl, rfl, rfl⟩ := Markup.Content.element.inj same
        exact List.mem_append_left _ (List.mem_map_of_mem written)
      · exact List.mem_append_right _ (Markup.Content.valuesAll_of_mem_deepAll written deeper)
  | .doctype _, member => by cases List.mem_singleton.1 member
  | .text _, member => by cases List.mem_singleton.1 member
  | .comment _, member => by cases List.mem_singleton.1 member

/-- The values of an element are among those of the contents that it stands in. -/
theorem Markup.Content.valuesAll_of_mem_deepAll {tag : String} {attributes : Markup.Attributes}
    {children : List Markup.Content} {given : String × String} (written : given ∈ attributes.list) :
    ∀ {contents : List Markup.Content}, .element tag attributes children ∈ Markup.Content.deepAll contents →
      given.2 ∈ Markup.Content.valuesAll contents
  | content :: contents, member => by
      rw [Markup.Content.deepAll] at member
      rw [Markup.Content.valuesAll]
      rcases List.mem_append.1 member with first | later
      · exact List.mem_append_left _ (Markup.Content.values_of_mem_deep written first)
      · exact List.mem_append_right _ (Markup.Content.valuesAll_of_mem_deepAll written later)
  | [], member => by cases member

end

namespace Template

open HtmlTemplate.Tree

variable {inAttributes : String → Bool → Prop}

/-! ## Sources -/

theorem code_mem_of_mem_sites {position : Position} {pieces : List Piece} {site : Site}
    (member : site ∈ sites position pieces) : .code site.placeholder ∈ pieces := by
  induction pieces generalizing position with
  | nil => cases member
  | cons piece pieces hypothesis =>
      cases piece with
      | text source => exact List.mem_cons_of_mem _ (hypothesis member)
      | code placeholder =>
          rcases List.mem_cons.1 member with rfl | member
          · exact List.mem_cons_self
          · exact List.mem_cons_of_mem _ (hypothesis member)

/-- The code of a value with its placeholders put back is allowed in attributes. -/
def Plan.Allows (plan : Plan) (inAttributes : String → Bool → Prop) (value : String) : Prop :=
  ∀ parsed, Value.parse (plan.restore value) = .ok parsed → ∀ code escape,
    .code code escape ∈ parsed.segments → inAttributes code escape

/-- An innocent value brings no code with it but that of the placeholders it stands for. -/
theorem allows_of_innocent {source : List Char} {pieces : List Piece} {rootless : Bool} {value : String}
    (cut : Placeholder.pieces source = .ok pieces) (innocent : StandIn.Innocent value.toList) :
    Plan.Allows { sites := sites .first pieces, rootless } (Piece.Writes pieces) value := by
  intro parsed read code escape member
  obtain ⟨found, again, placeholder, among, same⟩ := Value.writes_of_parse read member
  have sources : (sites .first pieces).map (fun site => site.placeholder.source) =
      ((sites .first pieces).map Site.placeholder).map Placeholder.source := by
    rw [List.map_map]
    rfl
  rw [Plan.restore, String.toList_ofList, sources] at again
  have genuine : ∀ placeholder ∈ (sites .first pieces).map Site.placeholder, .code placeholder ∈ pieces := by
    intro placeholder member
    obtain ⟨site, present, rfl⟩ := List.mem_map.1 member
    exact code_mem_of_mem_sites present
  have known := StandIn.mem_of_mem_pieces_restore
    (fun placeholder member => Placeholder.start_of_mem_pieces cut (genuine placeholder member)) innocent again among
  exact ⟨placeholder, genuine placeholder known, same⟩

theorem holdsOnly_of_read {file source : String} {root : NodeId} {tree : Tree} {pieces : List Piece}
    (cut : Placeholder.pieces source.toList = .ok pieces) (ran : read file source = .ok (root, tree))
    (allowed : ∀ value ∈ Markup.Content.valuesAll (contents pieces), ∀ rootless,
      Plan.Allows { sites := sites .first pieces, rootless } inAttributes value) :
    tree.HoldsOnly (Piece.Writes pieces) inAttributes := by
  have made := madeOf_of_read cut ran
  constructor
  · intro id code escape kind
    rcases made id with ⟨document, -⟩ | ⟨content, -, makes⟩
    · cases kind.symm.trans document
    · rw [kind] at makes
      obtain ⟨site, known, rfl, rfl⟩ := makes.site
      exact ⟨site.placeholder, code_mem_of_mem_sites known, rfl, rfl⟩
  · intro id given member code escape segment
    rcases made id with ⟨-, none⟩ | ⟨content, among, makes⟩
    · rw [none] at member
      cases member
    · obtain ⟨tag, attributes, children, rfl, source, present, -, parsed⟩ := makes.attribute member
      exact allowed source.2 (Markup.Content.valuesAll_of_mem_deepAll present among) _ _ parsed code escape segment

/-- The code of a template comes from its placeholders: in texts always, and in attributes as long as no value
opens a placeholder once its references are resolved. -/
theorem read_code {file source : String} {root : NodeId} {tree : Tree} {pieces : List Piece}
    (cut : Placeholder.pieces source.toList = .ok pieces) (ran : read file source = .ok (root, tree)) :
    (∀ id code escape, tree.kind id = .placeholder code escape → Piece.Writes pieces code escape) ∧
      ((∀ value ∈ Markup.Content.valuesAll (contents pieces), StandIn.Innocent value.toList) →
        ∀ id, ∀ given ∈ (tree.node id).attributes, ∀ code escape,
          .code code escape ∈ given.value.segments → Piece.Writes pieces code escape) := by
  refine ⟨(holdsOnly_of_read cut ran fun _ _ _ _ _ _ _ _ => trivial).placeholder, fun innocent => ?_⟩
  exact (holdsOnly_of_read cut ran fun value member _ => allows_of_innocent cut (innocent value member)).segment

/-- A link whose address and text have placeholders, with a reference in the address. -/
theorem read_code_link :
    let source := "<a href=\"/?q=1&amp;p=$\x7bpage\x7d\">$\x7btitle\x7d</a>"
    ∃ pieces root tree, Placeholder.pieces source.toList = .ok pieces ∧ read "page" source = .ok (root, tree) ∧
      (∀ value ∈ Markup.Content.valuesAll (contents pieces), StandIn.Innocent value.toList) ∧
      (∀ id code escape, tree.kind id = .placeholder code escape → Piece.Writes pieces code escape) ∧
      ∀ id, ∀ given ∈ (tree.node id).attributes, ∀ code escape,
        .code code escape ∈ given.value.segments → Piece.Writes pieces code escape := by
  intro source
  -- The letters of the source are stated once, so that no evaluation below decodes its bytes.
  have letters : source.toList = _ := String.toList_ofList
  have ends : (read "page" source).isOk = true := by
    rw [read, letters]
    decide +kernel
  have values : (Placeholder.pieces source.toList).toOption.map (fun pieces => Markup.Content.valuesAll (contents pieces)) =
      some ["/?q=1&p=__tpl_expr_0__"] := by
    rw [letters]
    decide +kernel
  cases cut : Placeholder.pieces source.toList with
  | error failed =>
      rw [cut] at values
      cases values
  | ok pieces =>
      cases ran : read "page" source with
      | error fault =>
          rw [ran] at ends
          cases ends
      | ok result =>
          obtain ⟨root, tree⟩ := result
          obtain ⟨inText, inAttributes⟩ := read_code cut ran
          rw [cut] at values
          have innocent : ∀ value ∈ Markup.Content.valuesAll (contents pieces), StandIn.Innocent value.toList := by
            intro value member
            have same : Markup.Content.valuesAll (contents pieces) = _ := Option.some.inj values
            rw [same] at member
            obtain rfl := List.mem_singleton.1 member
            decide +kernel
          exact ⟨pieces, root, tree, rfl, rfl, innocent, inText, inAttributes innocent⟩

/-- A dollar that is written as a reference opens a placeholder in an attribute. -/
theorem read_code_reference :
    let source := "<p title=\"&#36;\x7bx\x7d\"></p>"
    ∃ pieces root tree id given, Placeholder.pieces source.toList = .ok pieces ∧
      read "page" source = .ok (root, tree) ∧ given ∈ (tree.node id).attributes ∧
      .code "x" true ∈ given.value.segments ∧ ∀ placeholder, .code placeholder ∉ pieces := by
  intro source
  have letters : source.toList = _ := String.toList_ofList
  have silent : Placeholder.Silent source.toList := by
    rw [letters]
    decide +kernel
  obtain ⟨pieces, cut, absent⟩ := silent
  have segments : (read "page" source).toOption.map (fun result =>
      (result.2.node ⟨1⟩).attributes.map fun given => given.value.segments) = some [[.code "x" true]] := by
    rw [read, letters]
    decide +kernel
  cases ran : read "page" source with
  | error fault =>
      rw [ran] at segments
      cases segments
  | ok result =>
      rw [ran] at segments
      have all : ((result.2.node ⟨1⟩).attributes.map fun given => given.value.segments) = _ := Option.some.inj segments
      obtain ⟨given, member, same⟩ := List.mem_map.1 (all.symm ▸ List.mem_singleton_self [Segment.code "x" true])
      have segment : .code "x" true ∈ given.value.segments := same ▸ List.mem_singleton_self (Segment.code "x" true)
      exact ⟨pieces, result.1, result.2, ⟨1⟩, given, cut, rfl, member, segment, absent⟩

end Template
end HtmlTemplate
