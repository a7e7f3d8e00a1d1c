import HtmlTemplate.Proofs.Placement.Framing
import HtmlTemplate.Proofs.Placement.Wrapping

/-!
# Texts and values are read alike

A source is read in two ways. As the value of an attribute it is cut into its parts at once; in text, stand-ins keep
the places of its placeholders until the markup is read, and the texts between them are taken by themselves. Both ways
lead to the same parts: a paragraph with the source in it has a child for each part of the value that the source is,
and a paragraph with the source as its title has that value.
-/

namespace HtmlTemplate

open HtmlTemplate.Tree
open Markup (IsPlain)

/-! ## Sources with plain texts -/

/-- The piece is code, or text that is plain to markup and in which no stand-in opens. -/
def Piece.IsPlain : Piece → Prop
  | .text source => (∀ c ∈ source, Markup.IsPlain c) ∧ ¬StandIn.opening <:+: source
  | .code _ => True

instance : DecidablePred Piece.IsPlain
  | .text source => decidable_of_iff ((source.all fun c => decide (Markup.IsPlain c)) = true ∧
      source.tails.all (fun rest => !StandIn.opening.isPrefixOf rest) = true) <| by
        simp only [Piece.IsPlain, List.all_eq_true, decide_eq_true_eq, List.mem_tails, Bool.not_eq_true',
          ← Bool.not_eq_true, List.isPrefixOf_iff_prefix, List.infix_iff_prefix_suffix, not_exists, not_and]
        exact and_congr_right fun _ => forall_congr' fun rest => ⟨fun absent opens suffix => absent suffix opens,
          fun absent suffix opens => absent opens suffix⟩
  | .code _ => isTrue trivial

/-- The node that a part of a value is in text. -/
def Segment.kind : Segment → Kind
  | .static value => .text value
  | .code value escape => .placeholder value escape

namespace StandIn

variable {pieces : List Piece}

/-- What plain pieces leave for markup is plain. -/
theorem isPlain_hide (plain : ∀ piece ∈ pieces, piece.IsPlain) (number : Nat) : ∀ c ∈ hide number pieces, IsPlain c := by
  induction pieces generalizing number with
  | nil => exact fun c none => absurd none List.not_mem_nil
  | cons piece pieces hypothesis =>
      obtain ⟨first, others⟩ := List.forall_mem_cons.1 plain
      intro c member
      cases piece with
      | text source =>
          rcases List.mem_append.1 member with inside | behind
          · exact first.1 c inside
          · exact hypothesis others number c behind
      | code placeholder =>
          rcases List.mem_append.1 member with inside | behind
          · exact isPlain_ofNumber number c inside
          · exact hypothesis others (number + 1) c behind

end StandIn

namespace Template

open StandIn
open Markup (Content Attributes)

variable {α β : Type} {plan : Plan} {growth : Growth} {root parent id : NodeId} {position : Position} {kind : Kind}
variable {pieces : List Piece} {segments : List Segment} {kinds : List Kind}

theorem codes_sites (position : Position) (pieces : List Piece) :
    (sites position pieces).map Site.placeholder = pieces.filterMap Piece.code? := by
  induction pieces generalizing position with
  | nil => rfl
  | cons piece pieces hypothesis =>
      cases piece with
      | text source => exact hypothesis _
      | code placeholder => exact congrArg (placeholder :: ·) (hypothesis _)

theorem unmistakable_of_isPlain (count : Nat) (plain : ∀ piece ∈ pieces, piece.IsPlain) : Unmistakable count pieces := by
  induction pieces with
  | nil => exact trivial
  | cons piece pieces hypothesis =>
      obtain ⟨first, others⟩ := List.forall_mem_cons.1 plain
      cases piece with
      | text source => exact ⟨inert_of_unopened _ first.2, hypothesis others⟩
      | code placeholder => exact hypothesis others

/-- What plain pieces leave for markup is restored to their source, with the placeholders of any plan that has theirs. -/
theorem restore_plain {raw : String} (cut : Placeholder.pieces raw.toList = .ok pieces)
    (plain : ∀ piece ∈ pieces, piece.IsPlain)
    (known : plan.sites.map Site.placeholder = pieces.filterMap Piece.code?) :
    plan.restore (String.ofList (hide 0 pieces)) = raw := by
  have sources : plan.sites.map (fun site => site.placeholder.source) =
      (sites .first pieces).map fun site => site.placeholder.source := by
    have same := congrArg (List.map Placeholder.source) (known.trans (codes_sites .first pieces).symm)
    rwa [List.map_map, List.map_map] at same
  have dollars : ∀ other ∈ (sites .first pieces).map (fun site => site.placeholder.source), other.head? = some '$' := by
    intro other member
    obtain ⟨site, present, rfl⟩ := List.mem_map.1 member
    exact Placeholder.head?_source (Placeholder.start_of_mem_pieces cut (code_mem_of_mem_sites present) [])
  have same := (restore_hide 0 .first dollars (Placeholder.apart_of_pieces cut) rfl).2 (unmistakable_of_isPlain _ plain)
  rw [Plan.restore, sources, String.toList_ofList, same, Placeholder.flatMap_source cut, String.ofList_toList]

/-! ## Steps that succeed -/

/-- The step succeeds, and does what is good. -/
def Grow.Succeeds (work : Grow α) (growth : Growth) (good : α → Growth → Prop) : Prop :=
  ∃ value after, work growth = .ok (value, after) ∧ good value after

namespace Grow

variable {good : α → Growth → Prop} {other : β → Growth → Prop}

theorem succeeds_pure {value : α} (meets : good value growth) : Succeeds (pure value) growth good :=
  ⟨value, growth, rfl, meets⟩

theorem Succeeds.bind {work : Grow α} {next : α → Grow β} (begins : Succeeds work growth good)
    (goesOn : ∀ value after, good value after → Succeeds (next value) after other) :
    Succeeds (work >>= next) growth other := by
  obtain ⟨value, between, began, meets⟩ := begins
  obtain ⟨last, after, went, ends⟩ := goesOn value between meets
  refine ⟨last, after, ?_, ends⟩
  rw [bind_apply, began]
  exact went

theorem succeeds_locate (tag : String) (growth : Growth) :
    Succeeds (locate tag) growth fun _ after => after.tree = growth.tree :=
  ⟨_, _, locate_apply tag growth, rfl⟩

end Grow

/-! ## Leaves of a tree -/

/-- A new node comes last below another one, and all else stays as it is. -/
structure Planted (parent id : NodeId) (kind : Kind) (read : List Attribute) (before after : Tree) : Prop where
  new : ¬before.Has id
  made : ∃ position, after.node id = { kind, attributes := read, position, parent := some parent }
  owner : after.node parent = { before.node parent with children := before.children parent ++ [id] }
  others : ∀ other, other ≠ id → other ≠ parent → after.node other = before.node other

namespace Planted

variable {read : List Attribute} {before after : Tree} {other : NodeId}

theorem kind_eq (planted : Planted parent id kind read before after) : after.kind id = kind := by
  obtain ⟨position, made⟩ := planted.made
  rw [Tree.kind, made]

theorem kind_of_ne (planted : Planted parent id kind read before after) (old : other ≠ id) :
    after.kind other = before.kind other := by
  by_cases same : other = parent
  · rw [same, Tree.kind, planted.owner, Tree.kind]
  · rw [Tree.kind, planted.others other old same, Tree.kind]

/-- Paths that were there are still there. -/
theorem onPath (planted : Planted parent id kind read before after) (above : before.OnPath root other) :
    after.OnPath root other := by
  induction above with
  | self => exact .self
  | @step lower upper linked _ hypothesis =>
      refine .step ?_ hypothesis
      have old : lower ≠ id := fun same => planted.new (same ▸ has_of_parent linked)
      by_cases same : lower = parent
      · rw [same, Tree.parent, planted.owner, ← linked, same, Tree.parent]
      · rw [Tree.parent, planted.others lower old same, ← linked, Tree.parent]

theorem onPath_new (planted : Planted parent id kind read before after) (above : before.OnPath root parent) :
    after.OnPath root id := by
  obtain ⟨position, made⟩ := planted.made
  exact .step (by rw [Tree.parent, made]) (planted.onPath above)

end Planted

theorem planted_of_add {attributes : List (String × String)} {after : Growth} (present : growth.tree.Has parent)
    (ran : Grow.add parent position kind attributes growth = .ok (id, after)) :
    ∃ read, attributes.mapM (fun (name, raw) => growth.tree.readAttribute position name raw) = .ok read ∧
      Planted parent id kind read growth.tree after.tree := by
  obtain ⟨made, created, appended, -⟩ := Grow.add_eq_ok ran
  obtain rfl : made.1 = id := by
    rw [Grow.add_apply, created] at ran
    change (made.2.append parent made.1).bind _ = _ at ran
    rw [appended] at ran
    exact (Prod.mk.inj (Except.ok.inj ran)).1
  obtain ⟨read, -, attributesRead, -, -, -, rfl⟩ := create_eq_ok_iff.1 created
  have old : parent ≠ ⟨growth.tree.size⟩ := ne_size_of_has present
  refine ⟨read, attributesRead, not_has_size, ⟨position, ?_⟩, ?_, fun other new apart => ?_⟩
  · rw [append_eq appended, setChildren, node_update_of_ne old.symm, setParent, node_update_self]
    · rw [setParents, List.foldl_nil, node_push_self]
    · rw [setParents, List.foldl_nil]
      exact (has_push _).2 (.inr rfl)
  · have there : (growth.tree.push { kind, attributes := read, children := [], position }).2.Has parent :=
      (has_push _).2 (.inl present)
    rw [append_eq appended, setParents, List.foldl_nil, setChildren, node_update_self (by simpa using there), setParent,
      node_update_of_ne old, node_push_of_has _ present, Tree.children, node_push_of_has _ present]
    rfl
  · rw [append_eq appended, setChildren, node_update_of_ne apart, setParent, node_update_of_ne new, setParents,
      List.foldl_nil, node_push_of_ne new]

/-- The node can be made, and has the attributes that were read. -/
def CanMake (kind : Kind) (attributes : List (String × String)) (given : List (String × List Segment)) : Prop :=
  kind.check = .ok () ∧ ∀ (tree : Tree) (position : Position), ∃ read,
    attributes.mapM (fun (name, raw) => tree.readAttribute position name raw) = .ok read ∧
      read.map (fun written => (written.name, written.value.segments)) = given

/-- A node that can be made is planted. -/
theorem succeeds_add {given : List (String × List Segment)} {attributes : List (String × String)}
    (growing : Growing root growth.tree) (host : Host parent growth.tree) (can : CanMake kind attributes given)
    (content : kind.isContent = true) (other : kind ≠ .conditional)
    (plain : ∀ tag, kind.tag? = some tag → kind = .element tag)
    (single : ∀ name, Markup.isSmall name = true → (given.map Prod.fst).count name ≤ 1) (position : Position) :
    Grow.Succeeds (Grow.add parent position kind attributes) growth fun id after =>
      Growing root after.tree ∧ Keeps growth.tree after.tree ∧ after.tree.Has id ∧ ∃ read, Planted parent id kind read growth.tree after.tree ∧
        read.map (fun written => (written.name, written.value.segments)) = given := by
  obtain ⟨checked, reads⟩ := can
  obtain ⟨read, attributesRead, shown⟩ := reads growth.tree position
  have made : growth.tree.create position kind attributes [] =
      .ok (growth.tree.push { kind, attributes := read, children := [], position }) :=
    create_eq_ok_iff.2 ⟨read, checked, attributesRead, nofun, List.nodup_nil, nofun, rfl⟩
  have names : read.map Attribute.name = given.map Prod.fst := by
    rw [← shown, List.map_map]
    rfl
  obtain ⟨after, added, grown, keeps, there, -⟩ :=
    growing.add host.present host.container content other plain made (by rwa [names])
  obtain ⟨others, alsoRead, planted⟩ := planted_of_add host.present added
  obtain rfl := Except.ok.inj (attributesRead.symm.trans alsoRead)
  exact ⟨_, _, added, grown, keeps, there, read, planted, shown⟩

/-! ## The paragraph of a tree -/

/-- The tree has one paragraph, with these attributes and with children of these kinds. -/
structure HasParagraph (root id : NodeId) (attributes : List (String × List Segment)) (kinds : List Kind) (tree : Tree) :
    Prop where
  below : tree.OnPath root id
  only : ∀ other, tree.kind other = .element "p" ↔ other = id
  attributes : (tree.node id).attributes.map (fun written => (written.name, written.value.segments)) = attributes
  children : (tree.children id).map tree.kind = kinds

/-- Reading a source makes a tree with one paragraph, with these attributes and with children of these kinds. -/
def ReadsParagraph (file source : String) (attributes : List (String × List Segment)) (kinds : List Kind) : Prop :=
  ∃ root tree id, read file source = .ok (root, tree) ∧ HasParagraph root id attributes kinds tree

/-- No paragraph was made yet, and there is a node to make one below. -/
structure Vacant (root parent : NodeId) (tree : Tree) : Prop where
  growing : Growing root tree
  host : Host parent tree
  below : tree.OnPath root parent
  absent : ∀ id, tree.kind id ≠ .element "p"

theorem kind_seed (file : String) (id : NodeId) : (seed file).kind id = .document := by
  by_cases same : id = ⟨0⟩
  · rw [same]
    rfl
  · have absent : ¬({ file } : Tree).Has id := Nat.not_lt_zero id.index
    rw [seed, Tree.kind, @node_push_of_ne { file } { kind := .document, position := .first } id same,
      node_of_not_has absent]
    rfl

theorem vacant_seed (file : String) : Vacant ⟨0⟩ ⟨0⟩ (seed file) where
  growing := growing_document file
  host := ⟨Nat.zero_lt_one, rfl⟩
  below := .self
  absent id := by
    rw [kind_seed]
    exact nofun

/-- Attributes as they are given to the nodes of a plan. -/
def Plan.restoreAll (plan : Plan) (attributes : Attributes) : List (String × String) :=
  attributes.list.map fun (name, value) => (name, plan.restore value)

variable {children : List Content} {tag : String} {good : Unit → Growth → Prop}

theorem canMake_bare (checked : kind.check = .ok ()) : CanMake kind [] [] :=
  ⟨checked, fun _ _ => ⟨[], rfl, rfl⟩⟩

theorem check_element (valid : Name.isTag tag = true) : (Kind.element tag).check = .ok () := by
  rw [Kind.check, Kind.checkTag, if_pos valid]

/-- An element of another tag leaves the tree without paragraphs. -/
theorem Vacant.wrap (vacant : Vacant root parent growth.tree) (valid : Name.isTag tag = true) (other : tag ≠ "p")
    (position : Position) :
    Grow.Succeeds (Grow.add parent position (.element tag) []) growth fun id after =>
      Vacant root id after.tree ∧ Vacant root parent after.tree := by
  obtain ⟨id, after, added, grown, keeps, there, read, planted, -⟩ := succeeds_add vacant.growing vacant.host
    (canMake_bare (check_element valid)) rfl nofun (fun name same => congrArg Kind.element (Option.some.inj same))
    (fun name _ => Nat.zero_le 1) position
  have absent : ∀ other, after.tree.kind other ≠ .element "p" := by
    intro node
    by_cases new : node = id
    · rw [new, planted.kind_eq]
      exact fun same => other (Kind.element.inj same)
    · rw [planted.kind_of_ne new]
      exact vacant.absent node
  refine ⟨id, after, added, ⟨grown, ⟨there, ?_⟩, planted.onPath_new vacant.below, absent⟩,
    ⟨grown, vacant.host.keeps keeps, planted.onPath vacant.below, absent⟩⟩
  rw [planted.kind_eq]
  rfl

/-- An element that markup implies is left out or made. What succeeds below any node succeeds below it. -/
theorem succeeds_implied (vacant : Vacant root parent growth.tree) (implied : tag ∈ impliedTags)
    (goesOn : ∀ other position (after : Growth), Vacant root other after.tree → Vacant root parent after.tree →
      Grow.Succeeds (growAll plan other position children) after good) (position : Position) :
    Grow.Succeeds (grow plan parent position (.element tag .empty children)) growth good := by
  have valid : ∀ tag ∈ impliedTags, Name.isTag tag = true ∧ tag ≠ "p" := by decide
  rw [grow]
  refine (Grow.succeeds_locate tag growth).bind fun found after same => ?_
  rw [← same] at vacant
  split
  · exact goesOn parent position after vacant vacant
  · exact (vacant.wrap (valid tag implied).1 (valid tag implied).2 _).bind fun id after both =>
      goesOn id _ after both.1 both.2

/-! ## What is in the paragraph -/

/-- A tree that grows has one paragraph. -/
structure Writing (root id : NodeId) (given : List (String × List Segment)) (kinds : List Kind) (tree : Tree) : Prop
    extends HasParagraph root id given kinds tree where
  growing : Growing root tree
  present : tree.Has id

variable {given : List (String × List Segment)}

/-- The paragraph is made, with nothing in it. -/
theorem Vacant.write {attributes : List (String × String)} (vacant : Vacant root parent growth.tree)
    (can : CanMake (.element "p") attributes given)
    (single : ∀ name, Markup.isSmall name = true → (given.map Prod.fst).count name ≤ 1) (position : Position) :
    Grow.Succeeds (Grow.add parent position (.element "p") attributes) growth fun id after =>
      Writing root id given [] after.tree := by
  obtain ⟨id, after, added, grown, keeps, there, read, planted, shown⟩ := succeeds_add vacant.growing vacant.host
    can rfl nofun (fun name same => congrArg Kind.element (Option.some.inj same)) single position
  obtain ⟨place, made⟩ := planted.made
  refine ⟨id, after, added, ⟨planted.onPath_new vacant.below, fun other => ?_, ?_, ?_⟩, grown, there⟩
  · by_cases new : other = id
    · rw [new]
      exact iff_of_true planted.kind_eq rfl
    · rw [planted.kind_of_ne new]
      exact iff_of_false (vacant.absent other) new
  · rw [made, shown]
  · rw [Tree.children, made]
    rfl

/-- Text and code come behind what is in the paragraph. -/
theorem Writing.add (writing : Writing root id given kinds growth.tree) (checked : kind.check = .ok ())
    (content : kind.isContent = true) (other : kind ≠ .conditional) (untagged : kind.tag? = none) (position : Position) :
    Grow.Succeeds (do let _ ← Grow.add id position kind []) growth fun _ after =>
      Writing root id given (kinds ++ [kind]) after.tree := by
  have element := (writing.only id).2 rfl
  have host : Host id growth.tree := ⟨writing.present, by rw [element]; rfl⟩
  obtain ⟨new, after, added, grown, keeps, there, read, planted, -⟩ := succeeds_add writing.growing host
    (canMake_bare checked) content other (fun tag tagged => by rw [untagged] at tagged; cases tagged)
    (fun _ _ => Nat.zero_le 1) position
  refine Grow.Succeeds.bind ⟨new, after, added, ?_⟩ fun _ _ written => Grow.succeeds_pure written
  have old : ∀ child, growth.tree.Has child → child ≠ new := fun child has same => planted.new (same ▸ has)
  refine ⟨⟨planted.onPath writing.below, fun node => ?_, ?_, ?_⟩, grown, (keeps id writing.present).1⟩
  · by_cases isNew : node = new
    · rw [isNew, planted.kind_eq]
      refine iff_of_false ?_ (old id writing.present).symm
      rintro rfl
      cases untagged
    · rw [planted.kind_of_ne isNew]
      exact writing.only node
  · rw [planted.owner]
    exact writing.attributes
  · have same : (growth.tree.children id).map after.tree.kind = (growth.tree.children id).map growth.tree.kind :=
      List.map_congr_left fun child member =>
        planted.kind_of_ne (old child (has_of_parent ((writing.growing.wellFormed.linked id child).1 member)))
    rw [Tree.children, planted.owner, List.map_append, same, writing.children, List.map_singleton, planted.kind_eq]

/-- The parts of a text become the parts of the value that its pieces are, one for one. The induction is on the
pieces. -/
theorem succeeds_addParts (number : Nat) (read : Value.segmentsOf pieces = .ok segments)
    (known : (plan.sites.map Site.placeholder).drop number = pieces.filterMap Piece.code?)
    (writing : Writing root id given kinds growth.tree) (position : Position) :
    Grow.Succeeds (Grow.addParts plan id position (partsOf number pieces)) growth fun _ after =>
      Writing root id given (kinds ++ segments.map Segment.kind) after.tree := by
  induction pieces generalizing number segments kinds growth with
  | nil =>
      cases read
      rw [List.map_nil, List.append_nil]
      exact Grow.succeeds_pure writing
  | cons piece pieces hypothesis =>
      cases piece with
      | text source =>
          rw [Value.segmentsOf] at read
          split at read
          · next others rest =>
              cases read
              have added : Grow.Succeeds (Grow.addText id position source) growth fun _ after => Writing root id given
                  (kinds ++ [Kind.text (String.ofList (Placeholder.unescape source))]) after.tree :=
                writing.add rfl rfl (fun impossible => by cases impossible) rfl position
              rw [List.map_cons, List.append_cons]
              exact added.bind fun _ after written => hypothesis number rest known written
          · cases read
      | code placeholder =>
          rw [Value.segmentsOf] at read
          split at read
          · cases read
          · next checked =>
              split at read
              · next others rest =>
                  cases read
                  obtain ⟨site, found, rfl⟩ : ∃ site, plan.sites[number]? = some site ∧ site.placeholder = placeholder := by
                    have first : (plan.sites.map Site.placeholder)[number]? = some placeholder := by
                      rw [← Nat.add_zero number, ← List.getElem?_drop, known]
                      rfl
                    rwa [List.getElem?_map, Option.map_eq_some_iff] at first
                  have later : (plan.sites.map Site.placeholder).drop (number + 1) = pieces.filterMap Piece.code? := by
                    rw [← List.drop_drop, known]
                    rfl
                  have added : Grow.Succeeds (Grow.addPlaceholder id site) growth fun _ after => Writing root id given
                      (kinds ++ [Kind.placeholder site.placeholder.code site.placeholder.escape]) after.tree := by
                    unfold Grow.addPlaceholder
                    dsimp only
                    rw [checked]
                    exact writing.add (by rw [Kind.check, Kind.checkCode, checked]) rfl (fun impossible => by cases impossible) rfl
                      site.position
                  rw [List.map_cons, List.append_cons, partsOf, Grow.addParts, found]
                  exact added.bind fun _ after written => hypothesis (number + 1) rest later written
              · cases read

/-! ## The document around the paragraph -/

theorem succeeds_growAll_singleton {content : Content} (succeeds : Grow.Succeeds (grow plan parent position content) growth good) :
    Grow.Succeeds (growAll plan parent position [content]) growth good := by
  rw [growAll]
  refine succeeds.bind fun _ after meets => ?_
  rw [growAll]
  exact Grow.succeeds_pure meets

/-- A document with a paragraph in its body becomes a tree with a paragraph, whatever of the document is left out. -/
theorem succeeds_document {attributes : Attributes} (vacant : Vacant root parent growth.tree)
    (can : CanMake (.element "p") (plan.restoreAll attributes) given)
    (single : ∀ name, Markup.isSmall name = true → (given.map Prod.fst).count name ≤ 1)
    (inside : ∀ id position (after : Growth), Writing root id given [] after.tree →
      Grow.Succeeds (growAll plan id position children) after fun _ last => Writing root id given kinds last.tree)
    (position : Position) :
    Grow.Succeeds (growAll plan parent position (Markup.document attributes children)) growth fun _ after =>
      ∃ id, HasParagraph root id given kinds after.tree := by
  have paragraph : ∀ other position (after : Growth), Vacant root other after.tree →
      Grow.Succeeds (grow plan other position (.element "p" attributes children)) after fun _ last =>
        ∃ id, HasParagraph root id given kinds last.tree := by
    intro other position after vacant
    rw [grow]
    refine (Grow.succeeds_locate "p" after).bind fun found between same => ?_
    rw [← same] at vacant
    have written : impliedTags.contains "p" = false := by rfl
    rw [written, Bool.false_and, Bool.false_and, if_neg Bool.false_ne_true]
    refine (vacant.write can single _).bind fun id after writing => ?_
    obtain ⟨value, last, ran, ends⟩ := inside id _ after writing
    exact ⟨value, last, ran, id, ends.toHasParagraph⟩
  have implied : "html" ∈ impliedTags ∧ "head" ∈ impliedTags ∧ "body" ∈ impliedTags := by decide
  have body : ∀ other position (after : Growth), Vacant root other after.tree →
      Grow.Succeeds (grow plan other position (.element "body" .empty [.element "p" attributes children])) after fun _ last =>
        ∃ id, HasParagraph root id given kinds last.tree := fun other position after vacant =>
    succeeds_implied vacant implied.2.2
      (fun other place after vacant _ => succeeds_growAll_singleton (paragraph other place after vacant)) position
  have head : ∀ other position (after : Growth), Vacant root other after.tree →
      Grow.Succeeds (grow plan other position (.element "head" .empty [])) after fun _ last =>
        Vacant root other last.tree := by
    intro other position after vacant
    refine succeeds_implied vacant implied.2.1 (fun _ _ last _ vacant => ?_) position
    rw [growAll]
    exact Grow.succeeds_pure vacant
  refine succeeds_growAll_singleton (succeeds_implied vacant implied.1 (fun other place after vacant _ => ?_) position)
  rw [growAll]
  exact (head other place after vacant).bind fun _ last vacant =>
    succeeds_growAll_singleton (body other place last vacant)

variable {file source raw : String} {whole : List Piece} {value : Value}

/-- A source between plain texts is read if its markup grows, whatever plan has the placeholders of the source. -/
theorem readsParagraph_of_succeeds {front back : String} (cut : Placeholder.pieces raw.toList = .ok pieces)
    (opens : StandIn.Plain front.toList) (closes : StandIn.Plain back.toList) (stops : Placeholder.Stops back.toList)
    (grows : ∀ whole plan, Piece.Framed front.toList back.toList pieces whole →
      plan.sites.map Site.placeholder = pieces.filterMap Piece.code? →
      Grow.Succeeds (growAll plan ⟨0⟩ .first (contents whole)) { ahead := tagMarks .first whole, tree := seed file }
        fun _ after => ∃ id, HasParagraph ⟨0⟩ id given kinds after.tree) :
    ReadsParagraph file (front ++ raw ++ back) given kinds := by
  have shape : (front ++ raw ++ back).toList = front.toList ++ (raw.toList ++ back.toList) := by
    rw [String.toList_append, String.toList_append, List.append_assoc]
  obtain ⟨whole, cutWhole, framed⟩ := Placeholder.exists_framed cut opens closes stops
  rw [← shape] at cutWhole
  generalize front ++ raw ++ back = source at cutWhole ⊢
  obtain ⟨⟨⟩, after, ran, id, paragraph⟩ :=
    grows whole (planOf source.toList whole) framed ((codes_sites .first whole).trans framed.codes)
  refine ⟨⟨0⟩, after.tree, id, ?_, paragraph⟩
  unfold read
  rw [cutWhole]
  change ((growAll (planOf source.toList whole) ⟨0⟩ .first (contents whole) >>= fun _ => pure (⟨0⟩ : NodeId))
    { ahead := tagMarks .first whole, tree := seed file }).bind (fun done => .ok (done.1, done.2.tree)) =
      .ok (⟨0⟩, after.tree)
  rw [Grow.bind_apply, ran]
  rfl

/-! ## Both ways -/

/-- Between the tags of a paragraph, pieces leave one text for markup. -/
theorem contents_text (framed : Piece.Framed "<p>".toList "</p>".toList pieces whole)
    (plain : ∀ piece ∈ pieces, piece.IsPlain) : contents whole = Markup.document .empty
      (if (hide 0 pieces).isEmpty then [] else [.text (String.ofList (hide 0 pieces))]) := by
  have hidden := isPlain_hide plain 0
  have bracket : '<' ∉ hide 0 pieces := fun member => (hidden _ member).1 rfl
  have inside : ∀ c ∈ ['p'], SelfClosing.isInside c = true := List.forall_mem_singleton.2 rfl
  have tag : ∀ rest, Markup.readTag ('p' :: [] ++ '>' :: rest) = some ({ name := "p" }, rest) := fun rest => rfl
  rw [contents, framed.hidden]
  change Markup.read (SelfClosing.expand ('<' :: (['p'] ++ '>' :: (hide 0 pieces ++ "</p>".toList)))) = _
  rw [SelfClosing.expand_paragraph inside (by decide) bracket]
  exact Markup.read_paragraph tag List.not_mem_nil hidden

/-- Between the quotes of a title, pieces leave the value of that attribute for markup. -/
theorem contents_title (framed : Piece.Framed "<p title=\"".toList "\"></p>".toList pieces whole)
    (plain : ∀ piece ∈ pieces, piece.IsPlain) :
    contents whole = Markup.document (.one "title" (String.ofList (hide 0 pieces))) [] := by
  have hidden := isPlain_hide plain 0
  have fixed : ∀ c ∈ 'p' :: (" title=\"".toList ++ ['"']), SelfClosing.isInside c = true ∧ c ≠ '\r' := by
    have all : (('p' :: (" title=\"".toList ++ ['"'])).all fun c => SelfClosing.isInside c && c != '\r') = true := by
      rfl
    simpa only [List.all_eq_true, Bool.and_eq_true, bne_iff_ne] using all
  have whole : ∀ c ∈ 'p' :: (" title=\"".toList ++ hide 0 pieces ++ ['"']), SelfClosing.isInside c = true ∧ c ≠ '\r' := by
    intro c member
    by_cases among : c ∈ hide 0 pieces
    · obtain ⟨opens, closes, -, -, -, carriage⟩ := hidden c among
      exact ⟨by simp [SelfClosing.isInside, opens, closes], carriage⟩
    · refine fixed c ?_
      rw [List.mem_cons, List.mem_append, List.mem_append] at member
      rw [List.mem_cons, List.mem_append]
      exact member.imp_right (Or.imp_left fun either => either.resolve_right among)
  have last : ('p' :: (" title=\"".toList ++ hide 0 pieces ++ ['"'])).getLast? ≠ some '/' := by
    rw [← List.cons_append, List.getLast?_concat]
    decide
  have shape : "<p title=\"".toList ++ (hide 0 pieces ++ "\"></p>".toList) =
      '<' :: ('p' :: (" title=\"".toList ++ hide 0 pieces ++ ['"']) ++ '>' :: ([] ++ "</p>".toList)) := by
    rw [List.cons_append, List.append_assoc, List.append_assoc]
    rfl
  rw [contents, framed.hidden, shape, SelfClosing.expand_paragraph (fun c member => (whole c member).1) last
    List.not_mem_nil]
  refine Markup.read_paragraph (Markup.readTag_title hidden) (fun member => ?_) fun c none => absurd none List.not_mem_nil
  exact (whole _ (List.mem_cons_of_mem 'p' member)).2 rfl

theorem reads_text (parsed : Value.parse raw = .ok value) (cut : Placeholder.pieces raw.toList = .ok pieces)
    (plain : ∀ piece ∈ pieces, piece.IsPlain) (file : String) :
    ReadsParagraph file ("<p>" ++ raw ++ "</p>") [] (value.segments.map Segment.kind) := by
  obtain ⟨-, others, again, segmentsRead⟩ := Value.pieces_of_parse parsed
  obtain rfl := Except.ok.inj (cut.symm.trans again)
  refine readsParagraph_of_succeeds cut (by decide) (by decide) (by decide)
    fun whole plan framed known => ?_
  rw [contents_text framed plain]
  have texts : ∀ source, .text source ∈ pieces → source ≠ [] ∧ ¬opening <:+: source := fun source member =>
    ⟨Placeholder.ne_nil_of_mem_pieces cut member, (plain _ member).2⟩
  have found : parts plan.sites.length (hide 0 pieces) = partsOf 0 pieces := by
    refine parts_hide 0 (Placeholder.apart_of_pieces cut) texts ?_
    rw [Nat.zero_add, ← known, List.length_map]
  have can : CanMake (.element "p") (plan.restoreAll .empty) [] := canMake_bare (check_element (by decide))
  refine succeeds_document (vacant_seed file) can (fun _ _ => Nat.zero_le 1) (fun id position after writing => ?_) .first
  have added := succeeds_addParts 0 segmentsRead known writing position
  rw [← found, List.nil_append] at added
  split
  · next empty =>
      rw [List.isEmpty_iff.1 empty, parts_nil, Grow.addParts] at added
      rwa [growAll]
  · refine succeeds_growAll_singleton ?_
    rw [grow, String.toList_ofList]
    exact added

theorem reads_title (parsed : Value.parse raw = .ok value) (cut : Placeholder.pieces raw.toList = .ok pieces)
    (plain : ∀ piece ∈ pieces, piece.IsPlain) (file : String) :
    ReadsParagraph file ("<p title=\"" ++ raw ++ "\"></p>") [("title", value.segments)] [] := by
  refine readsParagraph_of_succeeds cut (by decide) (by decide) (by decide)
    fun whole plan framed known => ?_
  rw [contents_title framed plain]
  have restored : plan.restoreAll (.one "title" (String.ofList (hide 0 pieces))) = [("title", raw)] :=
    congrArg (fun text => [("title", text)]) (restore_plain cut plain known)
  have can : CanMake (.element "p") (plan.restoreAll (.one "title" (String.ofList (hide 0 pieces))))
      [("title", value.segments)] := by
    rw [restored]
    refine ⟨check_element (by decide), fun tree position => ⟨[{ name := "title", value, position }], ?_, rfl⟩⟩
    have allowed : isAttributeName "title" = true := by rfl
    have read : tree.readAttribute position "title" raw = .ok { name := "title", value, position } := by
      rw [Tree.readAttribute, Attribute.parse, if_pos allowed, parsed]
      rfl
    change (tree.readAttribute position "title" raw >>= fun first => pure [first]) = _
    rw [read]
    rfl
  have single : ∀ name, Markup.isSmall name = true → ([("title", value.segments)].map Prod.fst).count name ≤ 1 :=
    fun _ _ => List.count_le_length
  refine succeeds_document (vacant_seed file) can single (fun id position after writing => ?_) .first
  rw [growAll]
  exact Grow.succeeds_pure writing

/-- A source that is accepted as a value is read alike in a paragraph and in its title: its texts and its code become
the children of the one, and the value of the other. -/
theorem read_alike (parsed : Value.parse raw = .ok value) (cut : Placeholder.pieces raw.toList = .ok pieces)
    (plain : ∀ piece ∈ pieces, piece.IsPlain) (file : String) :
    ReadsParagraph file ("<p>" ++ raw ++ "</p>") [] (value.segments.map Segment.kind) ∧
      ReadsParagraph file ("<p title=\"" ++ raw ++ "\"></p>") [("title", value.segments)] [] :=
  ⟨reads_text parsed cut plain file, reads_title parsed cut plain file⟩

/-- Escaped and lone dollars, markup in code, what almost opens a stand-in, and a backslash at the end. -/
theorem read_alike_escaped :
    let raw := "\\$\x7ba\x7d $$!\x7bb < c\x7d__tpl_expr$\x7b\"</p>\"\x7d\\"
    let segments : List Segment :=
      [.static "$\x7ba\x7d $", .code "b < c" false, .static "__tpl_expr", .code "\"</p>\"" true, .static "\\"]
    ReadsParagraph "page" ("<p>" ++ raw ++ "</p>") [] (segments.map Segment.kind) ∧
      ReadsParagraph "page" ("<p title=\"" ++ raw ++ "\"></p>") [("title", segments)] [] := by
  intro raw segments
  have letters : raw.toList = _ := String.toList_ofList
  have isCut : (Placeholder.pieces raw.toList).toOption = some
      [.text "\\$\x7ba\x7d $".toList, .code { source := "$!\x7bb < c\x7d".toList, code := "b < c", escape := false },
       .text "__tpl_expr".toList, .code { source := "$\x7b\"</p>\"\x7d".toList, code := "\"</p>\"", escape := true },
       .text "\\".toList] := by
    rw [letters]
    decide +kernel
  cases cut : Placeholder.pieces raw.toList with
  | error failed =>
      rw [cut] at isCut
      cases isCut
  | ok pieces =>
      rw [cut] at isCut
      have known : pieces = _ := Option.some.inj isCut
      have divided : (Value.segmentsOf pieces).toOption = some segments := by
        rw [known]
        decide +kernel
      cases read : Value.segmentsOf pieces with
      | error failed =>
          rw [read] at divided
          cases divided
      | ok own =>
          rw [read] at divided
          have parsed : Value.parse raw = .ok { raw, segments := own } := by
            rw [Value.parse, cut]
            dsimp only
            rw [read]
          rw [← show own = segments from Option.some.inj divided]
          exact read_alike parsed cut (by rw [known]; decide) "page"

end Template
end HtmlTemplate
