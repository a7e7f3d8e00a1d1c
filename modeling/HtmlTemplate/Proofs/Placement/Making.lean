import HtmlTemplate.Proofs.Markup.Content
import HtmlTemplate.Proofs.Placement.Reading
import HtmlTemplate.Proofs.Tree.Effect

/-!
# What the nodes of a template are made of

The document aside, a node of a template is made of a piece of the content that the markup is read as. This module
says what is made of which content, and that nothing else is in the tree: properties of the nodes follow by cases.
-/

namespace HtmlTemplate
namespace Template

open HtmlTemplate.Tree
open Markup (Content)

variable {α β : Type} {holds : Tree → Prop} {plan : Plan} {whole : List Content}

/-! ## Properties of the tree that steps preserve -/

/-- What held of the tree holds after the step, if it succeeds. -/
def Grow.Preserves (holds : Tree → Prop) (work : Grow α) : Prop :=
  ∀ growth value after, work growth = .ok (value, after) → holds growth.tree → holds after.tree

namespace Grow

theorem bind_eq_ok {work : Grow α} {next : α → Grow β} {growth after : Growth} {value : β}
    (ran : (work >>= next) growth = .ok (value, after)) :
    ∃ first between, work growth = .ok (first, between) ∧ next first between = .ok (value, after) := by
  rw [bind_apply] at ran
  obtain ⟨⟨first, between⟩, began, rest⟩ := bind_eq_ok_iff.1 ran
  exact ⟨first, between, began, rest⟩

theorem preserves_pure (value : α) : Preserves holds (pure value : Grow α) := by
  intro growth _ _ ran before
  cases ran
  exact before

theorem Preserves.bind {work : Grow α} {next : α → Grow β} (begins : Preserves holds work)
    (goesOn : ∀ value, Preserves holds (next value)) : Preserves holds (work >>= next) := by
  intro growth value after ran before
  obtain ⟨first, between, began, rest⟩ := bind_eq_ok ran
  exact goesOn first between value after rest (begins growth first between began before)

theorem preserves_get_bind {next : Growth → Grow β}
    (goesOn : ∀ growth value after, next growth growth = .ok (value, after) → holds growth.tree → holds after.tree) :
    Preserves holds (get >>= next) :=
  goesOn

theorem preserves_locate (tag : String) : Preserves holds (locate tag) := by
  unfold locate
  refine preserves_get_bind fun growth value after ran before => ?_
  generalize findTag? ('<' :: tag.toLower.toList) growth.ahead = found at ran
  cases found <;> cases ran <;> exact before

theorem add_eq_ok {parent id : NodeId} {position : Position} {kind : Kind} {attributes : List (String × String)}
    {growth after : Growth} (ran : add parent position kind attributes growth = .ok (id, after)) :
    ∃ made, growth.tree.create position kind attributes [] = .ok made ∧
      made.2.append parent made.1 = .ok after.tree ∧ after.ahead = growth.ahead := by
  change ((liftM (growth.tree.create position kind attributes []) : Grow (NodeId × Tree)) >>= fun made =>
    (liftM (made.2.append parent made.1) : Grow Tree) >>= fun tree =>
      (set { growth with tree } : Grow Unit) >>= fun _ => pure made.1) growth = _ at ran
  cases created : growth.tree.create position kind attributes [] with
  | error fault =>
      rw [created] at ran
      cases ran
  | ok made =>
      rw [created] at ran
      change ((liftM (made.2.append parent made.1) : Grow Tree) >>= fun tree =>
        (set { growth with tree } : Grow Unit) >>= fun _ => pure made.1) growth = _ at ran
      cases appended : made.2.append parent made.1 with
      | error fault =>
          rw [appended] at ran
          cases ran
      | ok tree =>
          rw [appended] at ran
          cases ran
          exact ⟨made, rfl, appended, rfl⟩

end Grow

/-! ## Nodes that are added -/

theorem append_eq {tree next : Tree} {parent child : NodeId} (appended : tree.append parent child = .ok next) :
    next = (tree.setParent (some parent) child).setChildren parent (tree.children parent ++ [child]) := by
  unfold Tree.append at appended
  simp only [bind_eq_ok_iff] at appended
  obtain ⟨-, -, -, -, -, -, equal⟩ := appended
  exact (Except.ok.inj equal).symm

/-- The attributes of a node that is added have the names that are given, and values that were parsed. -/
theorem mem_of_mapM_readAttribute {tree : Tree} {position : Position} {attributes : List (String × String)}
    {read : List Attribute} {given : Attribute}
    (ran : attributes.mapM (fun (name, raw) => tree.readAttribute position name raw) = .ok read)
    (member : given ∈ read) :
    ∃ written ∈ attributes, given.name = written.1 ∧ Value.parse written.2 = .ok given.value := by
  have pairs := mapM_eq_ok_iff.1 ran
  clear ran
  induction pairs with
  | nil => cases member
  | cons began _ hypothesis =>
      rcases List.mem_cons.1 member with rfl | later
      · have isRead := readAttribute_eq_ok_iff.1 began
        exact ⟨_, List.mem_cons_self, isRead.name, isRead.value⟩
      · obtain ⟨written, among, parsed⟩ := hypothesis later
        exact ⟨written, List.mem_cons_of_mem _ among, parsed⟩

/-- A node that is added leaves the kinds and the attributes of all others as they are. -/
theorem Grow.node_of_add {parent id : NodeId} {position : Position} {kind : Kind}
    {attributes : List (String × String)} {growth after : Growth}
    (ran : Grow.add parent position kind attributes growth = .ok (id, after)) :
    ∃ read, attributes.mapM (fun (name, raw) => growth.tree.readAttribute position name raw) = .ok read ∧
      ∀ other, (after.tree.kind other = kind ∧ (after.tree.node other).attributes = read) ∨
        after.tree.kind other = growth.tree.kind other ∧
          (after.tree.node other).attributes = (growth.tree.node other).attributes := by
  obtain ⟨made, created, appended, -⟩ := Grow.add_eq_ok ran
  obtain ⟨read, -, attributesRead, -, -, -, rfl⟩ := create_eq_ok_iff.1 created
  refine ⟨read, attributesRead, fun other => ?_⟩
  rw [append_eq appended, kind_setChildren, kind_setParent, attributes_setChildren, attributes_setParent, setParents,
    List.foldl_nil, Tree.kind]
  by_cases new : other = ⟨growth.tree.size⟩
  · rw [new, node_push_self]
    exact .inl ⟨rfl, rfl⟩
  · rw [node_push_of_ne new]
    exact .inr ⟨rfl, rfl⟩

/-! ## What is made of content -/

/-- Of this content a node of this kind and with these attributes is made. -/
inductive Makes (plan : Plan) : Content → Kind → List Attribute → Prop
  | doctype (name : String) : Makes plan (.doctype name) (.doctype name) []
  | comment (value : String) : Makes plan (.comment value) (.comment (plan.restore value) false) []
  | text {value : String} {part : List Char} (among : .text part ∈ StandIn.parts plan.sites.length value.toList) :
      Makes plan (.text value) (.text (String.ofList (Placeholder.unescape part))) []
  | placeholder {value : String} {site : Site} (known : site ∈ plan.sites) :
      Makes plan (.text value) (.placeholder site.placeholder.code site.placeholder.escape) []
  | element {tag : String} {attributes : Markup.Attributes} {children : List Content} {read : List Attribute}
      (written : ∀ given ∈ read, ∃ source ∈ attributes.list,
        given.name = source.1 ∧ Value.parse (plan.restore source.2) = .ok given.value) :
      Makes plan (.element tag attributes children) (.element tag) read

/-- Placeholders are those of the plan. -/
theorem Makes.site {content : Content} {code : String} {escape : Bool} {read : List Attribute}
    (makes : Makes plan content (.placeholder code escape) read) :
    ∃ site ∈ plan.sites, site.placeholder.code = code ∧ site.placeholder.escape = escape := by
  cases makes with
  | placeholder known => exact ⟨_, known, rfl, rfl⟩

/-- Attributes are those that an element is written with. -/
theorem Makes.attribute {content : Content} {kind : Kind} {read : List Attribute} {given : Attribute}
    (makes : Makes plan content kind read) (member : given ∈ read) :
    ∃ tag attributes children, content = .element tag attributes children ∧ ∃ source ∈ attributes.list,
      given.name = source.1 ∧ Value.parse (plan.restore source.2) = .ok given.value := by
  cases makes with
  | element written => exact ⟨_, _, _, rfl, written given member⟩
  | _ => cases member

/-- Every node is a document without attributes, or made of some of the content. -/
def MadeOf (plan : Plan) (whole : List Content) (tree : Tree) : Prop :=
  ∀ id, (tree.kind id = .document ∧ (tree.node id).attributes = []) ∨
    ∃ content ∈ Content.deepAll whole, Makes plan content (tree.kind id) (tree.node id).attributes

theorem preserves_add {parent : NodeId} {position : Position} {kind : Kind} {attributes : List (String × String)}
    {content : Content} (among : content ∈ Content.deepAll whole)
    (makes : ∀ read, (∀ given ∈ read, ∃ written ∈ attributes,
      given.name = written.1 ∧ Value.parse written.2 = .ok given.value) → Makes plan content kind read) :
    Grow.Preserves (MadeOf plan whole) (Grow.add parent position kind attributes) := by
  intro growth id after ran before other
  obtain ⟨read, ended, nodes⟩ := Grow.node_of_add ran
  rcases nodes other with ⟨new, given⟩ | ⟨old, kept⟩
  · rw [new, given]
    exact .inr ⟨content, among, makes read fun given present => mem_of_mapM_readAttribute ended present⟩
  · rw [old, kept]
    exact before other

theorem preserves_addUntagged {parent : NodeId} {position : Position} {kind : Kind} {content : Content}
    (among : content ∈ Content.deepAll whole) (makes : Makes plan content kind []) :
    Grow.Preserves (MadeOf plan whole) (do let _ ← Grow.add parent position kind []) := by
  refine (preserves_add among fun read written => ?_).bind fun _ => Grow.preserves_pure _
  have none : read = [] := List.eq_nil_iff_forall_not_mem.2 fun given member => by
    obtain ⟨source, impossible, -⟩ := written given member
    cases impossible
  rw [none]
  exact makes

theorem preserves_addParts (parent : NodeId) (position : Position) {value : String}
    (among : .text value ∈ Content.deepAll whole) (parts : List StandIn.Part)
    (these : parts ⊆ StandIn.parts plan.sites.length value.toList) :
    Grow.Preserves (MadeOf plan whole) (Grow.addParts plan parent position parts) := by
  induction parts with
  | nil => exact Grow.preserves_pure ()
  | cons part parts hypothesis =>
      obtain ⟨this, others⟩ := List.cons_subset.1 these
      cases part with
      | text part => exact (preserves_addUntagged among (.text this)).bind fun _ => hypothesis others
      | standIn number =>
          unfold Grow.addParts
          split
          · next site found =>
              refine Grow.Preserves.bind ?_ fun _ => hypothesis others
              unfold Grow.addPlaceholder
              dsimp only
              cases Code.check site.placeholder.code with
              | error fault => exact Grow.preserves_get_bind fun _ _ _ ran _ => by cases ran
              | ok done => exact preserves_addUntagged among (.placeholder (List.mem_of_getElem? found))
          · exact Grow.Preserves.bind (Grow.preserves_pure ()) fun _ => hypothesis others

mutual

/-- What is added for a piece of content is made of it. The induction is on the content. -/
theorem preserves_grow : ∀ (content : Content) (parent : NodeId) (position : Position),
    content.deep ⊆ Content.deepAll whole → Grow.Preserves (MadeOf plan whole) (grow plan parent position content)
  | .doctype name, parent, position, among => by
      rw [grow]
      exact preserves_addUntagged (among List.mem_cons_self) (.doctype name)
  | .text value, parent, position, among => by
      rw [grow]
      exact preserves_addParts parent position (among List.mem_cons_self) _ (List.Subset.refl _)
  | .comment value, parent, position, among => by
      rw [grow]
      exact preserves_addUntagged (among List.mem_cons_self) (.comment value)
  | .element tag attributes children, parent, position, among => by
      rw [Content.deep] at among
      obtain ⟨this, below⟩ := List.cons_subset.1 among
      rw [grow]
      refine (Grow.preserves_locate tag).bind fun found => ?_
      split
      · exact preserves_growAll children parent position below
      · refine (preserves_add this fun read written => .element fun given member => ?_).bind fun id =>
          preserves_growAll children id _ below
        obtain ⟨restored, present, named, parsed⟩ := written given member
        obtain ⟨source, source_mem, rfl⟩ := List.mem_map.1 present
        exact ⟨source, source_mem, named, parsed⟩

/-- What is added for pieces of content is made of them. -/
theorem preserves_growAll : ∀ (contents : List Content) (parent : NodeId) (position : Position),
    Content.deepAll contents ⊆ Content.deepAll whole →
      Grow.Preserves (MadeOf plan whole) (growAll plan parent position contents)
  | [], parent, position, _ => by
      rw [growAll]
      exact Grow.preserves_pure ()
  | content :: contents, parent, position, among => by
      rw [Content.deepAll, List.append_subset] at among
      rw [growAll]
      exact (preserves_grow content parent position among.1).bind fun _ =>
        preserves_growAll contents parent position among.2

end

/-! ## Templates -/

/-- What is known about a source that was cut into pieces. -/
def planOf (source : List Char) (pieces : List Piece) : Plan where
  sites := sites .first pieces
  rootless := !Template.holds "<html".toList (source.map Char.toLower)

/-- What the markup of a source says, with stand-ins for its placeholders. -/
def contents (pieces : List Piece) : List Content :=
  Markup.read (SelfClosing.expand (StandIn.hide 0 pieces))

variable {file source : String} {root : NodeId} {tree : Tree} {pieces : List Piece}

/-- The tree that templates grow from: a document, and nothing else. -/
def seed (file : String) : Tree :=
  (({ file } : Tree).push { kind := .document, position := .first }).2

/-- Reading a template adds what its markup says to a document. -/
theorem growAll_of_read (cut : Placeholder.pieces source.toList = .ok pieces) (ran : read file source = .ok (root, tree)) :
    ∃ after, growAll (planOf source.toList pieces) ⟨0⟩ .first (contents pieces)
      { ahead := tagMarks .first pieces, tree := seed file } = .ok ((), after) ∧ tree = after.tree := by
  unfold read at ran
  rw [cut] at ran
  change ((growAll (planOf source.toList pieces) ⟨0⟩ .first (contents pieces) >>= fun _ => pure (⟨0⟩ : NodeId))
    { ahead := tagMarks .first pieces, tree := seed file }).bind (fun done => .ok (done.1, done.2.tree)) =
      .ok (root, tree) at ran
  obtain ⟨⟨value, after⟩, went, done⟩ := bind_eq_ok_iff.1 ran
  cases done
  obtain ⟨⟨⟩, between, grown, rest⟩ := Grow.bind_eq_ok went
  cases rest
  exact ⟨after, grown, rfl⟩

/-- The tree of a template is made of what its markup says. -/
theorem madeOf_of_read (cut : Placeholder.pieces source.toList = .ok pieces) (ran : read file source = .ok (root, tree)) :
    MadeOf (planOf source.toList pieces) (contents pieces) tree := by
  have document : MadeOf (planOf source.toList pieces) (contents pieces) (seed file) := by
    intro id
    by_cases same : id = ⟨0⟩
    · rw [same]
      exact .inl ⟨rfl, rfl⟩
    · have absent : ¬({ file } : Tree).Has id := Nat.not_lt_zero id.index
      rw [seed, Tree.kind, @node_push_of_ne { file } { kind := .document, position := .first } id same,
        node_of_not_has absent]
      exact .inl ⟨rfl, rfl⟩
  obtain ⟨after, grown, rfl⟩ := growAll_of_read cut ran
  exact preserves_growAll _ _ _ (List.Subset.refl _) _ _ _ grown document

/-! ## What every addition preserves -/

theorem preserves_addParts_of_add
    (adds : ∀ parent position kind attributes, Grow.Preserves holds (Grow.add parent position kind attributes))
    (plan : Plan) (parent : NodeId) (position : Position) (parts : List StandIn.Part) :
    Grow.Preserves holds (Grow.addParts plan parent position parts) := by
  induction parts with
  | nil => exact Grow.preserves_pure ()
  | cons part parts hypothesis =>
      cases part with
      | text part => exact ((adds _ _ _ _).bind fun _ => Grow.preserves_pure _).bind fun _ => hypothesis
      | standIn number =>
          unfold Grow.addParts
          split
          · next site _ =>
              refine Grow.Preserves.bind ?_ fun _ => hypothesis
              unfold Grow.addPlaceholder
              dsimp only
              cases Code.check site.placeholder.code with
              | error fault => exact Grow.preserves_get_bind fun _ _ _ ran _ => by cases ran
              | ok done => exact (adds _ _ _ _).bind fun _ => Grow.preserves_pure _
          · exact Grow.Preserves.bind (Grow.preserves_pure ()) fun _ => hypothesis

mutual

/-- What holds of a tree after each node that is added holds when all of a piece of content has been added. -/
theorem preserves_grow_of_add
    (adds : ∀ parent position kind attributes, Grow.Preserves holds (Grow.add parent position kind attributes))
    (plan : Plan) : ∀ (content : Content) (parent : NodeId) (position : Position),
      Grow.Preserves holds (grow plan parent position content)
  | .doctype name, parent, position => by
      rw [grow]
      exact (adds _ _ _ _).bind fun _ => Grow.preserves_pure _
  | .text value, parent, position => by
      rw [grow]
      exact preserves_addParts_of_add adds plan parent position _
  | .comment value, parent, position => by
      rw [grow]
      exact (adds _ _ _ _).bind fun _ => Grow.preserves_pure _
  | .element tag attributes children, parent, position => by
      rw [grow]
      refine (Grow.preserves_locate tag).bind fun found => ?_
      split
      · exact preserves_growAll_of_add adds plan children parent position
      · exact (adds _ _ _ _).bind fun id => preserves_growAll_of_add adds plan children id _

/-- The same for pieces of content. -/
theorem preserves_growAll_of_add
    (adds : ∀ parent position kind attributes, Grow.Preserves holds (Grow.add parent position kind attributes))
    (plan : Plan) : ∀ (contents : List Content) (parent : NodeId) (position : Position),
      Grow.Preserves holds (growAll plan parent position contents)
  | [], parent, position => by
      rw [growAll]
      exact Grow.preserves_pure ()
  | content :: contents, parent, position => by
      rw [growAll]
      exact (preserves_grow_of_add adds plan content parent position).bind fun _ =>
        preserves_growAll_of_add adds plan contents parent position

end

/-- What holds of a lone document, and after each node that is added, holds of every template that is read. -/
theorem holds_of_read
    (adds : ∀ parent position kind attributes, Grow.Preserves holds (Grow.add parent position kind attributes))
    (begins : holds (seed file)) (ran : read file source = .ok (root, tree)) : holds tree := by
  cases cut : Placeholder.pieces source.toList with
  | error malformed =>
      unfold read at ran
      rw [cut] at ran
      cases ran
  | ok pieces =>
      obtain ⟨after, grown, rfl⟩ := growAll_of_read cut ran
      exact preserves_growAll_of_add adds _ _ _ _ _ _ _ grown begins

end Template
end HtmlTemplate
