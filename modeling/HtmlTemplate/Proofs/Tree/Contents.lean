import HtmlTemplate.Proofs.Markup.Comment
import HtmlTemplate.Proofs.Naming.Hygiene
import HtmlTemplate.Proofs.Placement.Origin
import HtmlTemplate.Proofs.Tree.Editing

/-!
# What nodes hold

Kinds and attributes come into a tree when nodes are made, are turned into some of another kind, or have an attribute
set. All other edits leave nodes what they hold, take an attribute away or repeat in a copy what a node holds. So
whatever is checked on these ways in holds of every node at any time.
-/

namespace HtmlTemplate

namespace Tree

variable {tree after : Tree} {edit : Edit}

/-! ## What an edit leaves in nodes -/

theorem Edit.Effect.leaves (effect : edit.Effect tree after) (id : NodeId) :
    edit.Leaves tree (after.kind id) (after.node id).attributes := by
  cases effect with
  | links links _ =>
      rw [Tree.kind, links.node]
      exact .kept id
  | @contents target node _ changed leaves =>
      rw [Tree.kind, changed.node]
      by_cases same : id = target
      · rw [same, Function.update_self]
        exact leaves
      · rw [Function.update_of_ne same]
        exact .kept id
  | @made new children _ joined leaves =>
      by_cases isNew : id = ⟨tree.size⟩
      · rw [Tree.kind, isNew, joined.new]
        exact leaves
      · by_cases member : id ∈ children
        · rw [Tree.kind, joined.adopted id member]
          exact .kept id
        · rw [Tree.kind, joined.others id member isNew]
          exact .kept id
  | copied _ repeated =>
      obtain ⟨original, kind, attributes⟩ := repeated id
      rw [kind, attributes]
      exact .kept original

/-- What holds of all that nodes hold, and of all that edits leave in nodes, holds after the edits. -/
theorem WellFormed.contents_afterEdits {motive : Kind → List Attribute → Prop} (wellFormed : tree.WellFormed)
    {edits : List Edit} (start : ∀ id, motive (tree.kind id) (tree.node id).attributes)
    (step : ∀ edit ∈ edits, ∀ before : Tree, (∀ id, motive (before.kind id) (before.node id).attributes) →
      ∀ kind attributes, edit.Leaves before kind attributes → motive kind attributes) (id : NodeId) :
    motive ((tree.afterEdits edits).kind id) ((tree.afterEdits edits).node id).attributes := by
  induction edits generalizing tree with
  | nil => exact start id
  | cons edit edits hypothesis =>
      obtain ⟨first, rest⟩ := List.forall_mem_cons.1 step
      refine hypothesis (edit.wellFormed_run wellFormed) (fun other => ?_) rest
      refine edit.run_induction tree (motive := fun after => motive (after.kind other) (after.node other).attributes)
        (start other) fun after present made => ?_
      exact first tree start _ _ ((edit.effect_apply wellFormed present made).leaves other)

end Tree

/-! ## What is checked -/

/-- Names are names, code is code, a comment ends where it says, and a custom tag has somebody to render it. -/
def Kind.Sound : Kind → Prop
  | element tag => Name.isTag tag = true
  | customTag name renderer => Name.isTag name = true ∧ Text.isBlank renderer.toList = false
  | comment value true =>
      hasDoubleDash value.toList = false ∧ value.toList.head? ≠ some '>' ∧ value.toList.getLast? ≠ some '-'
  | placeholder code _ => Code.check code = .ok ()
  | branch (some test) => Code.check test = .ok ()
  | iteration item index source =>
      Name.isIdentifier item = true ∧ (∀ name ∈ index, Name.isIdentifier name = true) ∧ Code.check source = .ok ()
  | _ => True

theorem Kind.checkCode_eq_ok_iff {role : CodeRole} {code : String} :
    checkCode role code = .ok () ↔ Code.check code = .ok () := by
  unfold checkCode
  cases Code.check code <;> simp

theorem Kind.checkTag_eq_ok_iff {tag : String} : checkTag tag = .ok () ↔ Name.isTag tag = true := by
  simp [checkTag]

theorem Kind.checkVariable_eq_ok_iff {name : String} : checkVariable name = .ok () ↔ Name.isIdentifier name = true := by
  simp [checkVariable]

/-- The check of a kind passes exactly the kinds that are sound. -/
theorem Kind.check_eq_ok_iff {kind : Kind} : kind.check = .ok () ↔ kind.Sound := by
  cases kind with
  | element tag => exact checkTag_eq_ok_iff
  | customTag name renderer =>
      simp [check, Sound, check_bind_eq_ok_iff, checkTag_eq_ok_iff]
  | comment value emit =>
      cases emit with
      | false => exact ⟨fun _ => trivial, fun _ => rfl⟩
      | true => exact check_comment_iff
  | placeholder code escape => exact checkCode_eq_ok_iff
  | branch test =>
      cases test with
      | none => exact ⟨fun _ => trivial, fun _ => rfl⟩
      | some test => exact checkCode_eq_ok_iff
  | iteration item index source =>
      cases index with
      | none => simp [check, Sound, check_bind_eq_ok_iff, checkVariable_eq_ok_iff, checkCode_eq_ok_iff]
      | some name => simp [check, Sound, check_bind_eq_ok_iff, checkVariable_eq_ok_iff, checkCode_eq_ok_iff]
  | _ => exact ⟨fun _ => trivial, fun _ => rfl⟩

/-- An attribute with the name of one, whose value is what its source is read as. -/
structure Attribute.Sound (given : Attribute) : Prop where
  name : isAttributeName given.name = true
  value : Value.parse given.value.raw = .ok given.value

theorem Attribute.IsRead.sound {position : Position} {given : String × String} {read : Attribute}
    (isRead : IsRead position given read) : read.Sound where
  name := isRead.name ▸ isRead.allowed
  value := by
    rw [(Value.pieces_of_parse isRead.value).1]
    exact isRead.value

theorem Tree.mem_putAttribute {value other : Attribute} {attributes : List Attribute}
    (member : other ∈ putAttribute value attributes) : other = value ∨ other ∈ attributes := by
  induction attributes with
  | nil => exact .inl (List.mem_singleton.1 member)
  | cons first rest hypothesis =>
      rw [putAttribute] at member
      split at member
      · exact (List.mem_cons.1 member).imp_right (List.mem_cons_of_mem _)
      · rcases List.mem_cons.1 member with rfl | later
        · exact .inr List.mem_cons_self
        · exact (hypothesis later).imp_right (List.mem_cons_of_mem _)

/-- The code in a value that was read passes the check of code. -/
theorem Value.check_of_mem_segments {raw : String} {value : Value} (parsed : Value.parse raw = .ok value)
    {code : String} {escape : Bool} (member : .code code escape ∈ value.segments) : Code.check code = .ok () := by
  obtain ⟨-, pieces, -, read⟩ := pieces_of_parse parsed
  rcases piece_of_mem_segmentsOf read member with ⟨source, -, impossible⟩ | ⟨placeholder, -, same, checked⟩
  · cases impossible
  · obtain ⟨rfl, -⟩ := Segment.code.inj same
    exact checked

/-- What an edit leaves in a node is sound if nodes held nothing else before. -/
theorem Tree.Edit.Leaves.sound {tree : Tree} {edit : Edit} {kind : Kind} {attributes : List Attribute}
    (leaves : edit.Leaves tree kind attributes)
    (before : ∀ id, (tree.kind id).check = .ok () ∧ ∀ given ∈ (tree.node id).attributes, given.Sound) :
    kind.check = .ok () ∧ ∀ given ∈ attributes, given.Sound := by
  cases leaves with
  | kept id => exact before id
  | made checked read =>
      obtain ⟨sound, -⟩ := (List.forall₂_and_left _ _).1 (read.flip.imp fun _ _ isRead => ⟨isRead.sound, isRead⟩)
      exact ⟨checked, sound⟩
  | @turned id kind checked => exact ⟨checked, (before id).2⟩
  | @put id name raw read isRead =>
      refine ⟨(before id).1, fun given member => ?_⟩
      rcases Tree.mem_putAttribute member with rfl | old
      · exact isRead.sound
      · exact (before id).2 given old
  | @taken id name => exact ⟨(before id).1, fun given member => (before id).2 given (List.mem_of_mem_eraseP member)⟩

/-- Whatever edits were made, the kind of every node passes the check of kinds, and every attribute has a name that may
be one and is valued as its source is read, with code that passes the check of code. -/
theorem Tree.contents_sound (file : String) (edits : List Edit) (id : NodeId) :
    let node := (({ file } : Tree).afterEdits edits).node id
    node.kind.check = .ok () ∧ node.kind.Sound ∧
      ∀ given ∈ node.attributes, isAttributeName given.name = true ∧ Value.parse given.value.raw = .ok given.value ∧
        ∀ code escape, .code code escape ∈ given.value.segments → Code.check code = .ok () := by
  intro node
  have empty : ({ file } : Tree).WellFormed := wellFormed_afterEdits file []
  obtain ⟨checked, sound⟩ : node.kind.check = .ok () ∧ ∀ given ∈ node.attributes, given.Sound :=
    empty.contents_afterEdits
      (motive := fun kind attributes => kind.check = .ok () ∧ ∀ given ∈ attributes, given.Sound)
      (fun _ => ⟨rfl, fun _ impossible => absurd impossible List.not_mem_nil⟩)
      (fun _ _ _ before _ _ leaves => leaves.sound before) id
  refine ⟨checked, Kind.check_eq_ok_iff.1 checked, fun given member => ?_⟩
  obtain ⟨name, value⟩ := sound given member
  exact ⟨name, value, fun _ _ among => Value.check_of_mem_segments value among⟩

/-!
## Names of attributes

An attribute that is set takes the place of the one with its name, so that no name comes up twice. Only a new node may
be given two attributes of one name; it keeps both of them, and shows the later one when the first one is removed.
As long as no node is made in this way, the attributes of every node are a map from names to values.
-/

namespace Tree

/-! ### Lists of attributes -/

variable {value : Attribute} {attributes : List Attribute} {name : String}

theorem names_putAttribute (value : Attribute) (attributes : List Attribute) :
    (putAttribute value attributes).map Attribute.name =
      if value.name ∈ attributes.map Attribute.name then attributes.map Attribute.name
      else attributes.map Attribute.name ++ [value.name] := by
  induction attributes with
  | nil => rfl
  | cons first rest hypothesis =>
      rw [putAttribute]
      by_cases same : first.name = value.name
      · simp [same]
      · rw [if_neg (mt beq_iff_eq.1 same), List.map_cons, hypothesis]
        by_cases later : value.name ∈ rest.map Attribute.name <;> simp [later, Ne.symm same]

theorem nodup_putAttribute (value : Attribute) (once : (attributes.map Attribute.name).Nodup) :
    ((putAttribute value attributes).map Attribute.name).Nodup := by
  rw [names_putAttribute]
  split
  · exact once
  · next absent =>
      rw [← List.concat_eq_append]
      exact once.concat absent

theorem find?_putAttribute (value : Attribute) (attributes : List Attribute) :
    (putAttribute value attributes).find? (fun candidate => candidate.name == value.name) = some value := by
  induction attributes with
  | nil => simp [putAttribute]
  | cons first rest hypothesis =>
      rw [putAttribute]
      by_cases same : first.name = value.name
      · simp [same]
      · rw [if_neg (mt beq_iff_eq.1 same), List.find?_cons_of_neg (by simpa using same), hypothesis]

theorem filter_putAttribute (value : Attribute) (attributes : List Attribute) :
    (putAttribute value attributes).filter (fun other => other.name != value.name) =
      attributes.filter fun other => other.name != value.name := by
  induction attributes with
  | nil => simp [putAttribute]
  | cons first rest hypothesis =>
      rw [putAttribute]
      by_cases same : first.name = value.name
      · simp [same]
      · simp [same, hypothesis]

/-- Where no name comes up twice, the first attribute of a name is all that there is of it. -/
theorem eraseP_eq_filter (once : (attributes.map Attribute.name).Nodup) :
    attributes.eraseP (fun candidate => candidate.name == name) = attributes.filter fun other => other.name != name := by
  induction attributes with
  | nil => rfl
  | cons first rest hypothesis =>
      obtain ⟨absent, restOnce⟩ := List.nodup_cons.1 once
      by_cases same : first.name = name
      · subst same
        rw [List.eraseP_cons_of_pos (by simp), List.filter_cons_of_neg (by simp)]
        refine (List.filter_eq_self.2 fun other member => ?_).symm
        exact bne_iff_ne.2 fun equal => absent (equal ▸ List.mem_map_of_mem member)
      · rw [List.eraseP_cons_of_neg (by simpa using same), List.filter_cons_of_pos (by simpa using same),
          hypothesis restOnce]

/-! ### Names after edits -/

/-- The edit makes no node with two attributes of one name. -/
def Edit.NamesOnce : Edit → Prop
  | create _ _ attributes _ => (attributes.map Prod.fst).Nodup
  | _ => True

theorem Edit.Leaves.namesOnce {tree : Tree} {edit : Edit} {kind : Kind} (leaves : edit.Leaves tree kind attributes)
    (once : edit.NamesOnce) (before : ∀ id, ((tree.node id).attributes.map Attribute.name).Nodup) :
    (attributes.map Attribute.name).Nodup := by
  cases leaves with
  | kept id => exact before id
  | @made position kind given children read checked attributesRead =>
      rw [Attribute.names_eq_of_isRead attributesRead]
      exact once
  | @turned id kind checked => exact before id
  | @put id name raw read isRead => exact nodup_putAttribute read (before id)
  | @taken id name => exact (List.eraseP_sublist.map Attribute.name).nodup (before id)

theorem nodup_names_afterEdits (file : String) {edits : List Edit} (once : ∀ edit ∈ edits, edit.NamesOnce) (id : NodeId) :
    (((({ file } : Tree).afterEdits edits).node id).attributes.map Attribute.name).Nodup :=
  (wellFormed_afterEdits file []).contents_afterEdits
    (motive := fun _ attributes => (attributes.map Attribute.name).Nodup) (fun _ => List.nodup_nil)
    (fun edit member _ before _ _ leaves => leaves.namesOnce (once edit member) before) id

end Tree

/-! ### Names in what is written -/

/-- An element, or a call of a tag, is given no two attributes of one name. -/
def Fragment.NamesOnce : Fragment → Prop
  | element _ attributes _ => (attributes.map WrittenAttribute.name).Nodup
  | tagCall _ _ attributes _ => (attributes.map WrittenAttribute.name).Nodup
  | _ => True

namespace Lowering

open Fragment (NamesOnce Throughout throughout_nil throughout_singleton)

variable {tree : Tree} {choices : Preservation}

theorem nodup_names_written {node : Node} (once : (node.attributes.map Attribute.name).Nodup) (scope : Scope) :
    ((node.attributes.map (writtenAttribute scope)).map WrittenAttribute.name).Nodup := by
  rw [List.map_map]
  exact once

mutual

/-- The fragments of a node have the attributes of the nodes that they come from. -/
theorem Lowers.namesOnce (once : ∀ id, ((tree.node id).attributes.map Attribute.name).Nodup) {region : Region}
    {id : NodeId} {before after : Scope} {fragments : List Fragment} :
    Lowers tree choices region id before fragments after → Throughout NamesOnce fragments
  | .document _ _ inside => inside.namesOnce once
  | .element _ inside =>
      throughout_singleton (nodup_names_written (once id) before) fun | _, .element => inside.namesOnce once
  | .customTag _ _ inside =>
      throughout_singleton (nodup_names_written (once id) _) fun | _, .tagCall => inside.namesOnce once
  | .text _ => throughout_textFragment (fun _ _ => trivial) _ _
  | .placeholder _ => throughout_singleton trivial fun _ body => nomatch body
  | .conditional _ inside =>
      throughout_singleton trivial fun | _, .branch among => inside.namesOnce once _ among
  | .iteration _ _ inside => throughout_singleton trivial fun | _, .loop => inside.namesOnce once
  | .comment _ => throughout_singleton trivial fun _ body => nomatch body
  | .doctype _ => throughout_singleton trivial fun _ body => nomatch body

theorem LowersAll.namesOnce (once : ∀ id, ((tree.node id).attributes.map Attribute.name).Nodup) {region : Region}
    {ids : List NodeId} {before after : Scope} {fragments : List Fragment} :
    LowersAll tree choices region ids before fragments after → Throughout NamesOnce fragments
  | .nil => throughout_nil NamesOnce
  | .cons first rest => (first.namesOnce once).append (rest.namesOnce once)

theorem LowersBranches.namesOnce (once : ∀ id, ((tree.node id).attributes.map Attribute.name).Nodup) {region : Region}
    {closed : Bool} {ids : List NodeId} {before after : Scope} {branches : List (Option String × List Fragment)} :
    LowersBranches tree choices region closed ids before branches after →
      ∀ branch ∈ branches, Throughout NamesOnce branch.2
  | .nil => fun _ none => absurd none List.not_mem_nil
  | .cons _ body rest => List.forall_mem_cons.2 ⟨body.namesOnce once, rest.namesOnce once⟩

end

end Lowering

namespace Tree

/-- As long as no node is made with two attributes of one name, no node ever has two. An attribute that is removed is
gone, and one that is set is found, in its old place or behind the others, which stay in order. In what is written no
element is given a name twice. -/
theorem attributes_distinct (file : String) (edits : List Edit) (once : ∀ edit ∈ edits, edit.NamesOnce) :
    let tree := ({ file } : Tree).afterEdits edits
    (∀ id, ((tree.node id).attributes.map Attribute.name).Nodup) ∧
      (∀ id name,
        (tree.removeAttribute id name).2.attribute? id name = none ∧
        ((tree.removeAttribute id name).2.node id).attributes =
          (tree.node id).attributes.filter fun other => other.name != name) ∧
      (∀ id name raw after, tree.Has id → tree.setAttribute id name raw = .ok after →
        (∃ value, Attribute.IsRead (tree.node id).position (name, raw) value ∧ after.attribute? id name = some value) ∧
        (let names := (tree.node id).attributes.map Attribute.name
         (after.node id).attributes.map Attribute.name = if name ∈ names then names else names ++ [name]) ∧
        (after.node id).attributes.filter (fun other => other.name != name) =
          (tree.node id).attributes.filter fun other => other.name != name) ∧
      ∀ choices root result, CodeModule.generate tree choices root = .ok result →
        ∀ loops fragment, Fragment.Inside result.fragments loops fragment → fragment.NamesOnce := by
  intro tree
  have distinct : ∀ id, ((tree.node id).attributes.map Attribute.name).Nodup := nodup_names_afterEdits file once
  have wellFormed : tree.WellFormed := wellFormed_afterEdits file edits
  refine ⟨distinct, fun id name => ?_, fun id name raw after present made => ?_, ?_⟩
  · have left : ((tree.removeAttribute id name).2.node id).attributes =
        (tree.node id).attributes.filter fun other => other.name != name := by
      by_cases present : tree.Has id
      · rw [removeAttribute, node_update_self present]
        exact eraseP_eq_filter (distinct id)
      · have absent : ¬(tree.removeAttribute id name).2.Has id := by
          rwa [removeAttribute, has_update]
        rw [node_of_not_has absent, node_of_not_has present]
        rfl
    refine ⟨?_, left⟩
    rw [attribute?, Node.attribute?, left, List.find?_eq_none]
    intro other member
    simpa using (List.mem_filter.1 member).2
  · obtain ⟨value, isRead, changed⟩ := (isExact_setAttribute present name raw).gives after made
    obtain rfl : value.name = name := isRead.name
    rw [attribute?, changed.node, Function.update_self]
    exact ⟨⟨value, isRead, find?_putAttribute value _⟩, names_putAttribute value _, filter_putAttribute value _⟩
  · intro choices root result generated
    obtain ⟨after, lowers, -⟩ := Lowering.lowers_of_lower wellFormed (CodeModule.lower_of_generate generated)
    exact lowers.namesOnce distinct

/-- A heading with two attributes, one of them set again, and its copy with the other one set again. -/
theorem attributes_distinct_heading :
    let edits : List Edit :=
      [.create {} (.element "h1") [("id", "top"), ("class", "wide")] [], .setAttribute ⟨0⟩ "id" "start",
        .clone ⟨0⟩ true, .setAttribute ⟨1⟩ "class" "narrow"]
    let tree := ({ file := "page.html" } : Tree).afterEdits edits
    (∀ edit ∈ edits, edit.NamesOnce) ∧
      (tree.node ⟨1⟩).attributes.map (fun given => (given.name, given.value.raw)) =
        [("id", "start"), ("class", "narrow")] ∧
      (tree.removeAttribute ⟨1⟩ "id").2.attribute? ⟨1⟩ "id" = none ∧
      ((tree.node ⟨1⟩).attributes.map Attribute.name).Nodup := by
  intro edits tree
  have once : ∀ edit ∈ edits, edit.NamesOnce := by simp [edits, Edit.NamesOnce]
  obtain ⟨distinct, gone, -⟩ := attributes_distinct "page.html" edits once
  exact ⟨once, by decide +kernel, (gone ⟨1⟩ "id").1, distinct ⟨1⟩⟩

/-- A node that is made with two attributes of one name has both of them, writes both of them, and has one left when
the name is removed. -/
theorem attributes_distinct_twice :
    let tree := ({ file := "page.html" } : Tree).afterEdits [.create {} (.element "p") [("a", "1"), ("a", "1")] []]
    (tree.node ⟨0⟩).attributes.map Attribute.name = ["a", "a"] ∧
      ((tree.removeAttribute ⟨0⟩ "a").2.attribute? ⟨0⟩ "a").map (fun given => given.value.raw) = some "1" ∧
      (CodeModule.generate tree .standard ⟨0⟩).toOption.map
          (fun result => Layout.lines 0 "" (.block (Fragment.layoutAll result.fragments))) =
        some (["  out.w(\"<p a=\\\"1\\\" a=\\\"1\\\"></p>\");"], "") := by
  intro tree
  exact ⟨by decide +kernel, by decide +kernel, by decide +kernel⟩

end Tree

end HtmlTemplate
