import HtmlTemplate.Proofs.Placement.Safety
import HtmlTemplate.Template

/-!
# Templates that are read

A template is refused for what it says only. The tree that is read holds no construct, every node stands in
its place, and no element has two attributes of a name in small letters.
-/

namespace HtmlTemplate

open HtmlTemplate.Tree
open Markup (isSmall)

/-- No node has two attributes of a name in small letters. -/
def Tree.Single (tree : Tree) : Prop :=
  ∀ id name, isSmall name = true → ((tree.node id).attributes.map Attribute.name).count name ≤ 1

/-- In a well-formed tree nothing is below a node without children. -/
theorem Tree.OnPath.eq_of_childless {tree : Tree} {top other : NodeId} (onPath : tree.OnPath top other)
    (wellFormed : tree.WellFormed) (childless : tree.children top = []) : other = top := by
  induction onPath with
  | self => rfl
  | step linked _ hypothesis =>
      subst hypothesis
      have member := (wellFormed.linked _ _).2 linked
      rw [childless] at member
      exact absurd member List.not_mem_nil

namespace Template

variable {α β : Type} {growth : Growth} {root parent : NodeId} {position : Position} {kind : Kind}

/-- The step does what is good, or fails for the template. -/
def Grow.Safely (work : Grow α) (growth : Growth) (good : α → Growth → Prop) : Prop :=
  match work growth with
  | .ok (value, after) => good value after
  | .error fault => fault.OfTemplate

namespace Grow

variable {good : α → Growth → Prop}

theorem bind_apply (first : Grow α) (next : α → Grow β) (growth : Growth) :
    (first >>= next) growth = (first growth).bind fun done => next done.1 done.2 :=
  rfl

theorem safely_pure {value : α} (meets : good value growth) : Safely (pure value) growth good :=
  meets

theorem Safely.bind {work : Grow α} {next : α → Grow β} {after : β → Growth → Prop} (begins : Safely work growth good)
    (goesOn : ∀ value growth, good value growth → Safely (next value) growth after) :
    Safely (work >>= next) growth after := by
  unfold Safely at begins ⊢
  rw [bind_apply]
  generalize work growth = result at begins ⊢
  rcases result with fault | ⟨value, between⟩
  · exact begins
  · exact goesOn value between begins

theorem Safely.weaken {work : Grow α} {other : α → Growth → Prop} (safely : Safely work growth good)
    (ending : ∀ value after, good value after → other value after) : Safely work growth other := by
  unfold Safely at safely ⊢
  generalize work growth = result at safely ⊢
  rcases result with fault | ⟨value, after⟩
  · exact safely
  · exact ending value after safely

end Grow

/-! ## Making nodes -/

/-- Attributes are refused for what they say, and keep their names. -/
theorem mapM_readAttribute (tree : Tree) (position : Position) (attributes : List (String × String)) :
    (∃ fault, attributes.mapM (fun given => tree.readAttribute position given.1 given.2) = .error fault ∧
      fault.OfTemplate) ∨
    ∃ read, attributes.mapM (fun given => tree.readAttribute position given.1 given.2) = .ok read ∧
      read.map Attribute.name = attributes.map Prod.fst := by
  induction attributes with
  | nil => exact .inr ⟨[], rfl, rfl⟩
  | cons first attributes hypothesis =>
      rw [List.mapM_cons]
      have step : (∃ fault, tree.readAttribute position first.1 first.2 = .error fault ∧ fault.OfTemplate) ∨
          ∃ read, tree.readAttribute position first.1 first.2 = .ok read ∧ read.name = first.1 := by
        unfold Tree.readAttribute Attribute.parse
        by_cases allowed : isAttributeName first.1 = true
        · rw [if_pos allowed]
          cases Value.parse first.2 with
          | error failed => exact .inl ⟨_, rfl, rfl⟩
          | ok value => exact .inr ⟨_, rfl, rfl⟩
        · rw [if_neg allowed]
          exact .inl ⟨_, rfl, rfl⟩
      rcases step with ⟨fault, failed, ofTemplate⟩ | ⟨read, done, name⟩
      · rw [failed]
        exact .inl ⟨fault, rfl, ofTemplate⟩
      · rw [done]
        rcases hypothesis with ⟨fault, failed, ofTemplate⟩ | ⟨others, rest, names⟩
        · rw [failed]
          exact .inl ⟨fault, rfl, ofTemplate⟩
        · rw [rest]
          exact .inr ⟨read :: others, rfl, by rw [List.map_cons, List.map_cons, name, names]⟩

/-- A node without children is refused for what it says. If it is made, its attributes keep their names. -/
theorem create_childless (tree : Tree) (position : Position) (kind : Kind) (attributes : List (String × String)) :
    (∃ fault, tree.create position kind attributes [] = .error fault ∧ fault.OfTemplate) ∨
    ∃ read, tree.create position kind attributes [] =
        .ok (tree.push { kind, attributes := read, children := [], position }) ∧
      read.map Attribute.name = attributes.map Prod.fst := by
  unfold Tree.create
  cases passes : kind.check with
  | error cause =>
      refine .inl ⟨tree.newFault position cause, ?_, ?_⟩
      · rw [Tree.requireKind, passes]
        rfl
      · exact Kind.ofTemplate_of_check passes
  | ok done =>
      rw [Tree.requireKind, passes]
      rcases mapM_readAttribute tree position attributes with ⟨fault, failed, ofTemplate⟩ | ⟨read, done, names⟩
      · refine .inl ⟨fault, ?_, ofTemplate⟩
        change (attributes.mapM (fun given => tree.readAttribute position given.1 given.2)).bind _ = _
        rw [failed]
        rfl
      · refine .inr ⟨read, ?_, names⟩
        change (attributes.mapM (fun given => tree.readAttribute position given.1 given.2)).bind _ = _
        rw [done]
        change (if (!kind.isContainer && !true) = true then _ else _) = _
        rw [Bool.not_true, Bool.and_false, if_neg Bool.false_ne_true]
        rfl

/-- The tree of a template that is being read. -/
structure Growing (root : NodeId) (tree : Tree) : Prop extends tree.IsTemplate root where
  outside : ∀ id, tree.kind id ≠ .conditional
  single : tree.Single

/-- Nodes that were made stay and are as they were. -/
def Keeps (before after : Tree) : Prop :=
  ∀ id, before.Has id → after.Has id ∧ after.kind id = before.kind id

theorem Keeps.trans {first second third : Tree} (earlier : Keeps first second) (later : Keeps second third) :
    Keeps first third := by
  intro id present
  obtain ⟨there, kind⟩ := earlier id present
  obtain ⟨still, same⟩ := later id there
  exact ⟨still, same.trans kind⟩

/-- A step leaves a tree that grows on, below the nodes that are there. -/
def Grows (root : NodeId) (before : Growth) (_ : α) (after : Growth) : Prop :=
  Growing root after.tree ∧ Keeps before.tree after.tree

/-- A new node, which is not yet below another one. -/
theorem Growing.create {tree : Tree} {read : List Attribute} {attributes : List (String × String)}
    (growing : Growing root tree) (other : kind ≠ .conditional)
    (plain : ∀ tag, kind.tag? = some tag → kind = .element tag)
    (made : tree.create position kind attributes [] =
      .ok (tree.push { kind, attributes := read, children := [], position }))
    (single : ∀ name, isSmall name = true → (read.map Attribute.name).count name ≤ 1) :
    Growing root (tree.push { kind, attributes := read, children := [], position }).2 := by
  have noKids : ∀ kid ∈ ([] : List NodeId), tree.Has kid := fun _ none => absurd none List.not_mem_nil
  have old : ∀ id, id ≠ ⟨tree.size⟩ → _ = tree.node id := fun id different =>
    @node_push_of_ne tree { kind, attributes := read, children := [], position } id different
  have new := node_push_self tree { kind, attributes := read, children := [], position }
  have rootOld : root ≠ ⟨tree.size⟩ := fun same => not_has_size (same ▸ growing.present)
  refine ⟨⟨(Edited.create noKids made).wellFormed growing.wellFormed,
    growing.placed.create growing.wellFormed made noKids (Kind.takes_nil kind),
    (extends_create made).has growing.present, ?_, ?_, fun id tag => ?_⟩,
    fun id => ?_, fun id name small => ?_⟩
  · rw [Tree.kind, old root rootOld, ← Tree.kind, growing.document]
  · rw [Tree.parent, old root rootOld, ← Tree.parent, growing.top]
  · by_cases isNew : id = ⟨tree.size⟩
    · rw [isNew, Tree.kind, new]
      exact plain tag
    · rw [Tree.kind, old id isNew]
      exact growing.plain id tag
  · by_cases isNew : id = ⟨tree.size⟩
    · rw [isNew, Tree.kind, new]
      exact other
    · rw [Tree.kind, old id isNew]
      exact growing.outside id
  · by_cases isNew : id = ⟨tree.size⟩
    · rw [isNew, new]
      exact single name small
    · rw [old id isNew]
      exact growing.single id name small

/-- A node without children and without a parent comes below a node that is there. -/
theorem Growing.append {tree : Tree} {child : NodeId} (growing : Growing root tree) (present : tree.Has parent)
    (container : (tree.kind parent).isContainer = true) (hasChild : tree.Has child) (detached : tree.parent child = none)
    (childless : tree.children child = []) (different : parent ≠ child)
    (content : (tree.kind child).isContent = true) :
    ∃ after, tree.append parent child = .ok after ∧ Growing root after ∧ tree.Relinked [parent] [child] after := by
  have apart : ¬tree.OnPath child parent := fun above =>
    different (above.eq_of_childless growing.wellFormed childless)
  obtain ⟨after, appended, edited, relinked, children⟩ :=
    exists_append growing.wellFormed present hasChild container detached apart
  have notRoot : root ∉ [child] := by
    rw [List.mem_singleton]
    rintro rfl
    rw [growing.document] at content
    cases content
  refine ⟨after, appended, ⟨⟨edited.wellFormed growing.wellFormed, relinked.wellPlaced growing.placed ?_,
    relinked.has_iff.2 growing.present, ?_, ?_, fun id tag => ?_⟩, fun id => ?_, fun id name small => ?_⟩, relinked⟩
  · intro owner member
    rw [List.mem_singleton.1 member, children, Kind.takes_iff_of_ne (growing.outside parent), List.map_append]
    intro kind among
    rcases List.mem_append.1 among with earlier | last
    · exact (Kind.takes_iff_of_ne (growing.outside parent)).1 (growing.placed parent) kind earlier
    · rw [List.mem_singleton.1 last, content]
  · rw [relinked.kind, growing.document]
  · rw [relinked.parent_eq notRoot, growing.top]
  · rw [relinked.kind]
    exact growing.plain id tag
  · rw [relinked.kind]
    exact growing.outside id
  · rw [relinked.attributes]
    exact growing.single id name small

theorem Grow.add_apply (parent : NodeId) (position : Position) (kind : Kind) (attributes : List (String × String))
    (growth : Growth) : Grow.add parent position kind attributes growth =
      (growth.tree.create position kind attributes []).bind fun made => (made.2.append parent made.1).bind fun tree =>
        .ok (made.1, { growth with tree }) := by
  change ((liftM (growth.tree.create position kind attributes []) : Grow (NodeId × Tree)) >>= fun made =>
    (liftM (made.2.append parent made.1) : Grow Tree) >>= fun tree =>
      (set { growth with tree } : Grow Unit) >>= fun _ => pure made.1) growth = _
  generalize growth.tree.create position kind attributes [] = made
  rcases made with fault | ⟨id, tree⟩
  · rfl
  · change ((liftM (tree.append parent id) : Grow Tree) >>= fun tree =>
      (set { growth with tree } : Grow Unit) >>= fun _ => pure id) growth = (tree.append parent id).bind _
    generalize tree.append parent id = appended
    cases appended <;> rfl

/-- A node that can be made can be added. -/
theorem Growing.add {attributes : List (String × String)} {read : List Attribute}
    (growing : Growing root growth.tree) (present : growth.tree.Has parent)
    (container : (growth.tree.kind parent).isContainer = true) (content : kind.isContent = true)
    (other : kind ≠ .conditional) (plain : ∀ tag, kind.tag? = some tag → kind = .element tag)
    (made : growth.tree.create position kind attributes [] =
      .ok (growth.tree.push { kind, attributes := read, children := [], position }))
    (single : ∀ name, isSmall name = true → (read.map Attribute.name).count name ≤ 1) :
    ∃ after, Grow.add parent position kind attributes growth = .ok (⟨growth.tree.size⟩, { growth with tree := after }) ∧
      Growing root after ∧ Keeps growth.tree after ∧ after.Has ⟨growth.tree.size⟩ ∧
      after.kind ⟨growth.tree.size⟩ = kind := by
  have grown := growing.create other plain made single
  have extension := extends_create made
  have new := node_push_self growth.tree { kind, attributes := read, children := [], position }
  have hasNew : (growth.tree.push { kind, attributes := read, children := [], position }).2.Has ⟨growth.tree.size⟩ := by
    rw [Has, size_push]
    exact Nat.lt_succ_self _
  have same := extension.node_of_has
  have kept : Keeps growth.tree (growth.tree.push { kind, attributes := read, children := [], position }).2 :=
    fun id there => ⟨extension.has there, by rw [Tree.kind, same id there, Tree.kind]⟩
  obtain ⟨after, appended, final, relinked⟩ := grown.append (kept parent present).1
    (by rw [(kept parent present).2, container]) hasNew (by rw [Tree.parent, new]) (by rw [Tree.children, new])
    (fun same => not_has_size (same ▸ present)) (by rw [Tree.kind, new, content])
  refine ⟨after, ?_, final, kept.trans fun id there => ⟨relinked.has_iff.2 there, relinked.kind id⟩,
    relinked.has_iff.2 hasNew, ?_⟩
  · rw [Grow.add_apply, made]
    change (((growth.tree.push { kind, attributes := read, children := [], position }).2.append parent
      ⟨growth.tree.size⟩).bind _ : Except Fault (NodeId × Growth)) = _
    rw [appended]
    rfl
  · rw [relinked.kind, Tree.kind, new]

theorem safely_add (growing : Growing root growth.tree) (present : growth.tree.Has parent)
    (container : (growth.tree.kind parent).isContainer = true) (content : kind.isContent = true)
    (other : kind ≠ .conditional) (plain : ∀ tag, kind.tag? = some tag → kind = .element tag)
    {attributes : List (String × String)}
    (single : ∀ name, isSmall name = true → (attributes.map Prod.fst).count name ≤ 1) :
    Grow.Safely (Grow.add parent position kind attributes) growth fun id after =>
      Grows root growth id after ∧ after.tree.Has id ∧ after.tree.kind id = kind := by
  unfold Grow.Safely
  rcases create_childless growth.tree position kind attributes with ⟨fault, failed, ofTemplate⟩ | ⟨read, made, names⟩
  · rw [Grow.add_apply, failed]
    exact ofTemplate
  · obtain ⟨after, added, final, keeps, there, isNew⟩ :=
      growing.add present container content other plain made (by rw [names]; exact single)
    rw [added]
    exact ⟨⟨final, keeps⟩, there, isNew⟩

/-! ## Growing -/

/-- A node that others are added below. -/
structure Host (parent : NodeId) (tree : Tree) : Prop where
  present : tree.Has parent
  container : (tree.kind parent).isContainer = true

theorem Host.keeps {before after : Tree} (host : Host parent before) (keeps : Keeps before after) : Host parent after := by
  obtain ⟨there, kind⟩ := keeps parent host.present
  exact ⟨there, by rw [kind, host.container]⟩

theorem Grow.Safely.then {work : Grow α} {next : α → Grow β} (begins : Grow.Safely work growth (Grows root growth))
    (goesOn : ∀ value after, Grows root growth value after → Grow.Safely (next value) after (Grows root after)) :
    Grow.Safely (work >>= next) growth (Grows root growth) := by
  refine begins.bind fun value between grown => (goesOn value between grown).weaken ?_
  rintro last after ⟨growing, keeps⟩
  exact ⟨growing, grown.2.trans keeps⟩

theorem grows_refl (growing : Growing root growth.tree) (value : α) : Grows root growth value growth :=
  ⟨growing, fun _ there => ⟨there, rfl⟩⟩

/-- A node without attributes that is no element is added. -/
theorem safely_addUntagged (growing : Growing root growth.tree) (host : Host parent growth.tree)
    (content : kind.isContent = true) (other : kind ≠ .conditional) (untagged : kind.tag? = none) :
    Grow.Safely (do let _ ← Grow.add parent position kind []) growth (Grows root growth) := by
  refine (safely_add growing host.present host.container content other (fun tag tagged => ?_) fun name _ => ?_).bind ?_
  · rw [untagged] at tagged
    cases tagged
  · exact Nat.zero_le 1
  · rintro id after ⟨grown, -, -⟩
    exact Grow.safely_pure grown

theorem safely_addText (growing : Growing root growth.tree) (host : Host parent growth.tree) (value : List Char) :
    Grow.Safely (Grow.addText parent position value) growth (Grows root growth) :=
  safely_addUntagged growing host rfl (fun impossible => by cases impossible) rfl

theorem safely_addPlaceholder (growing : Growing root growth.tree) (host : Host parent growth.tree) (site : Site) :
    Grow.Safely (Grow.addPlaceholder parent site) growth (Grows root growth) := by
  unfold Grow.addPlaceholder
  dsimp only
  cases Code.check site.placeholder.code with
  | error fault => exact rfl
  | ok done => exact safely_addUntagged growing host rfl (fun impossible => by cases impossible) rfl

theorem safely_addParts (plan : Plan) (growing : Growing root growth.tree) (host : Host parent growth.tree)
    (parts : List StandIn.Part) :
    Grow.Safely (Grow.addParts plan parent position parts) growth (Grows root growth) := by
  induction parts generalizing growth with
  | nil => exact Grow.safely_pure (grows_refl growing ())
  | cons part parts hypothesis =>
      have rest : ∀ value after, Grows root growth value after →
          Grow.Safely (Grow.addParts plan parent position parts) after (Grows root after) :=
        fun (_ : Unit) after grown => hypothesis grown.1 (host.keeps grown.2)
      cases part with
      | text value => exact (safely_addText growing host value).then rest
      | standIn number =>
          unfold Grow.addParts
          split
          · next site found => exact (safely_addPlaceholder growing host site).then rest
          · exact Grow.Safely.then (Grow.safely_pure (grows_refl growing ())) rest

theorem safely_get : Grow.Safely (get : Grow Growth) growth fun value after => value = growth ∧ after = growth :=
  ⟨rfl, rfl⟩

theorem safely_set (next : Growth) : Grow.Safely (set next : Grow Unit) growth fun _ after => after = next :=
  rfl

theorem safely_locate (growing : Growing root growth.tree) (tag : String) :
    Grow.Safely (Grow.locate tag) growth (Grows root growth) := by
  unfold Grow.locate
  refine safely_get.bind ?_
  rintro _ growth ⟨rfl, rfl⟩
  split
  · refine (safely_set _).bind ?_
    rintro _ _ rfl
    exact Grow.safely_pure ⟨growing, fun _ there => ⟨there, rfl⟩⟩
  · exact Grow.safely_pure (grows_refl growing none)

mutual

/-- Content comes below its host. The induction is on the content. -/
theorem safely_grow (plan : Plan) : ∀ (content : Markup.Content) {growth : Growth} {parent : NodeId} {position : Position},
    Growing root growth.tree → Host parent growth.tree →
      Grow.Safely (grow plan parent position content) growth (Grows root growth)
  | .doctype name, _, _, _, growing, host => by
      rw [grow]
      exact safely_addUntagged growing host rfl (fun impossible => by cases impossible) rfl
  | .text value, _, _, _, growing, host => by
      rw [grow]
      exact safely_addParts plan growing host _
  | .comment value, _, _, _, growing, host => by
      rw [grow]
      exact safely_addUntagged growing host rfl (fun impossible => by cases impossible) rfl
  | .element tag attributes children, _, _, _, growing, host => by
      rw [grow]
      refine (safely_locate growing tag).then fun found located grown => ?_
      have growing := grown.1
      have host := host.keeps grown.2
      split
      · exact safely_growAll plan children growing host
      · have single : ∀ name, isSmall name = true →
            ((attributes.list.map fun given => (given.1, plan.restore given.2)).map Prod.fst).count name ≤ 1 := by
          intro name small
          rw [List.map_map]
          exact attributes.single name small
        refine Grow.Safely.bind (safely_add growing host.present host.container rfl
          (fun impossible => by cases impossible) (fun other tagged => ?_) single) ?_
        · rw [← Option.some.inj tagged]
        · rintro id after ⟨⟨growing, keeps⟩, there, kind⟩
          refine (safely_growAll plan children growing ⟨there, by rw [kind]; rfl⟩).weaken ?_
          rintro _ last ⟨final, further⟩
          exact ⟨final, keeps.trans further⟩

/-- Contents come below their host in order. -/
theorem safely_growAll (plan : Plan) : ∀ (contents : List Markup.Content) {growth : Growth} {parent : NodeId}
    {position : Position}, Growing root growth.tree → Host parent growth.tree →
      Grow.Safely (growAll plan parent position contents) growth (Grows root growth)
  | [], _, _, _, growing, _ => by
      rw [growAll]
      exact Grow.safely_pure (grows_refl growing ())
  | content :: contents, _, _, _, growing, host => by
      rw [growAll]
      exact (safely_grow plan content growing host).then fun _ between grown =>
        safely_growAll plan contents grown.1 (host.keeps grown.2)

end

/-- The tree with only the document. -/
theorem growing_document (file : String) :
    Growing ⟨0⟩ (({ file } : Tree).push { kind := .document, position := .first }).2 := by
  have nodes : ∀ id, let node := (({ file } : Tree).push { kind := .document, position := .first }).2.node id
      node.kind = .document ∧ node.children = [] ∧ node.parent = none ∧ node.attributes = [] := by
    intro id
    by_cases same : id = ⟨0⟩
    · rw [same]
      exact ⟨rfl, rfl, rfl, rfl⟩
    · have absent : ¬({ file } : Tree).Has id := Nat.not_lt_zero id.index
      rw [@node_push_of_ne { file } { kind := .document, position := .first } id same, node_of_not_has absent]
      exact ⟨rfl, rfl, rfl, rfl⟩
  refine ⟨⟨wellFormed_of_unlinked ?_, fun id => ?_, Nat.zero_lt_one, (nodes ⟨0⟩).1, (nodes ⟨0⟩).2.2.1, fun id tag tagged => ?_⟩,
    fun id => ?_, fun id name _ => ?_⟩
  · intro node member
    rw [List.mem_singleton.1 member]
    exact ⟨rfl, rfl⟩
  · rw [Tree.children, (nodes id).2.1]
    exact Kind.takes_nil _
  · rw [Tree.kind, (nodes id).1] at tagged
    cases tagged
  · rw [Tree.kind, (nodes id).1]
    exact fun impossible => by cases impossible
  · rw [(nodes id).2.2.2]
    exact Nat.zero_le 1

theorem safely_growTree (file : String) (ahead : List Mark) (source : List Char) (pieces : List Piece) :
    Grow.Safely (growTree source pieces) { ahead, tree := { file } } fun root after => Growing root after.tree := by
  have growing := growing_document file
  unfold growTree
  refine safely_get.bind ?_
  rintro _ growth ⟨rfl, rfl⟩
  have made : Grow.Safely (liftM (({ file } : Tree).create .first .document [] []) : Grow (NodeId × Tree))
      { ahead, tree := { file } } fun value after =>
        value = (⟨0⟩, (({ file } : Tree).push { kind := .document, position := .first }).2) ∧ after = _ := ⟨rfl, rfl⟩
  refine made.bind ?_
  rintro _ _ ⟨rfl, rfl⟩
  refine (safely_set _).bind ?_
  rintro _ _ rfl
  refine (@safely_growAll _ _ _ { ahead, tree := _ } _ _ growing ⟨growing.present, rfl⟩).bind ?_
  rintro _ after ⟨final, -⟩
  exact Grow.safely_pure final

/-- A template is read to a tree in which all nodes stand in their places, or refused for what it says. -/
theorem read_cases (file source : String) :
    (∃ fault, read file source = .error fault ∧ fault.OfTemplate) ∨
      ∃ root tree, read file source = .ok (root, tree) ∧ tree.IsTemplate root ∧ tree.Single := by
  unfold read
  cases Placeholder.pieces source.toList with
  | error malformed => exact .inl ⟨_, rfl, rfl⟩
  | ok pieces =>
      have grown := safely_growTree file (tagMarks .first pieces) source.toList pieces
      unfold Grow.Safely at grown
      dsimp only
      change (∃ fault, ((growTree source.toList pieces) { ahead := tagMarks .first pieces, tree := { file } }).bind _ = _ ∧ _) ∨
        ∃ root tree, ((growTree source.toList pieces) { ahead := tagMarks .first pieces, tree := { file } }).bind _ = _ ∧ _
      generalize (growTree source.toList pieces) { ahead := tagMarks .first pieces, tree := { file } } = result at grown ⊢
      rcases result with fault | ⟨root, growth⟩
      · exact .inl ⟨fault, rfl, grown⟩
      · exact .inr ⟨root, growth.tree, rfl, grown.toIsTemplate, grown.single⟩

end Template
end HtmlTemplate
