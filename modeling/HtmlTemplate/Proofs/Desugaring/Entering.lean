import HtmlTemplate.Proofs.Desugaring.Directive
import HtmlTemplate.Proofs.Placement.Walk

/-!
# Entering tags

A node that the walk enters becomes what its form stands for in view of the siblings behind it: the walk
faults exactly if it stands for nothing.
-/

namespace HtmlTemplate
namespace Walk

open Construct Control HtmlTemplate.Tree

variable {α : Type} {root id host new : NodeId} {state : Progress} {context : Context} {bound left limit : Nat}
variable {before tree after : Tree} {front row ids : List NodeId} {form head : Form} {forms rest : List Form}
variable {begun more : NodeId → Prop}

/-! ## Marks -/

/-- Nothing but marks of one node has changed. -/
structure Remarked (id : NodeId) (before after : Tree) : Prop where
  shape : before.SameShape after
  others : ∀ other, other ≠ id → after.node other = before.node other

theorem Remarked.refl (tree : Tree) : Remarked id tree tree :=
  ⟨.refl tree, fun _ _ => rfl⟩

theorem Remarked.trans {middle : Tree} (first : Remarked id before middle) (second : Remarked id middle after) :
    Remarked id before after :=
  ⟨first.shape.trans second.shape, fun other different => (second.others other different).trans (first.others other different)⟩

theorem remarked_setState (tree : Tree) (id : NodeId) (mark : WalkState) : Remarked id tree (tree.setState id mark) :=
  ⟨sameShape_setState tree id mark, fun _ different => node_update_of_ne different _⟩

theorem remarked_setPreserve (tree : Tree) (id : NodeId) (preserve : Bool) :
    Remarked id tree (tree.setPreserve id preserve) :=
  ⟨sameShape_setPreserve tree id preserve, fun _ different => node_update_of_ne different _⟩

theorem shows_of_sameShape (shape : before.SameShape after) (shown : before.Shows limit form id) : after.Shows limit form id :=
  shown.of_region (fun _ => True) (fun other _ => shape.kind other) (fun other _ => shape.attributes other)
    (fun other _ => shape.children other) (fun _ _ _ _ => trivial) trivial

theorem beyond_of_sameShape (shape : before.SameShape after) (beyond : after.Beyond host front id) :
    before.Beyond host front id := by
  obtain ⟨top, linked, behind, onPath⟩ := beyond
  exact ⟨top, (shape.parent top).symm.trans linked, behind, shape.onPath_iff.1 onPath⟩

theorem Remarked.spares (remarked : Remarked id before after) (beyond : before.Beyond host front id)
    (wellFormed : before.WellFormed) : before.Spares host front after where
  size_le := Nat.le_of_eq remarked.shape.size.symm
  owner := by
    rw [remarked.others host (wellFormed.ne_of_beyond beyond).symm, remarked.shape.children, Tree.children]
  node other _ outside _ := remarked.others other fun same => outside (same ▸ beyond)

/-! ## Siblings on the way -/

/-- What the walk over the children of a host has come to: behind the first ones there are nodes that show
forms, and but for some they and what is below them has not been visited. -/
structure Course (before : Tree) (limit : Nat) (host : NodeId) (front : List NodeId) (forms : List Form)
    (ids : List NodeId) (begun : NodeId → Prop) (tree : Tree) : Prop where
  sound : before.WellFormed
  wellFormed : tree.WellFormed
  bounded : limit ≤ before.size
  present : before.Has host
  spares : before.Spares host front tree
  listed : tree.children host = front ++ ids
  shown : List.Forall₂ (tree.Shows limit) forms ids
  unvisited : ∀ other, tree.Beyond host front other → ¬begun other → (tree.node other).state = .unvisited

namespace Course

theorem mem_children (course : Course before limit host front forms ids begun tree) (member : id ∈ ids) :
    tree.parent id = some host ∧ id ∉ front := by
  have distinct := course.wellFormed.nodup host
  rw [course.listed] at distinct
  constructor
  · rw [← course.wellFormed.linked, course.listed]
    exact List.mem_append_right _ member
  · exact fun first => (List.disjoint_of_nodup_append distinct) first member

theorem beyond (course : Course before limit host front forms ids begun tree) (member : id ∈ ids) :
    tree.Beyond host front id :=
  beyond_of_child (course.mem_children member).1 (course.mem_children member).2

/-- Nodes that are on their way, or were taken from it, were on it before. -/
theorem free (course : Course before limit host front forms ids begun tree) (member : id ∈ ids) :
    before.Free host front id := fun present =>
  course.spares.beyond_of_beyond course.sound present (course.beyond member)

theorem bench (course : Course before limit host front (form :: rest) (id :: row) begun tree) :
    Bench tree limit host front rest id row tree where
  sound := course.wellFormed
  bounded := Nat.le_trans course.bounded course.spares.size_le
  present := course.spares.has course.present
  worked := .refl tree host front
  listed := course.listed
  others := (List.forall₂_cons.1 course.shown).2

/-- Marks on a node that was on the way before. -/
theorem remarked (course : Course before limit host front forms ids begun tree) (remarked : Remarked id tree after)
    (free : before.Free host front id) (notHost : id ≠ host)
    (stays : ∀ other, after.Beyond host front other → ¬more other →
      (other ≠ id ∧ ¬begun other) ∨ (after.node other).state = .unvisited) :
    Course before limit host front forms ids more after where
  sound := course.sound
  wellFormed := remarked.shape.wellFormed course.wellFormed
  bounded := course.bounded
  present := course.present
  spares := by
    refine ⟨Nat.le_trans course.spares.size_le (Nat.le_of_eq remarked.shape.size.symm), ?_, ?_⟩
    · rw [remarked.others host notHost.symm, course.spares.owner, remarked.shape.children]
    · intro other present outside different
      rw [remarked.others other fun same => outside (free (same ▸ present) |> fun beyond => same ▸ beyond),
        course.spares.node other present outside different]
  listed := (remarked.shape.children host).trans course.listed
  shown := course.shown.imp fun _ _ => shows_of_sameShape remarked.shape
  unvisited other beyond outside := by
    rcases stays other beyond outside with ⟨different, notBegun⟩ | state
    · rw [remarked.others other different]
      exact course.unvisited other (beyond_of_sameShape remarked.shape beyond) notBegun
    · exact state

/-- A node in the row may be begun. -/
theorem start (course : Course before limit host front forms ids begun tree) (remarked : Remarked id tree after)
    (member : id ∈ ids) (itself : more id) (within : ∀ other, begun other → more other) :
    Course before limit host front forms ids more after := by
  have notHost : id ≠ host := course.wellFormed.ne_of_beyond (course.beyond member)
  exact course.remarked remarked (course.free member) notHost fun other _ waits =>
    .inl ⟨fun same => waits (same ▸ itself), fun among => waits (within other among)⟩

/-- A node that has been begun is set aside, as if it had not been visited. -/
theorem setAside (course : Course before limit host front forms ids begun tree) (free : before.Free host front id)
    (notHost : id ≠ host) (within : ∀ other, begun other → other = id ∨ more other) :
    Course before limit host front forms ids more (tree.setState id .unvisited) := by
  have marked := remarked_setState tree id .unvisited
  refine course.remarked marked free notHost fun other beyond waits => ?_
  by_cases same : other = id
  · refine .inr ?_
    rw [same]
    exact state_setState_self (marked.shape.has_iff.1 (same ▸ beyond.has))
  · exact .inl ⟨same, fun among => (within other among).elim same waits⟩

/-- A transform goes on with a new construct. -/
theorem rewrites {outcome : Context} (course : Course before limit host front forms ids begun context.tree)
    (rewrites : Rewrites context limit host front head rest new row outcome) :
    Course before limit host front (head :: rest) (new :: row) begun outcome.tree where
  sound := course.sound
  wellFormed := rewrites.reaches.wellFormed course.wellFormed
  bounded := course.bounded
  present := course.present
  spares := course.spares.trans course.sound rewrites.spares
  listed := rewrites.listed
  shown := rewrites.shown
  unvisited other beyond different := by
    have grows := rewrites.reaches.grows course.wellFormed
    by_cases present : context.tree.Has other
    · rw [grows.state_of_has other present]
      exact course.unvisited other (rewrites.spares.beyond_of_beyond course.wellFormed present beyond) different
    · exact grows.unvisited other present

/-- The first children stay visited, and with them the one that has been visited behind them. -/
theorem visited (course : Course before limit host front forms ids begun tree) (spares : tree.Spares host front after)
    (visited : ∀ other ∈ front, (tree.node other).state ≠ .unvisited) (settled : (after.node new).state ≠ .unvisited) :
    ∀ other ∈ front ++ [new], (after.node other).state ≠ .unvisited := by
  intro other member
  rcases List.mem_append.1 member with first | last
  · have hosted : tree.parent other = some host := by
      rw [← course.wellFormed.linked, course.listed]
      exact List.mem_append_left _ first
    rw [spares.node_of_first course.wellFormed hosted first]
    exact visited other first
  · rw [List.mem_singleton.1 last]
    exact settled

/-- A new construct may be accepted in the place of its node: it is another node, and it has a parent. -/
theorem confirms {outcome : Context} {left : List Form} {others : List NodeId}
    (course : Course before limit host front (form :: rest) (id :: row) begun context.tree)
    (rewrites : Rewrites context limit host front head left new others outcome) :
    new ≠ id ∧ outcome.tree.parent new ≠ none := by
  have present : context.tree.Has id := has_of_parent (course.mem_children List.mem_cons_self).1
  refine ⟨fun same => rewrites.fresh (same ▸ present), ?_⟩
  rw [((course.rewrites rewrites).mem_children List.mem_cons_self).1]
  exact Option.some_ne_none host

/-- A node on the way gets another kind. -/
theorem setKind {kind : Kind} {changed : Form}
    (course : Course before limit host front (form :: rest) (id :: row) begun tree)
    (made : tree.setKind id kind = .ok after) (source : changed.source = form.source) (named : changed.kind = kind)
    (attributes : changed.attributes = form.attributes) (below : changed.children = form.children) :
    Course before limit host front (changed :: rest) (id :: row) begun after := by
  have wellFormed := course.wellFormed
  have sound := (Edited.setKind made).wellFormed wellFormed
  obtain ⟨-, -, rfl⟩ := setKind_eq_ok_iff.1 made
  obtain ⟨linked, behind⟩ := course.mem_children List.mem_cons_self
  have present := has_of_parent linked
  have spares := wellFormed.spares_update (course.beyond List.mem_cons_self) fun node => { node with kind := kind }
  obtain ⟨shown, others⟩ := List.forall₂_cons.1 course.shown
  have distinct := wellFormed.nodup host
  rw [course.listed] at distinct
  have notLater := (List.nodup_cons.1 distinct.of_append_right).1
  refine ⟨course.sound, sound, course.bounded, course.present, course.spares.trans course.sound spares, ?_, .cons ?_ ?_, ?_⟩
  · refine Eq.trans ?_ course.listed
    exact field_update tree id host Node.children fun _ => rfl
  · exact shows_update_self wellFormed present (fun _ => rfl) shown source named.symm
      ((shows_iff.1 shown).2.2.1.trans attributes.symm) below
  · refine forall₂_imp_of_mem others fun form _ other member shown => ?_
    have alike := (course.mem_children (List.mem_cons_of_mem id member)).1
    refine shows_update wellFormed (fun _ => rfl) (fun onPath => ?_) shown
    exact notLater (wellFormed.eq_of_onPath_of_siblings alike linked onPath .self ▸ member)
  · intro other beyond outside
    refine Eq.trans (field_update tree id other Node.state fun _ => rfl) ?_
    exact course.unvisited other (spares.beyond_of_beyond wellFormed ((has_update _ _ _ _).1 beyond.has) beyond) outside

end Course

/-! ## Checks -/

/-- The context has the rules of the core taglib, and lets unknown tags pass. -/
structure Cored (context : Context) : Prop where
  allows : context.options.allowUnknownTags = true
  rules : context.rules = fun tag => (entryOf tag).map TagEntry.rules

/-- Options and rules stay. -/
structure Lawful (before after : Context) : Prop where
  options : after.options = before.options
  rules : after.rules = before.rules

theorem Lawful.refl (context : Context) : Lawful context context :=
  ⟨rfl, rfl⟩

theorem Lawful.trans {first second third : Context} (left : Lawful first second) (right : Lawful second third) :
    Lawful first third :=
  ⟨right.options.trans left.options, right.rules.trans left.rules⟩

theorem Cored.lawful {later : Context} (cored : Cored context) (lawful : Lawful context later) : Cored later :=
  ⟨by rw [lawful.options, cored.allows], by rw [lawful.rules, cored.rules]⟩

theorem allows_of_entryOf {tag parent : String} {entry : TagEntry} (found : entryOf parent = some entry) :
    entry.rules.nesting.allows tag = true := by
  have known := List.mem_of_find?_eq_some found
  simp only [entries, List.mem_cons, List.not_mem_nil, or_false] at known
  rcases known with rfl | rfl | rfl | rfl | rfl | rfl | rfl | rfl | rfl <;> rfl

/-- The core taglib lets all tags be inside of its own. -/
theorem not_disallowed_core {tag above : String} : ¬Disallowed Registry.core tree id tag above := by
  rintro ⟨-, entry, found, refused⟩
  rw [lookup?_core] at found
  cases refused.symm.trans (allows_of_entryOf found)

theorem Cored.not_rejected (cored : Cored context) (halt : Halt) : ¬Rejected Registry.core id context halt := by
  intro rejected
  cases rejected with
  | unrecognized _ unknown => cases cored.allows.symm.trans unknown.refused
  | disallowed _ disallowed _ => exact not_disallowed_core disallowed

/-- What a check of the core taglib leaves behind. -/
def Checked (id : NodeId) (before after : Context) : Prop :=
  Lawful before after ∧ Remarked id before.tree after.tree

variable {halts : Halt → Prop}

/-- With the core taglib all tags pass their check. -/
theorem holds_checkTag_core (cored : Cored context) :
    Holds halts (checkTag Registry.core id) state context fun _ _ final => Checked id context final := by
  refine Meets.weaken holds_checkTag_inspected (fun halt rejected => absurd rejected (cored.not_rejected halt)) ?_
  rintro _ _ _ inspected
  obtain ⟨codes, diagnostics, tree, rfl, rfl, rfl | rfl⟩ := inspected.frame
  · exact ⟨⟨rfl, rfl⟩, .refl _⟩
  · exact ⟨⟨rfl, rfl⟩, remarked_setPreserve _ id true⟩

/-! ## Transforms -/

/-- What entering a node once comes to, in view of the siblings behind it. -/
inductive Entry (before : Tree) (limit : Nat) (host : NodeId) (front : List NodeId) (form : Form) (rest : List Form)
    (id : NodeId) (row : List NodeId) : Outcome → Tree → Prop
  | unchanged {tree : Tree} : form.rewrite rest = some (form, rest) →
      Course before limit host front (form :: rest) (id :: row) (· = id) tree →
        Entry before limit host front form rest id row .unchanged tree
  | changed {renamed : Form} {tree : Tree} : renamed.rewrite rest = form.rewrite rest →
      Course before limit host front (renamed :: rest) (id :: row) (· = id) tree →
        Entry before limit host front form rest id row .changed tree
  | replaced {head : Form} {left : List Form} {new : NodeId} {others : List NodeId} {tree : Tree} :
      form.rewrite rest = some (head, left) → head.tag? = none →
        Course before limit host front (head :: left) (new :: others) (· = id) tree →
          Entry before limit host front form rest id row (.replaced new) tree

/-- The walk faults if a tag stands for nothing. -/
def Refused (expected : Option α) (halt : Halt) : Prop :=
  IsFault halt ∧ expected = none

/-- What an edit reports that mirrors what a form stands for. -/
def Reported (before : Context) (limit : Nat) (host : NodeId) (front : List NodeId) (form : Form) (rest : List Form)
    (calm : Prop) (given : Form × List Form) (outcome : Outcome) (after : Context) : Prop :=
  outcome = .unchanged ∧ after = before ∧ given = (form, rest) ∧ calm ∨
    ∃ new row, outcome = .replaced new ∧ Rewrites before limit host front given.1 given.2 new row after

theorem tag?_of_shows (shown : tree.Shows limit form id) : form.tag? = elementTag? tree id :=
  (elementTag?_eq (shows_iff.1 shown).2.1).symm

theorem elementTag?_of_untagged (untagged : (tree.kind id).tag? = none) : elementTag? tree id = none := by
  unfold elementTag?
  split
  · next tag kind =>
      rw [kind] at untagged
      cases untagged
  · rfl

/-- The first transform mirrors what the form stands for; if it reports no change, there is no other one. -/
theorem holds_applyFirst_rewrite {transform : Transform} {transforms : List Transform}
    (course : Course before limit host front (form :: rest) (id :: row) (· = id) context.tree)
    (mirrors : Edit.Mirrors (form.rewrite rest) (transform.apply id) context
      (Reported context limit host front form rest (transforms = []))) :
    Holds (Refused (form.rewrite rest)) (applyFirst id (transform :: transforms)) state context fun outcome _ final =>
      Lawful context final ∧ Entry before limit host front form rest id row outcome final.tree := by
  cases expected : form.rewrite rest with
  | none =>
      obtain ⟨fault, after, failed⟩ := mirrors.1 expected
      exact holds_applyFirst_fault failed ⟨⟨fault, rfl⟩, rfl⟩
  | some given =>
      obtain ⟨outcome, after, done, reported⟩ := mirrors.2 given expected
      rcases reported with ⟨rfl, rfl, rfl, rfl⟩ | ⟨new, others, rfl, rewrites⟩
      · exact holds_applyFirst_idle done ⟨.refl _, .unchanged expected course⟩
      · have stepped := course.rewrites rewrites
        obtain ⟨different, attached⟩ := course.confirms rewrites
        have shown := (List.forall₂_cons.1 rewrites.shown).1
        have untagged : given.1.tag? = none := (tag?_of_shows shown).trans (elementTag?_of_untagged rewrites.untagged)
        exact holds_applyFirst_acts done (fun impossible => by cases impossible)
          (holds_confirm_replaced different attached ⟨⟨rewrites.options, rewrites.rules⟩, .replaced expected untagged stepped⟩)

/-- A transform of a control tag is the first one. -/
theorem holds_control {transform : Transform} {transforms : List Transform} (expected : Option (Form × List Form))
    (course : Course before limit host front (form :: rest) (id :: row) (· = id) context.tree)
    (means : form.rewrite rest = expected)
    (mirrors : Edit.Mirrors expected (transform.apply id) context fun given =>
      GivesWay context limit host front id given.1 given.2) :
    Holds (Refused (form.rewrite rest)) (applyFirst id (transform :: transforms)) state context fun outcome _ final =>
      Lawful context final ∧ Entry before limit host front form rest id row outcome final.tree := by
  refine holds_applyFirst_rewrite course ?_
  rw [means]
  exact mirrors.weaken fun _ _ _ givesWay => .inr givesWay.rewrites

/-- The form with another tag. -/
def renamed (form : Form) (tag : String) : Form :=
  .node form.source (.element tag) form.attributes form.children

theorem rewrite_renamed {old new : String} (tagged : form.tag? = some old)
    (older : (old, new) ∈ [("c-if", "if"), ("c-else-if", "else-if"), ("c-else", "else"), ("c-for", "for")]) :
    (renamed form new).rewrite rest = form.rewrite rest := by
  have retagged : (renamed form new).tag? = some new := rfl
  simp only [List.mem_cons, Prod.mk.injEq, List.not_mem_nil, or_false] at older
  unfold Form.rewrite
  rw [tagged, retagged]
  rcases older with ⟨rfl, rfl⟩ | ⟨rfl, rfl⟩ | ⟨rfl, rfl⟩ | ⟨rfl, rfl⟩ <;> rfl

/-- The transforms of older names do nothing but give the element its modern name. -/
theorem run_older {old new : String} {transform : Transform}
    (older : (old, new) ∈ [("c-if", "if"), ("c-else-if", "else-if"), ("c-else", "else"), ("c-for", "for")])
    (applies : transform.apply = fun id => do
      Edit.changeTree fun tree => tree.setKind id (.element new)
      return Outcome.changed) :
    context.tree.setKind id (.element new) = .ok (context.tree.update id fun node => { node with kind := .element new }) ∧
      (transform.apply id).run context = (.ok .changed,
        { context with tree := context.tree.update id fun node => { node with kind := .element new } }) := by
  have passes : (Kind.element new).check = .ok () := by
    simp only [List.mem_cons, Prod.mk.injEq, List.not_mem_nil, or_false] at older
    rcases older with ⟨rfl, rfl⟩ | ⟨rfl, rfl⟩ | ⟨rfl, rfl⟩ | ⟨rfl, rfl⟩ <;> rfl
  have made : context.tree.setKind id (.element new) = .ok (context.tree.update id fun node => { node with kind := .element new }) :=
    setKind_eq_ok_iff.2 ⟨passes, fun _ => rfl, rfl⟩
  refine ⟨made, ?_⟩
  rw [applies]
  exact Edit.run_bind_eq_ok_iff.2 ⟨(), _, Edit.run_changeTree_eq_ok_iff.2 ⟨_, made, rfl⟩, rfl⟩

/-- A tag with an older name gets its modern name. -/
theorem holds_older {old : String} (new : String) {transform : Transform} {transforms : List Transform}
    (course : Course before limit host front (form :: rest) (id :: row) (· = id) context.tree)
    (tagged : form.tag? = some old)
    (older : (old, new) ∈ [("c-if", "if"), ("c-else-if", "else-if"), ("c-else", "else"), ("c-for", "for")])
    (applies : transform.apply = fun id => do
      Edit.changeTree fun tree => tree.setKind id (.element new)
      return Outcome.changed) :
    Holds (Refused (form.rewrite rest)) (applyFirst id (transform :: transforms)) state context fun outcome _ final =>
      Lawful context final ∧ Entry before limit host front form rest id row outcome final.tree := by
  obtain ⟨made, ran⟩ := @run_older id context old new transform older applies
  exact holds_applyFirst_acts ran (fun impossible => by cases impossible)
    ⟨⟨rfl, rfl⟩, .changed (rewrite_renamed tagged older) (course.setKind made rfl rfl rfl rfl)⟩

theorem isSome_entryOf {tag : String}
    (known : tag ∈ ["if", "else-if", "else", "for", "html-comment", "c-if", "c-else-if", "c-else", "c-for"]) :
    (entryOf tag).isSome = true := by
  simp only [List.mem_cons, List.not_mem_nil, or_false] at known
  rcases known with rfl | rfl | rfl | rfl | rfl | rfl | rfl | rfl | rfl <;> rfl

/-- A tag that is not known to the core taglib stands for what its directives ask for. -/
theorem rewrite_of_unknown {tag : String} (tagged : form.tag? = some tag) (unknown : entryOf tag = none) :
    form.rewrite rest = form.lowerDirective.map fun head => (head, rest) := by
  have foreign : ∀ {name}, name ∈ ["if", "else-if", "else", "for", "html-comment", "c-if", "c-else-if", "c-else", "c-for"] →
      tag ≠ name := by
    rintro name known rfl
    have found := isSome_entryOf known
    rw [unknown] at found
    cases found
  have modern : Form.modernTag tag = tag := by
    unfold Form.modernTag
    split
    · exact absurd rfl (foreign (by simp))
    · exact absurd rfl (foreign (by simp))
    · exact absurd rfl (foreign (by simp))
    · exact absurd rfl (foreign (by simp))
    · rfl
  unfold Form.rewrite
  rw [tagged]
  dsimp only
  rw [modern]
  split
  · exact absurd rfl (foreign (by simp))
  · exact absurd rfl (foreign (by simp))
  · exact absurd rfl (foreign (by simp))
  · exact absurd rfl (foreign (by simp))
  · exact absurd rfl (foreign (by simp))
  · rfl

theorem transformsFor_enter {tag : String} {entry : TagEntry} (tagged : (tree.kind id).tag? = some tag)
    (found : entryOf tag = some entry) :
    transformsFor Registry.core tree id .enter = entry.declared ++ [directives] := by
  have tagged : (tree.node id).tag? = some tag := tagged
  obtain ⟨plain, own, declared, phase, -⟩ := own_of_entryOf found
  have transforms : entry.transforms = [own] := by
    rw [TagEntry.transforms, plain, declared]
    rfl
  have enters : (own.phase == Phase.enter) = true := by
    rw [phase]
    rfl
  rw [transformsFor, tagged]
  dsimp only
  rw [lookup?_core, globals_core, found]
  simp [transforms, declared, enters, directives]

/-- The transforms for entering a node mirror what its form stands for. -/
theorem holds_applyFirst_means (template : context.tree.IsTemplate root) (cored : Cored context)
    (course : Course before limit host front (form :: rest) (id :: row) (· = id) context.tree) :
    Holds (Refused (form.rewrite rest)) (applyFirst id (transformsFor Registry.core context.tree id .enter)) state context
      fun outcome _ final => Lawful context final ∧ Entry before limit host front form rest id row outcome final.tree := by
  have shown := (List.forall₂_cons.1 course.shown).1
  have bench := course.bench
  cases tagged : (context.tree.kind id).tag? with
  | none =>
      have untagged : form.tag? = none := (tag?_of_shows shown).trans (elementTag?_of_untagged tagged)
      rw [transformsFor_of_untagged tagged]
      refine ⟨.refl context, .unchanged ?_ course⟩
      rw [Form.rewrite, untagged]
  | some tag =>
      have kind := template.plain id tag tagged
      have named : form.tag? = some tag := by
        rw [tag?_of_shows shown, elementTag?_of_kind kind]
      cases found : entryOf tag with
      | none =>
          rcases (transformsFor_core tagged).2 with ⟨-, transforms⟩ | ⟨entry, own, impossible, -⟩
          · rw [transforms]
            refine holds_applyFirst_rewrite course ?_
            rw [rewrite_of_unknown named found]
            refine Edit.Mirrors.ofMap ((mirrors_lowerDirective bench shown).weaken ?_)
            rintro head outcome after (⟨rfl, rfl, rfl⟩ | replaced)
            · exact .inl ⟨rfl, rfl, rfl, rfl⟩
            · exact .inr replaced
          · rw [found] at impossible
            cases impossible
      | some entry =>
          rw [transformsFor_enter tagged found]
          have isTag : form.tag?.isNone = false := by rw [named]; rfl
          obtain ⟨known, name⟩ := mem_entries_of_entryOf found
          simp only [entries, List.mem_cons, List.not_mem_nil, or_false] at known
          rcases known with rfl | rfl | rfl | rfl | rfl | rfl | rfl | rfl | rfl
          · obtain rfl : "if" = tag := name
            refine holds_control _ course (by rw [Form.rewrite, named]; rfl) (mirrors_lowerIf bench shown named ?_)
            rw [cored.rules]
            rfl
          · obtain rfl : "else-if" = tag := name
            refine holds_control none course (by rw [Form.rewrite, named]; rfl) ?_
            exact .step (Edit.run_tree context) (Edit.mirrors_failAt id _)
          · obtain rfl : "else" = tag := name
            refine holds_control none course (by rw [Form.rewrite, named]; rfl) ?_
            exact .step (Edit.run_tree context) (Edit.mirrors_failAt id _)
          · obtain rfl : "for" = tag := name
            exact holds_control _ course (by rw [Form.rewrite, named]; rfl) (.ofMap (mirrors_lowerFor bench shown isTag))
          · obtain rfl : "html-comment" = tag := name
            exact holds_control _ course (by rw [Form.rewrite, named]; rfl) (.ofMap (mirrors_lowerComment bench shown isTag))
          · obtain rfl : "c-if" = tag := name
            exact holds_older "if" course named (by simp) rfl
          · obtain rfl : "c-else-if" = tag := name
            exact holds_older "else-if" course named (by simp) rfl
          · obtain rfl : "c-else" = tag := name
            exact holds_older "else" course named (by simp) rfl
          · obtain rfl : "c-for" = tag := name
            exact holds_older "for" course named (by simp) rfl

/-! ## Entering -/

theorem holds_enterOnce_means (template : context.tree.IsTemplate root) (cored : Cored context)
    (course : Course before limit host front (form :: rest) (id :: row) begun context.tree)
    (within : ∀ other, begun other → other = id) :
    Holds (Refused (form.rewrite rest)) (enterOnce Registry.core id) state context fun result _ final =>
      Lawful context final ∧ Entry before limit host front form rest id row result.1 final.tree := by
  have lawful : Lawful context { context with tree := context.tree.setState id .entering } := ⟨rfl, rfl⟩
  refine .enterOnce (holds_checkTag_core (cored.lawful lawful)) ?_
  rintro checked entered ⟨same, remarked⟩
  have remarked := (remarked_setState context.tree id .entering).trans remarked
  refine .runPhase ((holds_applyFirst_means (isTemplate_sameShape remarked.shape template)
    (cored.lawful (lawful.trans same)) (course.start remarked List.mem_cons_self rfl within)).weaken ?_)
  rintro outcome after final ⟨later, entry⟩
  exact ⟨(lawful.trans same).trans later, entry⟩

end Walk
end HtmlTemplate
