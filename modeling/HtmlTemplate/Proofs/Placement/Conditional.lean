import HtmlTemplate.Proofs.Placement.Safety

/-!
# Conditionals that fail for the template only

An `<if>` takes the branch tags inside of it and behind it, and makes branches of a new conditional from
them. All of these tags hang loose while the conditional grows, and it is closed by a branch without a test.
-/

namespace HtmlTemplate
namespace Construct

open HtmlTemplate.Tree

variable {context : Context} {before tree after : Tree} {host id new : NodeId} {owners moved ids : List NodeId}

/-- The nodes are elements without parents that are free to be moved. -/
def Pending (before : Tree) (host : NodeId) (ids : List NodeId) (tree : Tree) : Prop :=
  ∀ tag ∈ ids, before.Free host [] tag ∧ tree.Has tag ∧ tree.parent tag = none ∧ ∃ name, tree.kind tag = .element name

theorem Pending.grown (pending : Pending before host ids tree) (extension : tree.Extends after) :
    Pending before host ids after := by
  intro tag member
  obtain ⟨free, present, detached, name, kind⟩ := pending tag member
  have same := extension.node_of_has tag present
  refine ⟨free, extension.has present, ?_, name, ?_⟩
  · rw [Tree.parent, same, ← Tree.parent, detached]
  · rw [Tree.kind, same, ← Tree.kind, kind]

/-- Moving other nodes leaves them as they are. -/
theorem Pending.relinked (pending : Pending before host ids tree) (relinked : tree.Relinked owners moved after)
    (apart : ∀ tag ∈ ids, tag ∉ moved) : Pending before host ids after := by
  intro tag member
  obtain ⟨free, present, detached, name, kind⟩ := pending tag member
  have unmoved := apart tag member
  refine ⟨free, relinked.has_iff.2 present, ?_, name, ?_⟩
  · rw [relinked.parent_eq unmoved, detached]
  · rw [relinked.kind, kind]

theorem Pending.append {more : List NodeId} (pending : Pending before host ids tree)
    (others : Pending before host more tree) : Pending before host (ids ++ more) tree := by
  intro tag member
  rcases List.mem_append.1 member with first | second
  · exact pending tag first
  · exact others tag second

/-- A new conditional without a parent. While it is open, all of its branches have tests. -/
structure Heading (before : Tree) (conditional : NodeId) (closed : Bool) (tree : Tree) : Prop where
  absent : ¬before.Has conditional
  present : tree.Has conditional
  detached : tree.parent conditional = none
  kind : tree.kind conditional = .conditional
  tested : closed = false → ∀ branch ∈ tree.children conditional, ∃ test, tree.kind branch = .branch (some test)

namespace Heading

variable {conditional : NodeId} {closed : Bool}

theorem grown (heading : Heading before conditional closed tree) (wellFormed : tree.WellFormed)
    (extension : tree.Extends after) : Heading before conditional closed after := by
  have same := extension.node_of_has conditional heading.present
  refine ⟨heading.absent, extension.has heading.present, ?_, ?_, fun opened branch member => ?_⟩
  · rw [Tree.parent, same, ← Tree.parent, heading.detached]
  · rw [Tree.kind, same, ← Tree.kind, heading.kind]
  · rw [Tree.children, same] at member
    rw [Tree.kind, extension.node_of_has branch (wellFormed.has_child member)]
    exact heading.tested opened branch member

theorem relinked (heading : Heading before conditional closed tree) (relinked : tree.Relinked owners moved after)
    (unowned : conditional ∉ owners) (unmoved : conditional ∉ moved) : Heading before conditional closed after := by
  refine ⟨heading.absent, relinked.has_iff.2 heading.present, ?_, ?_, fun opened branch member => ?_⟩
  · rw [relinked.parent_eq unmoved, heading.detached]
  · rw [relinked.kind, heading.kind]
  · rw [relinked.children conditional unowned] at member
    rw [relinked.kind]
    exact heading.tested opened branch member

end Heading

/-- The conditional grows: it hangs loose, as do the tags that are to become branches of it, and the tag that it is made
for waits in its place. -/
structure Growing (before : Tree) (host id conditional : NodeId) (closed : Bool) (ids : List NodeId) (tree : Tree) :
    Prop where
  building : Building before host tree
  waiting : Waiting host id tree
  heading : Heading before conditional closed tree
  pending : Pending before host ids tree

/-! ## Branch tags behind the tag -/

theorem element_of_isBranch {nesting : Nesting} (branch : Conditional.isBranch nesting tree id = true) :
    ∃ name, tree.kind id = .element name := by
  unfold Conditional.isBranch elementTag? at branch
  cases kind : tree.kind id with
  | element name => exact ⟨name, rfl⟩
  | _ =>
      rw [kind] at branch
      cases branch

/-- A child of the host is taken from it. -/
theorem run_detach (building : Building before host context.tree) {front rest : List NodeId}
    (listed : context.tree.children host = front ++ id :: rest) (other : context.tree.kind host ≠ .conditional) :
    ∃ tree, (detach id).run context = (.ok (), { context with tree }) ∧ Building before host tree ∧
      context.tree.Relinked [host] [id] tree ∧ tree.children host = front ++ rest ∧ tree.parent id = none := by
  obtain ⟨tree, made, edited, relinked, children, gone⟩ := exists_detach building.wellFormed listed
  refine ⟨tree, Edit.run_changeTree_eq_ok_iff.2 ⟨tree, made, rfl⟩, building.relinked (.single edited) relinked ?_ ?_ ?_,
    relinked, children, gone⟩
  · exact fun owner among => .inl (List.mem_singleton.1 among)
  · intro moved among
    rw [List.mem_singleton.1 among]
    refine building.free ((building.wellFormed.linked host id).1 ?_)
    rw [listed]
    simp
  · intro owner among
    rw [List.mem_singleton.1 among, children, Kind.takes_iff_of_ne other]
    have before := (Kind.takes_iff_of_ne other).1 (building.placed host)
    rw [listed] at before
    simp only [List.map_append, List.map_cons, List.mem_append, List.mem_cons, or_imp, forall_and] at before ⊢
    exact ⟨before.1, before.2.2⟩

/-- Siblings are taken from the host, and those that are given are branch tags among them. -/
theorem safely_takeFollowing (nesting : Nesting) {front rest : List NodeId} (building : Building before host context.tree)
    (listed : context.tree.children host = front ++ rest) (other : context.tree.kind host ≠ .conditional) :
    Edit.Safely (Conditional.takeFollowing nesting rest) context fun taken after =>
      Building before host after.tree ∧ Pending before host taken after.tree ∧
        ∃ moved, moved ⊆ rest ∧ context.tree.Relinked [host] moved after.tree := by
  induction rest generalizing context with
  | nil =>
      exact Edit.safely_pure ⟨building, fun _ none => absurd none List.not_mem_nil, [], List.Subset.refl _, .refl _ _ _⟩
  | cons sibling rest hypothesis =>
      obtain ⟨tree, ran, known, relinked, children, gone⟩ := run_detach building listed other
      have distinct := building.wellFormed.nodup host
      rw [listed] at distinct
      have notLater := (List.nodup_cons.1 distinct.of_append_right).1
      have rests := @hypothesis { context with tree } known children (by
        rw [relinked.kind]
        exact other)
      unfold Conditional.takeFollowing
      refine .step (Edit.run_tree context) ?_
      split
      · split
        · refine .step ran (rests.weaken ?_)
          rintro taken after ⟨ready, pending, moved, within, relinkedMore⟩
          refine ⟨ready, pending, sibling :: moved, List.cons_subset_cons sibling within, ?_⟩
          exact (relinked.mono (List.Subset.refl _) (by simp)).trans
            (relinkedMore.mono (List.Subset.refl _) (List.subset_cons_self sibling moved))
        · exact Edit.safely_pure ⟨building, fun _ none => absurd none List.not_mem_nil, [], List.nil_subset _, .refl _ _ _⟩
      · split
        · next branch =>
            refine .step ran (rests.bind ?_)
            rintro taken after ⟨ready, pending, moved, within, relinkedMore⟩
            obtain ⟨name, kind⟩ := element_of_isBranch branch
            refine Edit.safely_pure ⟨ready, ?_, sibling :: moved, List.cons_subset_cons sibling within, ?_⟩
            · intro tag member
              rcases List.mem_cons.1 member with rfl | member
              · have linked := (building.wellFormed.linked host tag).1 (by rw [listed]; simp)
                refine ⟨building.free linked, relinkedMore.has_iff.2 (relinked.has_iff.2 (has_of_parent linked)), ?_, name, ?_⟩
                · rw [relinkedMore.parent_eq fun among => notLater (within among), gone]
                · rw [relinkedMore.kind, relinked.kind, kind]
              · exact pending tag member
            · exact (relinked.mono (List.Subset.refl _) (by simp)).trans
                (relinkedMore.mono (List.Subset.refl _) (List.subset_cons_self sibling moved))
        · exact Edit.safely_pure ⟨building, fun _ none => absurd none List.not_mem_nil, [], List.nil_subset _, .refl _ _ _⟩

/-! ## Branches -/

theorem safely_warnDeprecated (id : NodeId) (tag : String) :
    Edit.Safely (Conditional.warnDeprecated id tag) context fun _ after => after.tree = context.tree := by
  unfold Conditional.warnDeprecated
  have got : (get : Edit Context).run context = (.ok context, context) := rfl
  refine .step got ?_
  split
  · exact Edit.safely_of_ok rfl rfl
  · exact Edit.safely_pure rfl

theorem safely_readTest (id : NodeId) (tag : String) :
    Edit.Safely (Conditional.readTest id tag) context fun _ after => after = context := by
  unfold Conditional.readTest
  split
  · refine (safely_requireOnly id _).bind ?_
    rintro _ _ rfl
    refine (safely_requireCode id "test").bind ?_
    rintro _ _ rfl
    exact Edit.safely_pure rfl
  · refine (safely_requireOnly id _).bind ?_
    rintro _ _ rfl
    exact Edit.safely_pure rfl

/-- The next tag becomes the next branch of the conditional, and its children those of the branch. -/
theorem safely_addBranch {conditional tag : NodeId}
    (growing : Growing before host id conditional false (tag :: ids) context.tree) (test : Option String) :
    Edit.Safely (do
      let branch ← create tag (.branch test) []
      moveChildren tag branch
      append conditional branch) context fun _ after =>
        Growing before host id conditional test.isNone ids after.tree := by
  refine (safely_create growing.building tag rfl).bind ?_
  rintro branch middle ⟨-, known, -, extension, absent, construct⟩
  have apart : conditional ≠ branch := fun same => absent (same ▸ growing.heading.present)
  have waiting := growing.waiting.grown extension
  have heading := growing.heading.grown growing.building.wellFormed extension
  have pending := growing.pending.grown extension
  obtain ⟨freeTag, -, detachedTag, name, kindTag⟩ := pending tag List.mem_cons_self
  have freeBranch : before.Free host [] branch :=
    free_of_new fun present => absent (growing.building.worked.has present)
  have other : tag ≠ branch := by
    rintro rfl
    cases kindTag.symm.trans construct.kind
  -- The children of the tag are moved into the branch. All else hangs loose, so that none of it is among them.
  obtain ⟨filled, ran, ready, moving, -⟩ := run_move known freeTag
    (by rw [kindTag]; exact fun impossible => by cases impossible) construct.parent freeBranch .self
    (fun above => other (onPath_of_root construct.parent above)) construct.present
    (by rw [construct.kind]; rfl) (by rw [construct.kind]; exact fun impossible => by cases impossible)
    construct.children
  have loose : ∀ {node : NodeId}, middle.tree.parent node = none → node ∉ middle.tree.children tag := by
    intro node detached member
    cases detached.symm.trans ((known.wellFormed.linked tag node).1 member)
  have waiting := waiting.relinked moving fun member => by
    have same := waiting.linked.symm.trans ((known.wellFormed.linked tag id).1 member)
    exact known.not_above freeTag (Option.some.inj same ▸ .self)
  have heading := heading.relinked moving (by
    simp only [List.mem_cons, List.not_mem_nil, or_false, not_or]
    refine ⟨?_, apart⟩
    rintro rfl
    cases kindTag.symm.trans heading.kind) (loose heading.detached)
  have pending := pending.relinked moving fun other member => loose (pending other member).2.2.1
  have branchKind : filled.kind branch = .branch test := (moving.kind branch).trans construct.kind
  have detached : filled.parent branch = none :=
    (moving.parent_eq (loose construct.parent)).trans construct.parent
  -- The branch is put behind the others, which all have tests.
  obtain ⟨tree, adopted, final, adjoined, children⟩ := @run_adjoin { middle with tree := filled } _ _
    conditional branch ready heading.present (by rw [heading.kind]; rfl) (free_of_new heading.absent)
    (moving.has_iff.2 construct.present) detached freeBranch
    (fun above => apart (onPath_of_root heading.detached above).symm) (by
      rw [heading.kind, Kind.takes_conditional_iff, List.map_append, List.map_singleton, branchKind]
      refine Kind.areBranches_append (fun kind member => ?_) test
      obtain ⟨kid, listed, rfl⟩ := List.mem_map.1 member
      exact heading.tested rfl kid listed)
  refine .step ran (Edit.safely_of_ok adopted ⟨final, ?_, ?_, ?_⟩)
  · refine waiting.relinked adjoined fun member => ?_
    obtain rfl := List.mem_singleton.1 member
    cases detached.symm.trans waiting.linked
  · refine ⟨heading.absent, adjoined.has_iff.2 heading.present, ?_, ?_, fun tested kid member => ?_⟩
    · rw [adjoined.parent_eq (by simpa using apart), heading.detached]
    · rw [adjoined.kind, heading.kind]
    · rw [children] at member
      rw [adjoined.kind]
      rcases List.mem_append.1 member with earlier | last
      · exact heading.tested rfl kid earlier
      · obtain ⟨own, rfl⟩ := Option.isSome_iff_exists.1 (Option.isNone_eq_false_iff.1 tested)
        exact ⟨own, List.mem_singleton.1 last ▸ branchKind⟩
  · have still := pending.relinked adjoined fun other member among => by
      obtain ⟨-, -, -, name, kind⟩ := pending other member
      rw [List.mem_singleton.1 among, branchKind] at kind
      cases kind
    exact fun other member => still other (List.mem_cons_of_mem _ member)

/-- Pending tags become branches of the conditional. The induction is on the tags. -/
theorem safely_addBranches {conditional : NodeId} {closed : Bool}
    (growing : Growing before host id conditional closed ids context.tree) :
    Edit.Safely (Conditional.addBranches conditional closed ids) context fun _ after =>
      ∃ closed, Growing before host id conditional closed [] after.tree := by
  induction ids generalizing context closed with
  | nil => exact Edit.safely_pure ⟨closed, growing⟩
  | cons tag ids hypothesis =>
      unfold Conditional.addBranches
      refine .step (Edit.run_tree context) ?_
      split
      · exact Edit.safely_failAt rfl
      · next opened =>
          rw [Bool.not_eq_true] at opened
          subst opened
          refine (safely_warnDeprecated _ _).bind ?_
          rintro _ warned same
          rw [← same] at growing
          refine (safely_readTest _ _).bind ?_
          rintro test _ rfl
          have added := (safely_addBranch growing test).bind fun _ _ grown => hypothesis grown
          simpa only [bind_assoc] using added

/-! ## The construct -/

theorem following_of_split {front rest : List NodeId} (wellFormed : tree.WellFormed)
    (listed : tree.children host = front ++ id :: rest) : tree.following id = rest := by
  have linked : tree.parent id = some host := (wellFormed.linked host id).1 (by rw [listed]; simp)
  unfold Tree.following
  rw [linked]
  dsimp only
  rw [wellFormed.indexOf?_of_split listed, listed]
  dsimp only
  rw [← List.singleton_append, ← List.append_assoc, List.drop_left' (by simp)]

/-- A loop around the conditional takes the place of the tag. -/
theorem safely_replaceByLoop {first : Context} {conditional : NodeId} {closed : Bool}
    (building : Building first.tree host context.tree) (waiting : Waiting host id context.tree)
    (heading : Heading first.tree conditional closed context.tree) (header : String) :
    Edit.Safely (do
      let loop ← iteration id header
      let outcome ← replace id loop
      append loop conditional
      return outcome) context (Replaces first host id) := by
  refine (safely_iteration building id header).bind ?_
  rintro loop middle ⟨-, known, extension, absent, kind, container, content, other, construct⟩
  have fresh : ¬first.tree.Has loop := fun present => absent (building.worked.has present)
  have different : conditional ≠ loop := fun same => absent (same ▸ heading.present)
  have waiting := waiting.grown extension
  have heading := heading.grown building.wellFormed extension
  have freeConditional : first.tree.Free host [] conditional := free_of_new heading.absent
  obtain ⟨tree, ran, there, exchanged, gone, placed⟩ := run_exchange known waiting.linked waiting.content
    construct.present construct.parent (free_of_new fresh) (by rw [construct.kind, content])
  have notHost : loop ∉ [host] := by
    rw [List.mem_singleton]
    rintro rfl
    exact fresh building.present
  have notMoved : conditional ∉ [id, loop] := by
    simp only [List.mem_cons, List.not_mem_nil, or_false, not_or]
    refine ⟨?_, different⟩
    rintro rfl
    cases heading.detached.symm.trans waiting.linked
  have notBelow : ¬tree.OnPath conditional loop := by
    intro above
    rcases onPath_iff.1 above with same | ⟨parent, linked, higher⟩
    · exact different same
    · obtain rfl := Option.some.inj (placed.symm.trans linked)
      exact there.not_above freeConditional higher
  obtain ⟨final, adopted, done, adjoined, -⟩ := @run_adjoin { middle with tree } _ _ loop conditional there
    (exchanged.has_iff.2 construct.present) (by rw [exchanged.kind, construct.kind, container]) (free_of_new fresh)
    (exchanged.has_iff.2 heading.present) ((exchanged.parent_eq notMoved).trans heading.detached) freeConditional
    notBelow (by
      rw [exchanged.kind, exchanged.children loop notHost, construct.kind, construct.children,
        Kind.takes_iff_of_ne other]
      simp [exchanged.kind, heading.kind, Kind.isContent])
  refine .step ran (.step adopted (Edit.safely_pure ⟨loop, rfl, done, ?_, ?_, fresh⟩))
  · have apart : id ≠ conditional := fun same => notMoved (same ▸ List.mem_cons_self)
    rw [adjoined.parent_eq (by simpa using apart), gone]
  · rw [adjoined.parent_eq (by simpa using different.symm), placed]

/-- The children of the tag that become no branch go below the first branch of the conditional. The others hang loose. -/
theorem run_fillBranch {nesting : Nesting} {outer inner : NodeId} {test : String}
    (building : Building before host context.tree) (waiting : Waiting host id context.tree)
    (around : context.tree.IsConstruct outer .conditional [inner] none)
    (within : context.tree.IsConstruct inner (.branch (some test)) [] (some outer))
    (absent : ¬before.Has outer) (absentInner : ¬before.Has inner) :
    ∃ emptied filled, (Edit.takeTree fun tree => tree.takeChildren id).run context =
        (.ok (context.tree.children id), { context with tree := emptied }) ∧
      (appendAll inner ((context.tree.children id).filter fun child => !Conditional.isBranch nesting emptied child)).run
        { context with tree := emptied } = (.ok (), { context with tree := filled }) ∧
      Growing before host id outer false ((context.tree.children id).filter (Conditional.isBranch nesting emptied))
        filled := by
  have freeId := building.free waiting.linked
  have outerNotId : outer ≠ id := by
    rintro rfl
    cases around.parent.symm.trans waiting.linked
  have innerNotId : inner ≠ id := by
    rintro rfl
    have same := Option.some.inj (within.parent.symm.trans waiting.linked)
    exact absent (same ▸ building.present)
  have outerNotInner : outer ≠ inner := by
    rintro rfl
    cases around.parent.symm.trans within.parent
  have loose : ∀ {node : NodeId}, context.tree.parent node ≠ some id → node ∉ context.tree.children id :=
    fun elsewhere member => elsewhere ((building.wellFormed.linked id _).1 member)
  have outerNotKid : outer ∉ context.tree.children id := loose (by rw [around.parent]; simp)
  have innerNotKid : inner ∉ context.tree.children id := loose (by rw [within.parent]; simpa using outerNotId)
  have notOwnKid := waiting.not_child building.wellFormed
  have heading : Heading before outer false context.tree := by
    refine ⟨absent, around.present, around.parent, around.kind, fun _ branch member => ⟨test, ?_⟩⟩
    rw [around.children] at member
    rw [List.mem_singleton.1 member, within.kind]
  have kidFree : ∀ kid ∈ context.tree.children id, before.Free host [] kid := fun kid member =>
    building.worked.free_of_child building.sound ((building.wellFormed.linked id kid).1 member) freeId
  have kidContent : ∀ kid ∈ context.tree.children id, (context.tree.kind kid).isContent = true := fun kid member =>
    building.placed.isContent waiting.other member
  obtain ⟨emptied, took, ready, taking, -, loosened⟩ := run_take building freeId
  have heading := heading.relinked taking (by simpa using outerNotId) outerNotKid
  have waiting := waiting.relinked taking notOwnKid
  have kidHas : ∀ kid ∈ context.tree.children id, emptied.Has kid := fun kid member =>
    taking.has_iff.2 (building.wellFormed.has_child member)
  have kidApart : ∀ kid ∈ context.tree.children id, ¬emptied.OnPath kid inner := by
    intro kid member above
    rcases onPath_iff.1 above with same | ⟨parent, linked, higher⟩
    · exact innerNotKid (same ▸ member)
    · rw [taking.parent_eq innerNotKid, within.parent] at linked
      obtain rfl := Option.some.inj linked
      exact outerNotKid (onPath_of_root heading.detached higher ▸ member)
  have innerKind := (taking.kind inner).trans within.kind
  have innerEmpty : emptied.children inner = [] := by
    rw [taking.children inner (by simpa using innerNotId), within.children]
  have inKids : ∀ {kid}, kid ∈ (context.tree.children id).filter (fun child => !Conditional.isBranch nesting emptied child) →
      kid ∈ context.tree.children id := fun member => (List.mem_filter.1 member).1
  obtain ⟨filled, ran, filling, joining, -⟩ := @run_join { context with tree := emptied } _ _ inner
    ((context.tree.children id).filter fun child => !Conditional.isBranch nesting emptied child) ready
    (taking.has_iff.2 within.present) (by rw [innerKind]; rfl) (free_of_new absentInner)
    ((building.wellFormed.nodup id).filter _) (fun kid member => kidFree kid (inKids member))
    (fun kid member => ⟨kidHas kid (inKids member), loosened kid (inKids member), kidApart kid (inKids member)⟩) (by
      rw [innerKind, innerEmpty, Kind.takes_iff_of_ne (fun impossible => by cases impossible)]
      intro other member
      obtain ⟨kid, listed, rfl⟩ := List.mem_map.1 member
      rw [taking.kind]
      exact kidContent kid (inKids listed))
  refine ⟨emptied, filled, took, ran, filling, waiting.relinked joining fun among => notOwnKid (inKids among),
    heading.relinked joining (by simpa using outerNotInner) fun among => outerNotKid (inKids among), ?_⟩
  have pending : Pending before host ((context.tree.children id).filter (Conditional.isBranch nesting emptied))
      emptied := by
    intro tag member
    obtain ⟨listed, branch⟩ := List.mem_filter.1 member
    exact ⟨kidFree tag listed, kidHas tag listed, loosened tag listed, element_of_isBranch branch⟩
  refine pending.relinked joining fun tag member among => ?_
  have branch := (List.mem_filter.1 member).2
  have other := (List.mem_filter.1 among).2
  rw [branch] at other
  cases other

/-- The branch tags behind the tag are taken from the host, and are pending behind those from inside of it. -/
theorem safely_takeBehind {conditional : NodeId} {closed : Bool} (nesting : Nesting)
    (growing : Growing before host id conditional closed ids context.tree) :
    Edit.Safely (Conditional.takeFollowing nesting (context.tree.following id)) context fun taken after =>
      Growing before host id conditional closed (ids ++ taken) after.tree := by
  have wellFormed := growing.building.wellFormed
  have member := (wellFormed.linked host id).2 growing.waiting.linked
  obtain ⟨front, rest, listed⟩ := List.append_of_mem member
  have hosted := growing.building.placed.ne_conditional member growing.waiting.content
  rw [following_of_split wellFormed listed]
  refine (@safely_takeFollowing _ _ _ nesting (front ++ [id]) rest growing.building (by rw [listed]; simp)
    hosted).weaken ?_
  rintro followers after ⟨built, more, moved, behind, taken⟩
  have elsewhere : ∀ {node}, context.tree.parent node = none → node ∉ moved := fun {node} detached among => by
    have linked := (wellFormed.linked host node).1 (by rw [listed]; simp [behind among])
    cases detached.symm.trans linked
  have notHost : conditional ∉ [host] := fun among =>
    growing.heading.absent (List.mem_singleton.1 among ▸ growing.building.present)
  have distinct := wellFormed.nodup host
  rw [listed] at distinct
  have idLater : id ∉ rest := (List.nodup_cons.1 distinct.of_append_right).1
  exact ⟨built, growing.waiting.relinked taken fun among => idLater (behind among),
    growing.heading.relinked taken notHost (elsewhere growing.heading.detached),
    (growing.pending.relinked taken fun tag member => elsewhere (growing.pending tag member).2.2.1).append more⟩

theorem safely_lowerIf {tag : String} (wellFormed : context.tree.WellFormed) (placed : context.tree.WellPlaced)
    (kind : context.tree.kind id = .element tag) (linked : context.tree.parent id = some host) :
    Edit.Safely (Conditional.lower id) context (Replaces context host id) := by
  have building := Building.start wellFormed placed linked
  have waiting := Waiting.start kind linked
  unfold Conditional.lower
  refine .step (Edit.run_tree context) ?_
  rw [elementTag?_of_kind kind]
  refine (safely_requireOnly id _).bind ?_
  rintro _ _ rfl
  refine (safely_requireCode id "test").bind ?_
  rintro test context rfl
  have got : (get : Edit Context).run context = (.ok context, context) := rfl
  refine .step got ?_
  generalize (((context.rules tag).map TagRules.nesting).getD {}) = nesting
  refine (safely_conditional building id test).bind ?_
  rintro ⟨outer, inner⟩ middle ⟨-, known, extension, absent, absentInner, around, within⟩
  obtain ⟨emptied, filled, took, ran, growing⟩ :=
    run_fillBranch known (waiting.grown extension) around within absent absentInner
  refine .step took (.step (Edit.run_tree _) (.step ran (.step (Edit.run_tree _) ?_)))
  refine (@safely_takeBehind { middle with tree := filled } _ _ _ _ _ _ nesting growing).bind ?_
  rintro followers _ grown
  refine (safely_addBranches grown).bind ?_
  rintro _ final ⟨closed, ⟨whole, waiting, heading, -⟩⟩
  refine .step (Edit.run_tree final) ?_
  split
  · exact safely_exchange whole waiting heading.present heading.detached heading.absent (by rw [heading.kind]; rfl)
  · exact safely_replaceByLoop whole waiting heading _

end Construct
end HtmlTemplate
