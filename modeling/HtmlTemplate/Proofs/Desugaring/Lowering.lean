import HtmlTemplate.Proofs.Desugaring.Constructing

/-!
# Loops, comments and directives

The transforms of these tags mirror what the tags stand for. Each of them leaves a new construct in the
place of its node, and the siblings behind the node as they are.
-/

namespace HtmlTemplate

namespace Tree

/-- A construct that was not there before shows its kind and what its children show. -/
theorem Bench.shows_construct {before tree : Tree} {limit : Nat} {host id new : NodeId} {front row : List NodeId}
    {forms below : List Form} {kind : Kind} (bench : Bench before limit host front forms id row tree)
    (absent : ¬before.Has new) (made : tree.kind new = kind) (attributes : (tree.node new).attributes = [])
    (shown : List.Forall₂ (tree.Shows limit) below (tree.children new)) :
    tree.Shows limit (Form.construct kind below) new := by
  have source : sourceOf limit new = none := by
    have bounded := bench.bounded
    have past : ¬new.index < before.size := absent
    rw [sourceOf, if_neg (by omega)]
  exact shows_iff.2 ⟨source.symm, made, attributes, shown⟩

theorem Bench.shows_of_construct {before tree : Tree} {limit : Nat} {host id new : NodeId} {front row kids : List NodeId}
    {forms below : List Form} {kind : Kind} {parent : Option NodeId}
    (bench : Bench before limit host front forms id row tree) (construct : tree.IsConstruct new kind kids parent)
    (absent : ¬before.Has new) (shown : List.Forall₂ (tree.Shows limit) below kids) :
    tree.Shows limit (Form.construct kind below) new := by
  refine bench.shows_construct absent construct.kind construct.attributes ?_
  rwa [construct.children]

/-- A construct without a parent stays as it is while the children of the node on the bench are moved. -/
theorem Bench.unloaded {before tree after : Tree} {limit : Nat} {host id new target : NodeId}
    {front row kids : List NodeId} {forms : List Form} {kind : Kind}
    (bench : Bench before limit host front forms id row tree) (construct : tree.IsConstruct new kind kids none)
    (relinked : tree.Relinked [id, target] (tree.children id) after) (different : new ≠ target) :
    after.IsConstruct new kind kids none := by
  have linked := (bench.mem_children List.mem_cons_self).1
  refine construct.relinked relinked ?_ ?_
  · simp only [List.mem_cons, List.not_mem_nil, or_false, not_or]
    refine ⟨?_, different⟩
    rintro rfl
    cases construct.parent.symm.trans linked
  · rw [bench.wellFormed.linked, construct.parent]
    simp

end Tree

namespace Construct

open HtmlTemplate.Tree

variable {context after : Context} {before : Tree} {host id source target construct inner : NodeId}
variable {front row : List NodeId} {limit : Nat} {form head : Form} {forms below rest left : List Form}

/-- A new construct shows the head in the place of the node, which has no parent any more. The siblings
behind it show what is left. -/
def GivesWay (before : Context) (limit : Nat) (host : NodeId) (front : List NodeId) (id : NodeId) (head : Form)
    (left : List Form) (outcome : Outcome) (after : Context) : Prop :=
  ∃ new row, outcome = .replaced new ∧ after.options = before.options ∧ after.rules = before.rules ∧
    after.tree.parent id = none ∧ ¬before.tree.Has new ∧ after.tree.Shows limit head new ∧
    Bench before.tree limit host front left new row after.tree

theorem elementTag?_eq {tree : Tree} (kind : tree.kind id = form.kind) : elementTag? tree id = form.tag? := by
  cases same : form.kind <;> simp [elementTag?, Form.tag?, kind, same]

/-- The children of a free node are moved into an empty container, where they show the same. -/
theorem run_fill (bench : Bench before limit host front forms id row context.tree)
    (ofSource : before.Free host front source ∧ (context.tree.OnPath id source ∨ ¬context.tree.OnPath host source))
    (ofTarget : before.Free host front target ∧ (context.tree.OnPath id target ∨ ¬context.tree.OnPath host target))
    (hasTarget : context.tree.Has target) (container : (context.tree.kind target).isContainer = true)
    (different : source ≠ target) (empty : context.tree.children target = [])
    (apart : ∀ kid ∈ context.tree.children source, ¬context.tree.OnPath kid target)
    (shown : List.Forall₂ (context.tree.Shows limit) below (context.tree.children source)) :
    ∃ tree, (moveChildren source target).run context = (.ok (), { context with tree }) ∧
      Bench before limit host front forms id row tree ∧
      context.tree.Relinked [source, target] (context.tree.children source) tree ∧
      List.Forall₂ (tree.Shows limit) below (tree.children target) := by
  have wellFormed := bench.wellFormed
  obtain ⟨tree, ran, reaches, relinked, -, children⟩ :=
    run_moveChildren wellFormed hasTarget container different apart
  refine ⟨tree, ran, bench.relinked reaches relinked ?_ ?_, relinked, ?_⟩
  · intro owner member
    rcases List.mem_cons.1 member with rfl | member
    · exact ofSource
    · rw [List.mem_singleton.1 member]
      exact ofTarget
  · intro kid member
    exact bench.worked.free_of_child bench.sound ((wellFormed.linked source kid).1 member) ofSource.1
  · rw [children, empty, List.nil_append]
    refine forall₂_imp_of_mem shown fun form _ kid member shows => ?_
    refine relinked.shows wellFormed (fun owner among => ?_) shows
    rcases List.mem_cons.1 among with rfl | among
    · obtain ⟨depth, grounded⟩ := wellFormed.grounded kid
      exact not_onPath_parent grounded ((wellFormed.linked owner kid).1 member)
    · rw [List.mem_singleton.1 among]
      exact apart kid member

/-- The children of the node on the bench are not above what hangs below a free node without a parent. -/
theorem not_above_loose (bench : Bench before limit host front forms id row context.tree) {top kid : NodeId}
    (detached : context.tree.parent top = none) (free : before.Free host front top)
    (onPath : context.tree.OnPath top target) (member : kid ∈ context.tree.children id) :
    ¬context.tree.OnPath kid target := by
  intro above
  have linked := (bench.wellFormed.linked id kid).1 member
  have hosted := (bench.mem_children List.mem_cons_self).1
  have upper : context.tree.OnPath host kid := .step linked (.step hosted .self)
  exact (bench.loose detached free onPath).2 (upper.trans above)

/-- The children of the node on the bench are moved into a container below a free node without a parent. -/
theorem run_unload (bench : Bench before limit host front forms id row context.tree) {top : NodeId}
    (detached : context.tree.parent top = none) (free : before.Free host front top)
    (onPath : context.tree.OnPath top target) (hasTarget : context.tree.Has target)
    (container : (context.tree.kind target).isContainer = true) (empty : context.tree.children target = [])
    (shown : List.Forall₂ (context.tree.Shows limit) below (context.tree.children id)) :
    ∃ tree, (moveChildren id target).run context = (.ok (), { context with tree }) ∧
      Bench before limit host front forms id row tree ∧
      context.tree.Relinked [id, target] (context.tree.children id) tree ∧
      List.Forall₂ (tree.Shows limit) below (tree.children target) := by
  obtain ⟨freeTarget, outside⟩ := bench.loose detached free onPath
  have hosted := (bench.mem_children List.mem_cons_self).1
  refine run_fill bench ⟨bench.free List.mem_cons_self, .inl .self⟩ ⟨freeTarget, .inr outside⟩ hasTarget container ?_
    empty (fun kid member => not_above_loose bench detached free onPath member) shown
  rintro rfl
  exact outside (.step hosted .self)

/-- A free node without a parent is put behind the children of another one. -/
theorem run_adopt {parent child : NodeId} (bench : Bench before limit host front forms id row context.tree)
    (owned : before.Free host front parent ∧ (context.tree.OnPath id parent ∨ ¬context.tree.OnPath host parent))
    (hasParent : context.tree.Has parent) (container : (context.tree.kind parent).isContainer = true)
    (stray : Stray before limit host front context.tree head child) (apart : ¬context.tree.OnPath child parent)
    (shown : List.Forall₂ (context.tree.Shows limit) below (context.tree.children parent)) :
    ∃ tree, (append parent child).run context = (.ok (), { context with tree }) ∧
      Bench before limit host front forms id row tree ∧ context.tree.Relinked [parent] [child] tree ∧
      List.Forall₂ (tree.Shows limit) (below ++ [head]) (tree.children parent) := by
  have wellFormed := bench.wellFormed
  obtain ⟨tree, ran, edited, relinked, children⟩ :=
    run_append wellFormed hasParent stray.present container stray.detached apart
  refine ⟨tree, ran, bench.relinked (.single edited) relinked ?_ ?_, relinked, ?_⟩
  · intro owner member
    rw [List.mem_singleton.1 member]
    exact owned
  · intro other member
    rw [List.mem_singleton.1 member]
    exact stray.free
  · rw [children]
    have keeps : ∀ {form : Form} {id : NodeId}, ¬context.tree.OnPath id parent →
        context.tree.Shows limit form id → tree.Shows limit form id := by
      intro form id outside shows
      refine relinked.shows wellFormed (fun owner member => ?_) shows
      rwa [List.mem_singleton.1 member]
    refine List.rel_append (forall₂_imp_of_mem shown fun form _ kid member shows => keeps ?_ shows)
      (.cons (keeps apart stray.shown) .nil)
    obtain ⟨depth, grounded⟩ := wellFormed.grounded kid
    exact not_onPath_parent grounded ((wellFormed.linked parent kid).1 member)

/-- A construct that shows the head takes the place of the node on the bench. -/
theorem mirrors_giveWay {first : Context} {new : NodeId}
    (bench : Bench first.tree limit host front rest id row context.tree) (options : context.options = first.options)
    (rules : context.rules = first.rules) (hasNew : context.tree.Has new)
    (detached : context.tree.parent new = none) (absent : ¬first.tree.Has new)
    (shown : context.tree.Shows limit head new) :
    Edit.Mirrors (some head) (replace id new) context fun head => GivesWay first limit host front id head rest := by
  have free : first.tree.Free host front new := fun present => absurd present absent
  obtain ⟨tree, ran, final, relinked, gone, -⟩ := run_replace bench hasNew detached free
  refine Edit.mirrors_some ran ⟨new, row, rfl, options, rules, gone, absent, ?_, final⟩
  refine relinked.shows bench.wellFormed (fun owner member => ?_) shown
  rw [List.mem_singleton.1 member]
  exact bench.not_above free

/-! ## Comments -/

theorem mirrors_textOf {ids : List NodeId}
    (kinds : List.Forall₂ (fun (form : Form) id => context.tree.kind id = form.kind) forms ids) :
    Edit.Mirrors (Form.textOf forms) (Comment.textOf ids) context fun text value after =>
      text = value ∧ context = after := by
  induction kinds with
  | nil => exact Edit.mirrors_pure ⟨rfl, rfl⟩
  | @cons form id forms ids kind _ hypothesis =>
      unfold Comment.textOf Form.textOf
      refine .step (Edit.run_tree context) ?_
      rw [kind]
      cases form.kind with
      | text value =>
          dsimp only
          rw [Option.map_eq_bind]
          refine hypothesis.bind ?_
          rintro others _ after ⟨rfl, rfl⟩
          exact Edit.mirrors_pure ⟨rfl, rfl⟩
      | _ => exact Edit.mirrors_failAt id _

/-- A tag of comments that stay mirrors what it stands for. -/
theorem mirrors_lowerComment (bench : Bench context.tree limit host front rest id row context.tree)
    (shown : context.tree.Shows limit form id) (tagged : form.tag?.isNone = false) :
    Edit.Mirrors form.lowerComment (Comment.lower id) context fun head =>
      GivesWay context limit host front id head rest := by
  obtain ⟨-, kind, attributes, children⟩ := shows_iff.1 shown
  unfold Comment.lower Form.lowerComment
  refine .step (Edit.run_tree context) ?_
  rw [elementTag?_eq kind, if_neg (Bool.eq_false_iff.1 tagged)]
  refine mirrors_requireOnly attributes fun _ => ?_
  have kinds : List.Forall₂ (fun (form : Form) id => context.tree.kind id = form.kind) form.children
      (context.tree.children id) := children.imp fun _ _ shown => (shows_iff.1 shown).2.1
  refine (mirrors_textOf kinds).bind ?_
  rintro text _ _ ⟨rfl, rfl⟩
  refine (mirrors_create bench id rfl).bind ?_
  rintro made new middle ⟨rfl, same, known, -, extension, absent, construct⟩
  refine mirrors_giveWay known (by rw [same]) (by rw [same]) construct.present construct.parent absent ?_
  exact known.shows_construct absent construct.kind construct.attributes (construct.children ▸ .nil)

/-! ## Loops -/

section loops

variable {first : Context} {new : NodeId} {loop : Kind}

/-- The children of the node become those of the loop. -/
theorem mirrors_plainLoop (bench : Bench first.tree limit host front rest id row context.tree)
    (options : context.options = first.options) (rules : context.rules = first.rules)
    (construct : context.tree.IsConstruct new loop [] none) (container : loop.isContainer = true)
    (absent : ¬first.tree.Has new)
    (contents : List.Forall₂ (context.tree.Shows limit) below (context.tree.children id)) :
    Edit.Mirrors (some (Form.construct loop below)) (do moveChildren id new; replace id new) context fun head =>
      GivesWay first limit host front id head rest := by
  have free : first.tree.Free host front new := fun hasNew => absurd hasNew absent
  obtain ⟨tree, ran, filled, relinked, below⟩ := run_unload bench construct.parent free .self construct.present
    (by rw [construct.kind, container]) construct.children contents
  have unmoved : new ∉ context.tree.children id := by
    rw [bench.wellFormed.linked, construct.parent]
    simp
  refine .step ran (mirrors_giveWay filled options rules (relinked.has_iff.2 construct.present) ?_ absent ?_)
  · exact (relinked.parent_eq unmoved).trans construct.parent
  · exact filled.shows_construct absent ((relinked.kind new).trans construct.kind)
      ((relinked.attributes new).trans construct.attributes) below

/-- The children of the node become those of a branch inside of the loop. -/
theorem mirrors_testedLoop (bench : Bench first.tree limit host front rest id row context.tree)
    (options : context.options = first.options) (rules : context.rules = first.rules)
    (construct : context.tree.IsConstruct new loop [] none) (container : loop.isContainer = true)
    (absent : ¬first.tree.Has new)
    (contents : List.Forall₂ (context.tree.Shows limit) below (context.tree.children id)) (test : String) :
    Edit.Mirrors ((Form.conditional? test below).bind fun conditional => some (Form.construct loop [conditional]))
      (do
        let (conditional, branch) ← conditional id test
        moveChildren id branch
        append new conditional
        replace id new) context fun head => GivesWay first limit host front id head rest := by
  have present := has_of_parent (bench.mem_children List.mem_cons_self).1
  have wellFormed := bench.wellFormed
  unfold Form.conditional?
  simp only [Option.bind_eq_bind, Option.bind_assoc]
  refine (mirrors_conditional bench id test).bind ?_
  rintro made ⟨outer, inner⟩ middle ⟨rfl, same, ready, extension, absentOuter, absentInner, around, within⟩
  dsimp only at around within absentOuter absentInner ⊢
  have freshOuter : ¬first.tree.Has outer := fun hasOuter => absentOuter (bench.worked.has hasOuter)
  have freshInner : ¬first.tree.Has inner := fun hasInner => absentInner (bench.worked.has hasInner)
  have grown := extension.shows_children wellFormed present contents
  have nested : middle.tree.OnPath outer inner := .step within.parent .self
  obtain ⟨tree, ran, filled, relinked, shown⟩ := run_unload ready around.parent
    (fun hasOuter => absurd hasOuter freshOuter) nested within.present (by rw [within.kind]; rfl) within.children grown
  refine .step ran ?_
  have apart : outer ≠ inner := by
    rintro rfl
    cases around.parent.symm.trans within.parent
  have around := ready.unloaded around relinked apart
  have different : outer ≠ new := fun same => absentOuter (same ▸ construct.present)
  have emptied := ready.unloaded (construct.grown extension) relinked fun same =>
    absentInner (same ▸ construct.present)
  have shownInner : tree.Shows limit (Form.construct (.branch (some test)) below) inner :=
    filled.shows_construct freshInner ((relinked.kind inner).trans within.kind)
      ((relinked.attributes inner).trans within.attributes) shown
  have stray : Stray first.tree limit host front tree _ outer :=
    ⟨around.present, around.parent, filled.shows_of_construct around freshOuter (.cons shownInner .nil),
      fun hasOuter => absurd hasOuter freshOuter⟩
  have free : first.tree.Free host front new := fun hasNew => absurd hasNew absent
  obtain ⟨last, adopted, final, linked, shownNew⟩ := @run_adopt { middle with tree } _ _ _ _ _ _ _ _ _ new outer filled
    ⟨free, .inr (filled.loose emptied.parent free .self).2⟩ emptied.present (by rw [emptied.kind, container]) stray
    (fun above => different (onPath_of_root emptied.parent above)) (by rw [emptied.children]; exact .nil)
  refine .step adopted (mirrors_giveWay final ?_ ?_ (linked.has_iff.2 emptied.present) ?_ absent ?_)
  · rw [same, options]
  · rw [same, rules]
  · rw [linked.parent_eq, emptied.parent]
    simpa using different.symm
  · exact final.shows_construct absent ((linked.kind new).trans emptied.kind)
      ((linked.attributes new).trans emptied.attributes) shownNew

end loops

/-- A tag of loops mirrors what it stands for. -/
theorem mirrors_lowerFor (bench : Bench context.tree limit host front rest id row context.tree)
    (shown : context.tree.Shows limit form id) (tagged : form.tag?.isNone = false) :
    Edit.Mirrors form.lowerFor (Iteration.lower id) context fun head =>
      GivesWay context limit host front id head rest := by
  obtain ⟨-, kind, attributes, children⟩ := shows_iff.1 shown
  have present := has_of_parent (bench.mem_children List.mem_cons_self).1
  unfold Iteration.lower Form.lowerFor
  refine .step (Edit.run_tree context) ?_
  rw [elementTag?_eq kind, if_neg (Bool.eq_false_iff.1 tagged)]
  refine mirrors_requireOnly attributes fun _ => ?_
  refine (mirrors_requireCode attributes "each").bind ?_
  rintro header _ _ ⟨rfl, rfl⟩
  refine (mirrors_iteration bench id header).bind ?_
  rintro loop new middle ⟨container, same, known, extension, absent, construct⟩
  have kept : (middle.tree.node id).attributes = form.attributes := by
    rw [extension.node_of_has id present, attributes]
  have contents := extension.shows_children bench.wellFormed present children
  refine .step (Edit.run_tree middle) ?_
  rw [Tree.attribute?, attribute?_eq kept]
  cases carried : form.attribute? "if" with
  | none => exact mirrors_plainLoop known (by rw [same]) (by rw [same]) construct container absent contents
  | some _ =>
      refine (mirrors_requireCode kept "if").bind ?_
      rintro test _ _ ⟨rfl, rfl⟩
      exact mirrors_testedLoop known (by rw [same]) (by rw [same]) construct container absent contents test

/-! ## Directives -/

theorem innermost_eq {tree : Tree} (single : tree.children construct = [] ∧ inner = construct ∨
      tree.children construct = [inner]) (empty : tree.children inner = []) :
    innermost tree tree.depthBound construct = inner := by
  have last : ∀ budget, innermost tree budget inner = inner := by
    intro budget
    cases budget with
    | zero => rfl
    | succ budget =>
        rw [innermost, empty]
        rfl
  rcases single with ⟨-, rfl⟩ | listed
  · exact last _
  · rw [depthBound, innermost, listed]
    exact last _

/-- The innermost node of a construct is the construct itself or its child. -/
theorem onPath_inner {tree : Tree} (wellFormed : tree.WellFormed)
    (single : tree.children construct = [] ∧ inner = construct ∨ tree.children construct = [inner]) :
    tree.OnPath construct inner := by
  rcases single with ⟨-, rfl⟩ | listed
  · exact .self
  · refine .step ((wellFormed.linked construct inner).1 ?_) .self
    rw [listed]
    exact List.mem_singleton_self inner

/-- A node that has given its place to another one is not above what is inside of that one. -/
theorem not_above_placed {tree : Tree} (gone : tree.parent id = none) (placed : tree.parent construct = some host)
    (notAbove : ¬tree.OnPath id host) (nested : tree.OnPath construct inner) : ¬tree.OnPath id inner := by
  intro above
  rcases above.comparable nested with upper | upper
  · rcases onPath_iff.1 upper with same | ⟨parent, linked, higher⟩
    · rw [← same, gone] at placed
      cases placed
    · obtain rfl := Option.some.inj (placed.symm.trans linked)
      exact notAbove higher
  · have same := onPath_of_root gone upper
    rw [same, gone] at placed
    cases placed

/-- A node is wrapped by putting the construct in its place, and the node into what is innermost in it then. -/
theorem run_wrap_of {middle tree : Tree}
    (replaced : (replace id construct).run context = (.ok (.replaced construct), { context with tree := middle }))
    (single : middle.children construct = [] ∧ inner = construct ∨ middle.children construct = [inner])
    (empty : middle.children inner = [])
    (appended : (append inner id).run { context with tree := middle } = (.ok (), { context with tree })) :
    (wrap id construct).run context = (.ok (.replaced construct), { context with tree }) := by
  unfold wrap
  refine Edit.run_bind_eq_ok_iff.2 ⟨_, _, replaced, ?_⟩
  refine Edit.run_bind_eq_ok_iff.2 ⟨_, _, Edit.run_tree _, ?_⟩
  rw [innermost_eq single empty]
  exact Edit.run_bind_eq_ok_iff.2 ⟨_, _, appended, rfl⟩

/-- The node on the bench is put inside of a construct, which takes its place. -/
theorem run_wrap (bench : Bench before limit host front forms id row context.tree)
    (hasConstruct : context.tree.Has construct) (detached : context.tree.parent construct = none)
    (free : before.Free host front construct)
    (single : context.tree.children construct = [] ∧ inner = construct ∨
      context.tree.children construct = [inner])
    (hasInner : context.tree.Has inner) (container : (context.tree.kind inner).isContainer = true)
    (empty : context.tree.children inner = []) (shown : context.tree.Shows limit head id) :
    ∃ tree, (wrap id construct).run context = (.ok (.replaced construct), { context with tree }) ∧
      Bench before limit host front forms construct row tree ∧
      context.tree.Relinked [host, inner] [id, construct] tree ∧
      List.Forall₂ (tree.Shows limit) [head] (tree.children inner) := by
  have wellFormed := bench.wellFormed
  have freeId := bench.free List.mem_cons_self
  obtain ⟨middle, ran, there, relinked, gone, placed⟩ := run_replace bench hasConstruct detached free
  have hostApart : ∀ {other : NodeId}, before.Free host front other → other ∉ [host] := fun freeOther member =>
    bench.not_above freeOther (List.mem_singleton.1 member ▸ .self)
  have freeInner := bench.worked.free_of_onPath bench.sound free (onPath_inner wellFormed single)
  have kept := relinked.children construct (hostApart free)
  have emptied := (relinked.children inner (hostApart freeInner)).trans empty
  rw [← kept] at single
  have nested := onPath_inner there.wellFormed single
  have stray : Stray before limit host front middle head id := by
    refine ⟨relinked.has_iff.2 (has_of_parent (bench.mem_children List.mem_cons_self).1), gone, ?_, freeId⟩
    refine relinked.shows wellFormed (fun owner member => ?_) shown
    rw [List.mem_singleton.1 member]
    exact bench.not_above freeId
  have apart := not_above_placed gone placed (there.not_above freeId) nested
  obtain ⟨tree, adopted, final, moved, shownInner⟩ := @run_adopt { context with tree := middle } _ _ _ _ _ _ _ _ []
    inner id there ⟨freeInner, .inl nested⟩ (relinked.has_iff.2 hasInner) (by rw [relinked.kind, container]) stray apart
    (by rw [emptied]; exact .nil)
  refine ⟨tree, run_wrap_of ran single emptied adopted, final,
    (relinked.mono ?_ (List.Subset.refl _)).trans (moved.mono ?_ ?_), shownInner⟩
  · simp
  · simp
  · simp

end Construct
end HtmlTemplate
