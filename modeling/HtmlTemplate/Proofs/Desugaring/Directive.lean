import HtmlTemplate.Proofs.Desugaring.Conditional

/-!
# Directives

The transform for all tags mirrors what the directives of a tag stand for. The tag itself, without the
attribute that the directive was read from, goes below the new construct, and comes up again there.
-/

namespace HtmlTemplate

open HtmlTemplate.Tree

/-- A transform has put a new construct in the place of a node: it shows the head, the siblings behind it
show what is left, and all but what is beyond the first children of the host is spared. -/
structure Rewrites (before : Context) (limit : Nat) (host : NodeId) (front : List NodeId) (head : Form)
    (left : List Form) (new : NodeId) (row : List NodeId) (after : Context) : Prop where
  options : after.options = before.options
  rules : after.rules = before.rules
  fresh : ¬before.tree.Has new
  untagged : (after.tree.kind new).tag? = none
  reaches : before.tree.Reaches after.tree
  spares : before.tree.Spares host front after.tree
  listed : after.tree.children host = front ++ new :: row
  shown : List.Forall₂ (after.tree.Shows limit) (head :: left) (new :: row)

namespace Construct

variable {context after : Context} {before : Tree} {host id construct inner : NodeId}
variable {front row : List NodeId} {limit : Nat} {form head : Form} {rest left : List Form}

theorem GivesWay.rewrites {outcome : Outcome} (givesWay : GivesWay context limit host front id head left outcome after) :
    ∃ new row, outcome = .replaced new ∧ Rewrites context limit host front head left new row after := by
  obtain ⟨new, row, rfl, options, rules, -, fresh, shown, bench⟩ := givesWay
  exact ⟨new, row, rfl, options, rules, fresh, bench.worked.untagged new fresh, bench.worked.reaches,
    bench.worked.toSpares, bench.listed, .cons shown bench.others⟩

/-! ## Attributes -/

theorem loopHeader?_eq (attributes : (context.tree.node id).attributes = form.attributes) :
    Directive.loopHeader? context.tree id = form.loopHeader? := by
  unfold Directive.loopHeader? Form.loopHeader?
  rw [Tree.attribute?, attribute?_eq attributes]

/-- What is shown by a node that is not above a changed one stays. -/
theorem shows_update {tree : Tree} {other : NodeId} {change : Node → Node} (wellFormed : tree.WellFormed)
    (children : ∀ node, (change node).children = node.children) (apart : ¬tree.OnPath other id)
    (shown : tree.Shows limit form other) : (tree.update id change).Shows limit form other := by
  have kept : ∀ node, tree.OnPath other node → (tree.update id change).node node = tree.node node := by
    intro node onPath
    refine node_update_of_ne ?_ _
    rintro rfl
    exact apart onPath
  refine shown.of_region (fun node => tree.OnPath other node) (fun node onPath => ?_) (fun node onPath => ?_)
    (fun node _ => field_update tree id node Node.children children)
    (fun node onPath child listed => .step ((wellFormed.linked node child).1 listed) onPath) .self
  · rw [Tree.kind, kept node onPath, Tree.kind]
  · rw [kept node onPath]

/-- A node that is changed goes on showing what is below it. -/
theorem shows_update_self {tree : Tree} {change : Node → Node} {changed : Form} (wellFormed : tree.WellFormed)
    (present : tree.Has id) (children : ∀ node, (change node).children = node.children)
    (shown : tree.Shows limit form id) (source : changed.source = form.source)
    (kind : (change (tree.node id)).kind = changed.kind)
    (attributes : (change (tree.node id)).attributes = changed.attributes) (below : changed.children = form.children) :
    (tree.update id change).Shows limit changed id := by
  obtain ⟨from', -, -, kids⟩ := shows_iff.1 shown
  refine shows_iff.2 ⟨source.trans from', ?_, ?_, ?_⟩
  · rw [Tree.kind, node_update_self present, kind]
  · rw [node_update_self present, attributes]
  · have listed : (tree.update id change).children id = tree.children id := field_update tree id id Node.children children
    rw [listed, below]
    refine forall₂_imp_of_mem kids fun form _ kid member shown => ?_
    obtain ⟨depth, grounded⟩ := wellFormed.grounded kid
    exact shows_update wellFormed children (not_onPath_parent grounded ((wellFormed.linked id kid).1 member)) shown

/-- The tag has lost an attribute, and the bench is set up anew without it. -/
structure Dropped (before : Tree) (limit : Nat) (host : NodeId) (front : List NodeId) (form : Form) (rest : List Form)
    (id : NodeId) (row : List NodeId) (tree : Tree) : Prop where
  reaches : before.Reaches tree
  spares : before.Spares host front tree
  size : tree.size = before.size
  shown : tree.Shows limit form id
  bench : Bench tree limit host front rest id row tree

theorem run_dropAttribute (bench : Bench context.tree limit host front rest id row context.tree)
    (shown : context.tree.Shows limit form id) (name : String) :
    ∃ tree, (Directive.dropAttribute id name).run context = (.ok (), { context with tree }) ∧
      Dropped context.tree limit host front (form.without name) rest id row tree := by
  have wellFormed := bench.sound
  obtain ⟨linked, behind⟩ := bench.mem_children List.mem_cons_self
  have present := has_of_parent linked
  have links := removeAttribute_sameLinks context.tree id name
  have size : (context.tree.removeAttribute id name).2.size = context.tree.size := size_update _ _ _
  have beyond : context.tree.Beyond host front id := beyond_of_child linked behind
  have spares : context.tree.Spares host front (context.tree.removeAttribute id name).2 :=
    wellFormed.spares_update beyond _
  have sound : (context.tree.removeAttribute id name).2.WellFormed :=
    (Edited.removeAttribute id name).wellFormed wellFormed
  obtain ⟨-, kind, attributes, -⟩ := shows_iff.1 shown
  have lost : (context.tree.removeAttribute id name).2.Shows limit (form.without name) id :=
    shows_update_self wellFormed present (fun _ => rfl) shown rfl kind
      (congrArg (List.eraseP fun candidate => candidate.name == name) attributes) rfl
  refine ⟨(context.tree.removeAttribute id name).2, rfl, .single (.removeAttribute id name), spares, size, lost,
    sound, by rw [size]; exact bench.bounded, spares.has bench.present, .refl _ _ _, (links host).2.1.trans bench.listed, ?_⟩
  have distinct := wellFormed.nodup host
  rw [bench.listed] at distinct
  have notLater := (List.nodup_cons.1 distinct.of_append_right).1
  refine forall₂_imp_of_mem bench.others fun form _ other member shown => ?_
  have alike := (bench.mem_children (List.mem_cons_of_mem id member)).1
  refine shows_update wellFormed (fun _ => rfl) (fun onPath => ?_) shown
  exact notLater (wellFormed.eq_of_onPath_of_siblings alike linked onPath .self ▸ member)

/-! ## The transform -/

/-- A construct has been put in the place of the tag that has lost an attribute. -/
theorem Dropped.rewrites {dropped : Tree} {new : NodeId} {changed : Form}
    (lost : Dropped context.tree limit host front changed rest id row dropped) (wellFormed : context.tree.WellFormed)
    (bench : Bench dropped limit host front rest new row after.tree) (options : after.options = context.options)
    (rules : after.rules = context.rules) (fresh : ¬dropped.Has new) (shown : after.tree.Shows limit head new) :
    Rewrites context limit host front head rest new row after where
  options := options
  rules := rules
  fresh present := fresh (by rw [Has, lost.size]; exact present)
  untagged := bench.worked.untagged new fresh
  reaches := lost.reaches.trans bench.worked.reaches
  spares := lost.spares.trans wellFormed bench.worked.toSpares
  listed := bench.listed
  shown := .cons shown bench.others

/-- The transform for all tags mirrors what directives stand for. -/
theorem mirrors_lowerDirective (bench : Bench context.tree limit host front rest id row context.tree)
    (shown : context.tree.Shows limit form id) :
    Edit.Mirrors form.lowerDirective (Directive.lower id) context fun head outcome after =>
      outcome = .unchanged ∧ after = context ∧ head = form ∨
        ∃ new row, outcome = .replaced new ∧ Rewrites context limit host front head rest new row after := by
  obtain ⟨-, -, attributes, -⟩ := shows_iff.1 shown
  have linked := (bench.mem_children List.mem_cons_self).1
  unfold Directive.lower Form.lowerDirective
  refine .step (Edit.run_tree context) ?_
  rw [if_neg (by rw [linked]; simp), loopHeader?_eq attributes]
  cases form.loopHeader? with
  | some header =>
      obtain ⟨tree, ran, lost⟩ := run_dropAttribute bench shown "for"
      refine .step ran ((@mirrors_iteration { context with tree } _ _ _ _ _ _ _ lost.bench id header).bind ?_)
      rintro kind loop middle ⟨container, same, ready, extension, fresh, construct⟩
      have present := has_of_parent (lost.bench.mem_children List.mem_cons_self).1
      obtain ⟨after, wrapped, final, relinked, inside⟩ := run_wrap ready construct.present construct.parent
        (fun present => absurd present fresh) (.inl ⟨construct.children, rfl⟩) construct.present
        (by rw [construct.kind, container]) construct.children (extension.shows lost.bench.sound present lost.shown)
      refine Edit.mirrors_some wrapped (.inr ⟨loop, row, rfl, lost.rewrites bench.sound final ?_ ?_ fresh ?_⟩)
      · rw [same]
      · rw [same]
      · exact final.shows_construct fresh ((relinked.kind loop).trans construct.kind)
          ((relinked.attributes loop).trans construct.attributes) inside
  | none =>
      dsimp only
      rw [Tree.attribute?, attribute?_eq attributes]
      cases form.attribute? "if" with
      | none => exact Edit.mirrors_pure (.inl ⟨rfl, rfl, rfl⟩)
      | some found =>
          dsimp only
          split
          · exact Edit.mirrors_failAt id _
          · obtain ⟨tree, ran, lost⟩ := run_dropAttribute bench shown "if"
            unfold Form.conditional?
            refine .step ran ((@mirrors_conditional { context with tree } _ _ _ _ _ _ _ lost.bench id found.value.asCode).bind ?_)
            rintro kind ⟨outer, inner⟩ middle ⟨rfl, same, ready, extension, fresh, freshInner, around, within⟩
            dsimp only at fresh freshInner around within ⊢
            have present := has_of_parent (lost.bench.mem_children List.mem_cons_self).1
            obtain ⟨after, wrapped, final, relinked, inside⟩ := run_wrap ready around.present around.parent
              (fun present => absurd present fresh) (.inr around.children) within.present (by rw [within.kind]; rfl)
              within.children (extension.shows lost.bench.sound present lost.shown)
            have apart : outer ∉ [host, inner] := by
              intro member
              rcases List.mem_cons.1 member with rfl | member
              · exact fresh lost.bench.present
              · obtain rfl := List.mem_singleton.1 member
                cases around.parent.symm.trans within.parent
            have innerShown := final.shows_construct freshInner ((relinked.kind inner).trans within.kind)
              ((relinked.attributes inner).trans within.attributes) inside
            refine Edit.mirrors_some wrapped (.inr ⟨outer, row, rfl, lost.rewrites bench.sound final ?_ ?_ fresh ?_⟩)
            · rw [same]
            · rw [same]
            · refine final.shows_construct fresh ((relinked.kind outer).trans around.kind)
                ((relinked.attributes outer).trans around.attributes) ?_
              rw [relinked.children outer apart, around.children]
              exact .cons innerShown .nil

end Construct
end HtmlTemplate
