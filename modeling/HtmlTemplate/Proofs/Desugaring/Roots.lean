import HtmlTemplate.Proofs.Desugaring.Settling

/-!
# Walks from any root

A walk may begin at any node that is not to be replaced: at one without a tag, at a common tag that has no parent
and so keeps its directives, and at one that is put into constructs by its directives.
-/

namespace HtmlTemplate

/-! ## Sources -/

namespace Form

/-- The form, or one below it, was read from the node. -/
inductive Names (id : NodeId) : Form → Prop
  | self {form : Form} : form.source = some id → Names id form
  | inside {form child : Form} : child ∈ form.children → Names id child → Names id form

variable {id : NodeId} {form head : Form} {rest left below : List Form} {laws : Laws} {name : String}

theorem names_construct {kind : Kind} (names : Names id (construct kind below)) : ∃ child ∈ below, child.Names id := by
  cases names with
  | self source => cases source
  | inside member names => exact ⟨_, member, names⟩

theorem names_without (names : Names id (form.without name)) : form.Names id := by
  cases names with
  | self source => exact .self source
  | inside member names => exact .inside member names

/-- What directives stand for names only what their tag names. -/
theorem names_of_lowerDirective (found : form.lowerDirective = some head) (names : head.Names id) : form.Names id := by
  by_cases carries : directives form.attributes = 0
  · rcases lowerDirective_cases found with untagged | ⟨rfl, -⟩
    · obtain ⟨header, condition⟩ := directives_eq_zero_iff.1 carries
      rw [lowerDirective, header, condition] at found
      obtain rfl := Option.some.inj found
      exact names
    · exact names
  · rcases lowerDirective_wraps found carries with ⟨kind, name, rfl⟩ | ⟨kind, test, name, rfl⟩
    · obtain ⟨child, member, names⟩ := names_construct names
      rw [List.mem_singleton.1 member] at names
      exact names_without names
    · obtain ⟨child, member, names⟩ := names_construct names
      rw [List.mem_singleton.1 member] at names
      obtain ⟨child, member, names⟩ := names_construct names
      rw [List.mem_singleton.1 member] at names
      exact names_without names

theorem names_withChildren (names : ∃ child ∈ below, child.Names id) : (head.withChildren below).Names id := by
  obtain ⟨child, member, names⟩ := names
  refine @Names.inside _ _ child ?_ names
  cases head
  exact member

/-- A common tag is still there when it has come to something. The induction is on what is left to rewrite. -/
theorem names_of_mean (common : form.kind.isCommon = true) (source : form.source = some id)
    (means : form.mean laws rest = some (head, left)) (settles : settle laws head.children = some below) :
    (head.withChildren below).Names id := by
  induction size : weightAll (form :: rest) using Nat.strong_induction_on generalizing form head rest left below with
  | h weight hypothesis =>
      obtain ⟨-, lowers⟩ := mean_eq_some_iff.1 means
      have lighter := weight_lower lowers
      obtain ⟨lowered, same⟩ := lowerDirective_of_lower common lowers
      obtain rfl : rest = left := same.symm
      by_cases carries : directives form.attributes = 0
      · obtain ⟨header, condition⟩ := directives_eq_zero_iff.1 carries
        rw [lowerDirective, header, condition] at lowered
        obtain rfl := Option.some.inj lowered
        refine .self ?_
        cases form
        exact source
      · -- Inside of its constructs the tag comes to something by itself.
        have inner : ∀ {name made}, weightAll [form.without name] < weight → settle laws [form.without name] = some made →
            ∃ child ∈ made, child.Names id := by
          intro name made less settles
          rw [settle_cons] at settles
          simp only [Option.bind_eq_bind, Option.bind_eq_some_iff] at settles
          obtain ⟨⟨head, left⟩, means, below, settled, others, -, same⟩ := settles
          obtain rfl := Option.some.inj same
          exact ⟨_, List.mem_cons_self, @hypothesis _ less (form.without name) head [] left below common source means settled rfl⟩
        rcases lowerDirective_wraps lowered carries with ⟨kind, name, rfl⟩ | ⟨kind, test, name, rfl⟩
        · have lighter : weightAll [form.without name] + weightAll rest < weightAll (form :: rest) := lighter
          exact names_withChildren (inner (by omega) settles)
        · have lighter : weightAll [construct (.branch test) [form.without name]] + weightAll rest < weightAll (form :: rest) :=
            lighter
          rw [weightAll_cons, weight_construct] at lighter
          refine names_withChildren ?_
          have settles : settle laws [construct (.branch test) [form.without name]] = some below := settles
          rw [settle_cons, mean_untagged rfl] at settles
          simp only [Option.bind_eq_bind, Option.bind_some, Option.bind_eq_some_iff] at settles
          obtain ⟨made, settled, others, -, same⟩ := settles
          obtain rfl := Option.some.inj same
          exact ⟨_, List.mem_cons_self, names_withChildren (inner (by omega) settled)⟩

end Form

namespace Tree

variable {tree : Tree} {id other : NodeId} {limit : Nat} {form : Form}

/-- Nodes below that were there before are named. -/
theorem names_of_onPath (shown : tree.Shows limit form id) (onPath : tree.OnPath id other) (wellFormed : tree.WellFormed)
    (old : other.index < limit) : form.Names other := by
  induction form using Form.induction generalizing id with
  | node form below =>
      obtain ⟨source, -, -, kids⟩ := shows_iff.1 shown
      rcases Tree.onPath_iff_below.1 onPath with rfl | ⟨child, linked, under⟩
      · refine .self ?_
        rw [source, sourceOf, if_pos old]
      · obtain ⟨kid, member, shown⟩ := Construct.exists_of_mem_right kids ((wellFormed.linked id child).2 linked)
        exact .inside member (below kid member shown under)

/-- Nodes that are named are below. -/
theorem onPath_of_names (shown : tree.Shows limit form id) (names : form.Names other) (wellFormed : tree.WellFormed) :
    tree.OnPath id other := by
  induction names generalizing id with
  | self source =>
      have same := (shows_iff.1 shown).1
      rw [source, sourceOf] at same
      split at same
      · rw [Option.some.inj same]
        exact .self
      · cases same
  | inside member _ hypothesis =>
      obtain ⟨-, -, -, kids⟩ := shows_iff.1 shown
      obtain ⟨child, listed, shown⟩ := Construct.exists_of_mem_right kids.flip member
      exact (OnPath.step ((wellFormed.linked id child).1 listed) .self).trans (hypothesis shown)

end Tree

namespace Walk

open Construct Control HtmlTemplate.Tree

variable {id root host new : NodeId} {state : Progress} {context : Context} {laws : Laws} {left limit bound : Nat}
variable {first before tree after : Tree} {form head : Form} {forms rest : List Form} {halts : Halt → Prop}

/-! ## Nodes that stay -/

/-- No transform changes the node: it is no control tag, and has no directives if they could be used. -/
structure Idle (tree : Tree) (id : NodeId) : Prop where
  common : (tree.kind id).tag?.isSome = true → (tree.kind id).isCommon = true
  bare : (tree.kind id).tag?.isSome = true → tree.parent id ≠ none → Form.directives (tree.node id).attributes = 0

theorem Idle.sameShape (idle : Idle before id) (shape : before.SameShape after) : Idle after id where
  common := by
    rw [shape.kind]
    exact idle.common
  bare := by
    rw [shape.kind, shape.parent, shape.attributes]
    exact idle.bare

theorem run_lowerDirective_of_idle
    (bare : context.tree.parent id ≠ none → Form.directives (context.tree.node id).attributes = 0) :
    (Directive.lower id).run context = (.ok .unchanged, context) := by
  unfold Directive.lower
  rw [Edit.run_bind, Edit.run_tree]
  dsimp only
  cases linked : context.tree.parent id with
  | none => rfl
  | some parent =>
      have none := bare (by rw [linked]; exact Option.some_ne_none parent)
      have attributes : (context.tree.node id).attributes = (context.tree.formWithin 0 0 id).attributes := rfl
      rw [attributes] at none
      obtain ⟨header, condition⟩ := Form.directives_eq_zero_iff.1 none
      rw [loopHeader?_eq attributes, header, Tree.attribute?, attribute?_eq attributes, condition]
      rfl

/-- Nothing happens to an idle node. -/
theorem Idle.holds_applyFirst (idle : Idle context.tree id) :
    Holds halts (applyFirst id (transformsFor Registry.core context.tree id .enter)) state context
      fun outcome after final => outcome = .unchanged ∧ after = state ∧ final = context := by
  cases tagged : (context.tree.kind id).tag? with
  | none =>
      rw [transformsFor_of_untagged tagged]
      exact ⟨rfl, rfl, rfl⟩
  | some tag =>
      have isTag : (context.tree.kind id).tag?.isSome = true := by rw [tagged]; rfl
      have common := idle.common isTag
      have last : Holds halts (applyFirst id [Control.directives]) state context
          fun outcome after final => outcome = .unchanged ∧ after = state ∧ final = context :=
        holds_applyFirst_idle (run_lowerDirective_of_idle (idle.bare isTag)) ⟨rfl, rfl, rfl⟩
      cases found : entryOf tag with
      | none =>
          rcases (transformsFor_core tagged).2 with ⟨-, transforms⟩ | ⟨entry, own, impossible, -⟩
          · rw [transforms]
            exact last
          · rw [found] at impossible
            cases impossible
      | some entry =>
          rw [transformsFor_enter tagged found]
          rcases Kind.eq_of_tag? tagged with same | ⟨renderer, same⟩
          · rw [same, Kind.isCommon, found] at common
            cases common
          · have plain : elementTag? context.tree id = none := by rw [elementTag?, same]
            obtain ⟨known, name⟩ := mem_entries_of_entryOf found
            rw [same] at common
            simp only [entries, List.mem_cons, List.not_mem_nil, or_false] at known
            rcases known with rfl | rfl | rfl | rfl | rfl | rfl | rfl | rfl | rfl <;> subst name
            · exact holds_applyFirst_idle (run_lower_of_plain plain).1 last
            · cases common
            · cases common
            · exact holds_applyFirst_idle (run_lower_of_plain plain).2.1 last
            · exact holds_applyFirst_idle (run_lower_of_plain plain).2.2 last
            · cases common
            · cases common
            · cases common
            · cases common

theorem Idle.holds_enterOnce (idle : Idle context.tree id) (governed : Governed laws context) (present : context.tree.Has id) :
    Holds (fun halt => IsFault halt ∧ laws.passes (context.tree.kind id) = false) (enterOnce Registry.core id) state context
      fun result after final => laws.passes (context.tree.kind id) = true ∧ result.1 = .unchanged ∧
        Noted id state context after final := by
  have entering := remarked_setState context.tree id .entering
  have checks := @holds_checkTag_laws id state { context with tree := context.tree.setState id .entering } laws
    ⟨governed.allows, governed.rules⟩ (entering.shape.has_iff.2 present)
  dsimp only at checks
  rw [entering.shape.kind] at checks
  refine checks.enterOnce ?_
  rintro after middle ⟨passes, lawful, remarked, carried, applied, preserve⟩
  have whole := entering.trans remarked
  refine .runPhase ((idle.sameShape whole.shape).holds_applyFirst.weaken ?_)
  rintro _ _ _ ⟨rfl, rfl, rfl⟩
  rw [preserve_setState, entering.shape.kind] at preserve
  exact ⟨passes, rfl, ⟨lawful.options, lawful.rules⟩, whole, carried, applied, preserve⟩

/-- An idle node is entered as it is, if it may be passed. -/
theorem Idle.holds_enter (idle : Idle context.tree id) (governed : Governed laws context) (present : context.tree.Has id) :
    Holds (fun halt => IsFault halt ∧ laws.passes (context.tree.kind id) = false) (enter Registry.core bound left id) state
      context fun result after final => laws.passes (context.tree.kind id) = true ∧ result = some (id, left) ∧
        Noted id state context after final := by
  refine .enter_unchanged ((idle.holds_enterOnce governed present).weaken ?_)
  rintro result after final ⟨passes, unchanged, noted⟩
  exact ⟨unchanged, passes, rfl, noted⟩

/-! ## The beginning of a walk -/

theorem holds_markAll_kept (ids : List NodeId) :
    Holds halts (forIn ids PUnit.unit fun id _ => do
        setState id .unvisited
        pure (ForInStep.yield PUnit.unit)) state context fun _ _ final =>
      final.rules = context.rules ∧ ∀ id, (final.tree.node id).preserve = (context.tree.node id).preserve := by
  refine (@holds_markAll_of state context halts (fun _ final => final.rules = context.rules ∧
    ∀ id, (final.tree.node id).preserve = (context.tree.node id).preserve) ?_ ids ⟨rfl, fun _ => rfl⟩).weaken
      fun _ _ _ kept => kept.2
  rintro middle first _ ⟨rules, preserve⟩
  exact ⟨rules, fun id => (preserve_setState _ _ _ _).trans (preserve id)⟩

/-- A walk has begun: nothing but marks has changed, and all below the root waits for its visit. -/
structure Begun (laws : Laws) (root : NodeId) (context : Context) (state : Progress) (marked : Context) : Prop where
  lawful : Lawful context marked
  shape : context.tree.SameShape marked.tree
  fit : Fit laws context.tree state marked.tree
  preserve : ∀ id, (marked.tree.node id).preserve = (context.tree.node id).preserve
  unvisited : ∀ id, context.tree.OnPath root id → (marked.tree.node id).state = .unvisited
  applied : state.applied = 0

/-- A walk enters its root, and then does what is left of the visit of the node that is there. -/
theorem holds_start_begun {good : Unit → Progress → Context → Prop} (arrives : NodeId → Progress → Context → Prop)
    (wellFormed : context.tree.WellFormed) (bounded : laws.bound = context.options.maxTransformPasses)
    (exhausted : halts .exhausted)
    (entering : ∀ state marked, Begun laws root context state marked →
      Holds halts (enter Registry.core laws.bound laws.bound root) state marked fun result after final =>
        ∃ new spare, result = some (new, spare) ∧ arrives new after final)
    (finishing : ∀ fuel new spare after final, arrives new after final →
      Holds halts (finish Registry.core laws.bound fuel new spare) after final good) (fuel : Nat) :
    Holds halts (start Registry.core fuel root) {} context good := by
  unfold start
  refine holds_context.bind ?_
  rintro _ state context ⟨rfl, rfl, rfl⟩
  refine Holds.bind (@Holds.and _ _ _ (fun _ => False) _ _ _ _ (holds_markAll _) (holds_markAll_kept _)) ?_
  rintro _ _ marked ⟨⟨rfl, options, shape, states⟩, rules, preserve⟩
  cases fuel with
  | zero => exact exhausted
  | succ fuel =>
      have begun : Begun laws root context { ({} : Progress) with visited := 1 } marked := by
        refine ⟨⟨options, rules⟩, shape, ⟨shape.wellFormed wellFormed, fun id tagged => ?_, fun id => ?_, fun _ _ _ => .inl rfl⟩,
          preserve, fun id below => ?_, rfl⟩
        · exact shape.has_iff.1 (has_of_tag? (Option.some_get tagged).symm)
        · rw [preserve]
        · rw [states, if_pos (wellFormed.mem_preorder below)]
      have entering := entering _ marked begun
      rw [← bounded]
      refine .visit entering ?_ ?_
      · rintro after final ⟨new, spare, impossible, -⟩
        cases impossible
      · rintro next left after final ⟨new, spare, same, arrived⟩
        obtain ⟨rfl, rfl⟩ := Prod.mk.inj (Option.some.inj same)
        exact finishing fuel _ _ after final arrived

/-- What a walk leaves below a root that stays. -/
structure Leaves (root : NodeId) (form : Form) (context final : Context) : Prop where
  lawful : Lawful context final
  wellFormed : final.tree.WellFormed
  parent : final.tree.parent root = context.tree.parent root
  shown : final.tree.Shows context.tree.size form root
  rests : ∀ other, final.tree.OnPath root other → Rests context.tree final.tree other

theorem holds_start_stays (wellFormed : context.tree.WellFormed) (governed : Governed laws context)
    (bounded : laws.bound = context.options.maxTransformPasses) (present : context.tree.Has root)
    (idle : Idle context.tree root)
    (refuses : ∀ halt, IsFault halt → laws.passes (context.tree.kind root) = false → halts halt)
    (breaks : ∀ halt, Breaks laws (Form.settle laws (context.tree.form context.tree.size root).children) halt → halts halt)
    (fuel : Nat) :
    Holds halts (start Registry.core fuel root) {} context fun _ _ final =>
      laws.passes (context.tree.kind root) = true ∧ ∃ below,
        Form.settle laws (context.tree.form context.tree.size root).children = some below ∧
          Leaves root ((context.tree.form context.tree.size root).withChildren below) context final := by
  refine holds_start_begun (fun new after final => new = root ∧ laws.passes (context.tree.kind root) = true ∧
    ∃ state marked, Begun laws root context state marked ∧ Noted root state marked after final) wellFormed bounded
    (breaks _ (.inl rfl)) ?_ ?_ fuel
  · intro state marked begun
    have enters := @Idle.holds_enter root state marked laws laws.bound laws.bound (idle.sameShape begun.shape)
      (governed.lawful begun.lawful) (begun.shape.has_iff.2 present)
    rw [begun.shape.kind] at enters
    refine Meets.weaken enters (fun halt refused => refuses halt refused.1 refused.2) ?_
    rintro _ after final ⟨passes, rfl, noted⟩
    exact ⟨root, _, rfl, rfl, passes, state, marked, begun, noted⟩
  · rintro fuel new spare after entered ⟨same, passes, state, marked, begun, noted⟩
    obtain rfl := same.symm
    have shape := begun.shape.trans noted.remarked.shape
    have fits : Fit laws context.tree after entered.tree := begun.fit.checked noted.remarked noted.carried noted.preserve
    have finished := @holds_finish_settle root after entered laws spare context.tree (context.tree.form context.tree.size root) fuel
      (childrenSettle laws context.tree fuel) ((governed.lawful begun.lawful).lawful noted.lawful) fits
      (Nat.le_of_eq shape.size.symm) (shape.has_iff.2 present)
      (shows_of_sameShape shape (wellFormed.shows_form context.tree.size root))
      (by rw [noted.preserve, begun.preserve, noted.remarked.shape.kind]) fun other beyond => by
        have different := fits.wellFormed.ne_of_beyond beyond
        obtain ⟨top, linked, -, onPath⟩ := beyond
        have below : context.tree.OnPath root other := shape.onPath_iff.1 ((OnPath.step linked .self).trans onPath)
        rw [noted.remarked.others other different, begun.unvisited other below]
    refine Meets.weaken finished breaks ?_
    rintro _ last final ⟨below, settles, lawful, fitsLast, shown, rests, shut, visited, entersAt, spares, leavesAt⟩
    refine ⟨passes, below, settles, (begun.lawful.trans noted.lawful).trans lawful, fitsLast.wellFormed, ?_, shown, rests⟩
    rw [leavesAt.shape.parent, Tree.parent, spares.owner, ← shape.parent, ← entersAt.shape.parent]
    rfl

/-! ## Roots with directives -/

/-- A walk does not get past a root with too many directives. -/
theorem holds_start_excess (wellFormed : context.tree.WellFormed) (governed : Governed laws context)
    (bounded : laws.bound = context.options.maxTransformPasses) (linked : context.tree.parent root = some host)
    (common : (context.tree.kind root).isCommon = true)
    (excess : laws.bound < Form.directives (context.tree.node root).attributes) (fuel : Nat) :
    Holds (fun _ => True) (start Registry.core fuel root) {} context fun _ _ _ => False := by
  refine holds_start_begun (fun new after entered => ∃ child, Governed laws entered ∧ entered.tree.WellFormed ∧
    (entered.tree.children new)[0]? = some child ∧ (entered.tree.node child).state = .unvisited ∧
      Doomed laws.bound after entered.tree child) wellFormed bounded trivial ?_ ?_ fuel
  · intro state marked begun
    refine (doomed_enter (governed.lawful begun.lawful) begun.fit.wellFormed ((begun.shape.parent root).trans linked)
      (by rw [begun.shape.kind, common]) (Nat.le_refl _) (by rw [begun.shape.attributes]; exact excess)).weaken ?_
    rintro _ after final ⟨new, spare, child, rfl, arrives⟩
    exact ⟨new, spare, rfl, child, arrives⟩
  · rintro fuel new spare after entered ⟨child, governed, sound, first, waits, doomed⟩
    exact doomed_finish sound (fun fuel' _ _ _ _ governed sound doomed => doomed_visit fuel' governed sound doomed)
      governed first waits doomed

/-- A walk from a common tag in another node leaves what the tag comes to, with the tag in it. -/
theorem holds_start_common (wellFormed : context.tree.WellFormed) (governed : Governed laws context)
    (bounded : laws.bound = context.options.maxTransformPasses) (linked : context.tree.parent root = some host)
    (common : (context.tree.kind root).isCommon = true) (fuel : Nat) :
    Holds (fun _ => True) (start Registry.core fuel root) {} context fun _ _ final =>
      Lawful context final ∧ final.tree.WellFormed ∧ ∃ new form, final.tree.Shows context.tree.size form new ∧
        form.IsDone laws ∧ final.tree.OnPath new root ∧
          ∀ other, final.tree.OnPath new other → Rests context.tree final.tree other := by
  by_cases excess : laws.bound < Form.directives (context.tree.node root).attributes
  · exact (holds_start_excess wellFormed governed bounded linked common excess fuel).weaken fun _ _ _ never => never.elim
  refine holds_start_begun (fun new after entered => ∃ marked front form rest spare, Lawful context marked ∧
    context.tree.SameShape marked.tree ∧ marked.tree.Shows context.tree.size form root ∧
      ComesTo laws context.tree marked.tree context.tree.size host front form rest
        (fun other => context.tree.Has other ∧ ¬context.tree.OnPath root other) marked (some (new, spare)) after entered)
    wellFormed bounded trivial ?_ ?_ fuel
  · intro state marked begun
    have sound := begun.fit.wellFormed
    have linkedThere := (begun.shape.parent root).trans linked
    obtain ⟨front, row, course⟩ := @exists_course root host context.tree.size marked.tree
      (fun other => context.tree.Has other ∧ ¬context.tree.OnPath root other) sound linkedThere
      (Nat.le_of_eq begun.shape.size.symm) fun other there waits => begun.unvisited other (by
        by_contra apart
        exact waits ⟨begun.shape.has_iff.1 there, apart⟩)
    have shown := (List.forall₂_cons.1 course.shown).1
    obtain ⟨-, kind, attributes, -⟩ := shows_iff.1 shown
    refine Meets.weaken (holds_enter_turned (governed.lawful begun.lawful) (Nat.le_refl _) begun.fit
      (Nat.le_of_eq begun.shape.size.symm) course (fun _ among => .inr among) fun _ => ?_) (fun _ _ => trivial) ?_
    · rw [demand_of_common (by rw [← kind, begun.shape.kind, common]), ← attributes, begun.shape.attributes]
      exact Nat.le_of_not_lt excess
    · rintro result after final comes
      have given := comes
      obtain ⟨-, -, -, new, spare, -, -, -, rfl, -⟩ := given
      exact ⟨new, spare, rfl, marked, front, _, _, spare, begun.lawful, begun.shape, shown, comes⟩
  · rintro fuel new spare after entered ⟨marked, front, form, rest, spare', lawful, shape, shown, kept, fit, grown, _, _, head,
      left, others, same, means, preserve, there⟩
    obtain ⟨rfl, rfl⟩ := Prod.mk.inj (Option.some.inj same)
    have sound := shape.wellFormed wellFormed
    obtain ⟨source, kind, -⟩ := shows_iff.1 shown
    have present : root.index < context.tree.size := has_of_parent linked
    rw [sourceOf, if_pos present] at source
    have formCommon : form.kind.isCommon = true := by rw [← kind, shape.kind, common]
    obtain ⟨lowered, -⟩ := Form.lowerDirective_of_lower formCommon (Form.mean_eq_some_iff.1 means).2
    obtain ⟨hosted, behind⟩ := there.mem_children List.mem_cons_self
    have headShown := (List.forall₂_cons.1 there.shown).1
    -- What was there before and is below the new node was below the root.
    have unvisited : ∀ other, entered.tree.Beyond new [] other → (entered.tree.node other).state = .unvisited := by
      intro other beyond
      have onPath : entered.tree.OnPath new other := by
        obtain ⟨top, above, -, under⟩ := beyond
        exact (OnPath.step above .self).trans under
      refine there.unvisited other (beyond.narrow hosted behind) fun among => ?_
      rcases among with same | ⟨old, apart⟩
      · exact there.wellFormed.ne_of_beyond beyond same
      · have named := Form.names_of_lowerDirective lowered (names_of_onPath headShown onPath there.wellFormed old)
        exact apart (shape.onPath_iff.1 (onPath_of_names shown named sound))
    refine Meets.weaken (@holds_finish_settle new after entered laws spare context.tree head fuel
      (childrenSettle laws context.tree fuel) ((governed.lawful lawful).lawful kept) fit grown (has_of_parent hosted)
      headShown preserve unvisited) (fun _ _ => trivial) ?_
    rintro _ last final ⟨below, settles, later, fitsLast, shownLast, rests, -⟩
    have children : (head.withChildren below).children = below := by
      cases head
      rfl
    refine ⟨(lawful.trans kept).trans later, fitsLast.wellFormed, new, head.withChildren below, shownLast,
      .node ((Form.isCalm_of_mean means).withChildren below) (by rw [children]; exact Form.isDone_of_settle settles),
      onPath_of_names shownLast (Form.names_of_mean formCommon source means settles) fitsLast.wellFormed, rests⟩

end Walk
end HtmlTemplate
