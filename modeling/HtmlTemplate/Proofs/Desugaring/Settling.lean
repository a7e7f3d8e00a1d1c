import HtmlTemplate.Proofs.Desugaring.Excess

/-!
# Walks over any tree

A walk with the core taglib leaves below a node what the forms there come to under the laws of the walk, in whatever
tree. All that it leaves there has settled, and has the marks that it had before or that its tag asks for.
-/

namespace HtmlTemplate
namespace Walk

open Construct Control HtmlTemplate.Tree

variable {α : Type} {id host new : NodeId} {state : Progress} {context : Context} {laws : Laws} {left limit : Nat}
variable {first before tree after : Tree} {front row : List NodeId} {form head : Form} {forms rest : List Form}
variable {begun more : NodeId → Prop}

/-! ## Nodes at rest -/

/-- The node has settled, with the mark that it had at first or that its tag asks for. -/
structure Rests (first tree : Tree) (id : NodeId) : Prop where
  settled : (tree.node id).state = .settled
  preserve : (tree.node id).preserve = ((first.node id).preserve || (tree.kind id).keepsText)

/-- What rests clear of a change goes on resting. -/
theorem rests_of_spares (spares : before.Spares host front after) (wellFormed : before.WellFormed) (sound : after.WellFormed)
    (clear : before.Clear host front id) (present : before.Has id)
    (rests : ∀ other, before.OnPath id other → Rests first before other) :
    ∀ other, after.OnPath id other → Rests first after other := by
  intro other onPath
  have was := spares.onPath_of_clear wellFormed sound clear present onPath
  have same := spares.node_of_clear clear present was
  obtain ⟨settled, preserve⟩ := rests other was
  exact ⟨by rw [same, settled], by rw [Tree.kind, same, preserve, Tree.kind]⟩

theorem Course.weaken {start : Tree} {ids : List NodeId} (course : Course start limit host front forms ids begun tree)
    (within : ∀ other, begun other → more other) : Course start limit host front forms ids more tree :=
  ⟨course.sound, course.wellFormed, course.bounded, course.present, course.spares, course.listed, course.shown,
    fun other beyond waits => course.unvisited other beyond fun among => waits (within other among)⟩

/-! ## Inside of a node -/

/-- The halts of a walk that is short of fuel, or over something that comes to nothing. -/
def Breaks (laws : Laws) (expected : Option α) (halt : Halt) : Prop :=
  halt = .exhausted ∨ Stopped laws expected halt

theorem Breaks.weaken {β : Type} {expected : Option α} {other : Option β} {halt : Halt}
    (breaks : Breaks laws expected halt) (none : expected = none → other = none) : Breaks laws other halt :=
  breaks.imp_right fun stopped => stopped.weaken none

/-- The children behind the first ones show what forms come to, and rest, and all else is spared. -/
def Settled (laws : Laws) (first : Tree) (host : NodeId) (front : List NodeId) (before : Context) (made : List Form)
    (after : Progress) (final : Context) : Prop :=
  Lawful before final ∧ Fit laws first after final.tree ∧ before.tree.Spares host front final.tree ∧
    ∃ ids, final.tree.children host = front ++ ids ∧ List.Forall₂ (final.tree.Shows first.size) made ids ∧
      ∀ id ∈ ids, ∀ other, final.tree.OnPath id other → Rests first final.tree other

/-- What visits of children do with some fuel. -/
def ChildrenSettle (laws : Laws) (first : Tree) (fuel : Nat) : Prop :=
  ∀ state context host front forms ids index, Governed laws context → Fit laws first state context.tree →
    Course context.tree first.size host front forms ids (fun _ => False) context.tree →
    (∀ id ∈ front, (context.tree.node id).state ≠ .unvisited) → index ≤ front.length →
      Holds (Breaks laws (Form.settle laws forms)) (visitChildren Registry.core laws.bound fuel host index) state context
        fun _ after final => ∃ made, Form.settle laws forms = some made ∧
          Settled laws first host front context made after final

/-- A node has been left: it shows what its form comes to, all below it rests, and only marks changed elsewhere. -/
def Left (laws : Laws) (first : Tree) (id : NodeId) (head : Form) (before : Context) (below : List Form)
    (after : Progress) (final : Context) : Prop :=
  Lawful before final ∧ Fit laws first after final.tree ∧ final.tree.Shows first.size (head.withChildren below) id ∧
    (∀ other, final.tree.OnPath id other → Rests first final.tree other) ∧
      ∃ entered visited, Remarked id before.tree entered ∧ entered.Spares id [] visited ∧ Remarked id visited final.tree

theorem holds_finish_settle {fuel : Nat} (children : ChildrenSettle laws first fuel) (governed : Governed laws context)
    (fit : Fit laws first state context.tree) (bounded : first.size ≤ context.tree.size) (present : context.tree.Has id)
    (shown : context.tree.Shows first.size head id)
    (preserve : (context.tree.node id).preserve = ((first.node id).preserve || (context.tree.kind id).keepsText))
    (unvisited : ∀ other, context.tree.Beyond id [] other → (context.tree.node other).state = .unvisited) :
    Holds (Breaks laws (Form.settle laws head.children)) (finish Registry.core laws.bound fuel id left) state context
      fun _ after final => ∃ below, Form.settle laws head.children = some below ∧
        Left laws first id head context below after final := by
  unfold finish
  refine holds_setState.bind ?_
  rintro _ state _ ⟨rfl, rfl⟩
  have marked := remarked_setState context.tree id .entered
  have fits := fit.setState id .entered
  have course := course_children fit.wellFormed marked bounded present shown unvisited
  refine (children state { context with tree := context.tree.setState id .entered } id [] _ _ 0
    ⟨governed.allows, governed.rules⟩ fits course (fun _ impossible => by cases impossible) (Nat.le_refl 0)).bind ?_
  rintro _ after visited ⟨below, settles, lawful, fitsThere, spares, ids, listed, shownBelow, rests⟩
  refine holds_setState.bind ?_
  rintro _ after _ ⟨rfl, rfl⟩
  have leaving := remarked_setState visited.tree id .exiting
  refine Meets.weaken (holds_leave_core fuel) (fun _ => .inl) ?_
  rintro _ _ _ ⟨rfl, rfl⟩
  have remarked := leaving.trans (remarked_setState (visited.tree.setState id .exiting) id .settled)
  have fitsLast := (fitsThere.setState id .exiting).setState id .settled
  have kept : (visited.tree.node id).preserve = (context.tree.node id).preserve ∧
      visited.tree.kind id = context.tree.kind id := by
    rw [Tree.kind, spares.owner]
    exact ⟨preserve_setState _ _ _ _, marked.shape.kind id⟩
  refine ⟨below, settles, ⟨lawful.options, lawful.rules⟩, fitsLast, ?_, fun other onPath => ?_, _, visited.tree, marked,
    spares, remarked⟩
  · refine shows_of_sameShape remarked.shape (shows_withChildren (shows_of_sameShape marked.shape shown) spares ?_)
    rw [listed]
    exact shownBelow
  · rcases Tree.onPath_iff_below.1 onPath with rfl | ⟨child, linked, under⟩
    · refine ⟨state_setState_self (leaving.shape.has_iff.2 (spares.has (marked.shape.has_iff.2 present))), ?_⟩
      rw [preserve_setState, preserve_setState, remarked.shape.kind, kept.1, kept.2, preserve]
    · have linkedThere : visited.tree.parent child = some id := (remarked.shape.parent child).symm.trans linked
      have underThere := remarked.shape.onPath_iff.1 under
      have member : child ∈ ids := by
        have among := (fitsThere.wellFormed.linked id child).2 linkedThere
        rwa [listed] at among
      have different : other ≠ id := by
        rintro rfl
        obtain ⟨depth, grounded⟩ := fitsThere.wellFormed.grounded child
        exact not_onPath_parent grounded linkedThere underThere
      obtain ⟨settled, marks⟩ := rests child member other underThere
      have same := remarked.others other different
      exact ⟨by rw [same, settled], by rw [Tree.kind, same, marks, Tree.kind]⟩

/-! ## Visits -/

/-- A child has been visited, and the siblings behind it that are left wait for their turn. -/
def Visits (laws : Laws) (first : Tree) (host : NodeId) (front : List NodeId) (form : Form) (rest : List Form)
    (before : Context) (after : Progress) (final : Context) : Prop :=
  ∃ head left below, form.mean laws rest = some (head, left) ∧ Form.settle laws head.children = some below ∧
    Lawful before final ∧ Fit laws first after final.tree ∧ before.tree.Spares host front final.tree ∧
      ∃ new others, (∀ other, final.tree.OnPath new other → Rests first final.tree other) ∧
        final.tree.Shows first.size (head.withChildren below) new ∧ final.tree.parent new = some host ∧
          Course final.tree first.size host (front ++ [new]) left others (fun _ => False) final.tree

theorem holds_visit_settle {fuel passes : Nat} (children : ChildrenSettle laws first fuel) (governed : Governed laws context)
    (fit : Fit laws first state context.tree)
    (course : Course context.tree first.size host front (form :: rest) (id :: row) (fun _ => False) context.tree)
    (enough : 2 ≤ laws.bound ∨ form.kind.isCommon = true → form.demand ≤ laws.bound - max passes (state.startOf id)) :
    Holds (Breaks laws ((form.mean laws rest).bind fun given => Form.settle laws given.1.children))
      (visit Registry.core laws.bound (fuel + 1) id passes) state context fun _ after final =>
        Visits laws first host front form rest context after final := by
  have fits : Fit laws first { state with visited := state.visited + 1 } context.tree :=
    fit.remarked (@Remarked.refl id context.tree) rfl rfl
  have entering : Holds (Stopped laws (form.mean laws rest))
      (enter Registry.core laws.bound (laws.bound - max passes (state.startOf id)) id)
        { state with visited := state.visited + 1 } context fun result after final =>
          ComesTo laws first context.tree first.size host front form rest (fun _ => False) context result after final :=
    holds_enter_turned governed (Nat.sub_le _ _) fits course.bounded course (fun _ impossible => impossible.elim) enough
  refine .visit (entering.halting fun halt stopped => .inr (stopped.weaken fun none => by rw [none]; rfl)) ?_ ?_
  · rintro after final ⟨-, -, -, new, spare, head, left, others, impossible, -⟩
    cases impossible
  rintro new spare after entered ⟨lawful, fitsThere, grown, _, _, head, left, others, same, means, preserve, there⟩
  obtain ⟨rfl, rfl⟩ := Prod.mk.inj (Option.some.inj same)
  have there : Course context.tree first.size host front (head :: left) (new :: others) (· = new) entered.tree :=
    there.weaken fun other among => among.resolve_right not_false
  obtain ⟨linked, behind⟩ := there.mem_children List.mem_cons_self
  have finished := @holds_finish_settle new after entered laws spare first head fuel children (governed.lawful lawful)
    fitsThere grown (has_of_parent linked) (List.forall₂_cons.1 there.shown).1 preserve
    fun other beyond => there.unvisited other (beyond.narrow linked behind) (there.wellFormed.ne_of_beyond beyond)
  refine Meets.weaken finished (fun halt breaks => breaks.weaken fun none => by rw [means]; exact none) ?_
  rintro _ last final ⟨below, settles, later, fitsLast, shown, rests, marked, visited, entersAt, spares, leavesAt⟩
  obtain ⟨beside, placed, next⟩ := there.passed entersAt spares leavesAt fitsLast.wellFormed
  exact ⟨head, left, below, means, settles, lawful.trans later, fitsLast, beside, new, others, rests, shown, placed, next⟩

theorem settle_eq_none (empty : ((form.mean laws rest).bind fun given => Form.settle laws given.1.children) = none) :
    Form.settle laws (form :: rest) = none := by
  rw [Form.settle_cons]
  cases means : form.mean laws rest with
  | none => rfl
  | some given =>
      obtain ⟨head, left⟩ := given
      rw [means, Option.bind_some] at empty
      simp [empty]

theorem settle_eq_map {left below : List Form} (means : form.mean laws rest = some (head, left))
    (settles : Form.settle laws head.children = some below) :
    Form.settle laws (form :: rest) = (Form.settle laws left).map fun others => head.withChildren below :: others := by
  rw [Form.settle_cons, means]
  simp only [Option.bind_eq_bind, Option.bind_some, settles]
  rw [Option.map_eq_bind]
  rfl

/-- A child is visited, and then the siblings that it has left. -/
theorem holds_siblings_settle {fuel index : Nat} (onward : ChildrenSettle laws first fuel) (governed : Governed laws context)
    (course : Course context.tree first.size host front (form :: rest) (id :: row) (fun _ => False) context.tree)
    (visited : ∀ other ∈ front, (context.tree.node other).state ≠ .unvisited) (within : index ≤ front.length)
    (visits : Holds (Breaks laws ((form.mean laws rest).bind fun given => Form.settle laws given.1.children))
      (visit Registry.core laws.bound fuel id 0) state context fun _ after final =>
        Visits laws first host front form rest context after final) :
    Holds (Breaks laws (Form.settle laws (form :: rest))) (do
        visit Registry.core laws.bound fuel id 0
        visitChildren Registry.core laws.bound fuel host index) state context
      fun _ after final => ∃ made, Form.settle laws (form :: rest) = some made ∧
        Settled laws first host front context made after final := by
  have sound := course.wellFormed
  refine (visits.halting fun halt breaks => breaks.weaken settle_eq_none).bind ?_
  rintro _ between middle ⟨head, left, below, means, settles, lawful, fits, spares, new, behind, rests, shown, placed, next⟩
  have begun := course.visited spares visited (by
    rw [(rests new .self).settled]
    exact fun impossible => by cases impossible)
  have goesOn := onward between middle host (front ++ [new]) left behind index (governed.lawful lawful) fits next begun
    (within.trans (by rw [List.length_append]; exact Nat.le_add_right _ _))
  have whole := settle_eq_map means settles
  refine Meets.weaken goesOn (fun halt breaks => breaks.weaken fun none => by rw [whole, none]; rfl) ?_
  rintro _ after final ⟨made, remaining, later, fitsLast, further, ids, listed, all, resting⟩
  have clear : middle.tree.Clear host (front ++ [new]) new :=
    next.wellFormed.clear_of_mem placed (List.mem_append_right front List.mem_cons_self)
  refine ⟨head.withChildren below :: made, by rw [whole, remaining]; rfl, lawful.trans later, fitsLast,
    spares.trans sound (further.mono (List.subset_append_left front [new])), new :: ids, ?_, ?_, ?_⟩
  · rw [listed, List.append_assoc]
    rfl
  · exact .cons (further.shows next.wellFormed clear (has_of_parent placed) shown) all
  · intro other member
    rcases List.mem_cons.1 member with rfl | member
    · exact rests_of_spares further next.wellFormed fitsLast.wellFormed clear (has_of_parent placed) rests
    · exact resting other member

/-- A child is visited with as many changes left as it asks for, or cannot be passed. -/
theorem holds_visit_child {fuel : Nat} (children : ∀ fuel', fuel' < fuel → ChildrenSettle laws first fuel')
    (governed : Governed laws context) (fit : Fit laws first state context.tree)
    (course : Course context.tree first.size host front (form :: rest) (id :: row) (fun _ => False) context.tree) :
    Holds (Breaks laws ((form.mean laws rest).bind fun given => Form.settle laws given.1.children))
      (visit Registry.core laws.bound fuel id 0) state context fun _ after final =>
        Visits laws first host front form rest context after final := by
  cases fuel with
  | zero => exact .inl rfl
  | succ fuel =>
      have linked := (course.mem_children List.mem_cons_self).1
      obtain ⟨-, kind, attributes, -⟩ := shows_iff.1 (List.forall₂_cons.1 course.shown).1
      by_cases excess : form.kind.isCommon = true ∧ laws.bound < state.startOf id + Form.directives form.attributes
      · obtain ⟨common, beyond⟩ := excess
        have start : state.startOf id = 0 := by
          have isTag := Kind.isSome_of_isCommon common
          rcases fit.affords id (by rw [linked]; exact Option.some_ne_none host) (by rw [kind, isTag]) with start | ⟨-, enough⟩
          · exact start
          · rw [attributes] at enough
            omega
        have refused : form.mean laws rest = none := by
          refine Form.mean_of_refused ?_
          rw [Form.isAllowed, common]
          simp only [Bool.not_true, Bool.false_or, Bool.and_eq_false_iff, decide_eq_false_iff_not]
          exact .inr (by omega)
        refine Meets.weaken (doomed_visit (fuel + 1) governed fit.wellFormed (.exceeded linked (by rw [kind, common])
          (by rw [start]; exact Nat.zero_le _) (by rw [attributes]; exact beyond))) (fun halt _ => ?_)
          fun _ _ _ never => never.elim
        cases halt with
        | exhausted => exact .inl rfl
        | fault fault => exact .inr ⟨⟨fault, rfl⟩, fun _ => by rw [refused]; rfl⟩
      · refine holds_visit_settle (children fuel (Nat.lt_succ_self fuel)) governed fit course fun wanted => ?_
        rw [Nat.zero_max]
        cases common : form.kind.isCommon with
        | true =>
            rw [demand_of_common common]
            have enough := not_and.1 excess common
            omega
        | false =>
            have two := wanted.resolve_right (by rw [common]; exact Bool.false_ne_true)
            rw [Form.demand, common]
            cases tagged : form.kind.tag? with
            | none => simp
            | some tag =>
                rcases fit.affords id (by rw [linked]; exact Option.some_ne_none host) (by rw [kind, tagged]; rfl) with
                  start | ⟨impossible, -⟩
                · rw [start]
                  simp only [Bool.false_eq_true, if_false]
                  split <;> omega
                · rw [kind, common] at impossible
                  cases impossible

/-- Visits of children leave what is left of them settled. The induction is on the fuel, of which visits of a child
need less than the visits that they are a part of. -/
theorem childrenSettle (laws : Laws) (first : Tree) (fuel : Nat) : ChildrenSettle laws first fuel := by
  induction fuel using Nat.strong_induction_on with
  | h fuel hypothesis =>
      intro state context host front forms ids index governed fit course begun within
      cases fuel with
      | zero => exact .inl rfl
      | succ fuel =>
          have onward := hypothesis fuel (Nat.lt_succ_self fuel)
          refine holds_visitChildren_course course begun within
            (onward state context host front forms ids (index + 1) governed fit course begun) ?_ ?_
          · rintro rfl rfl
            exact ⟨[], Form.settle_nil laws, .refl context, fit, .refl _ _ _, [], course.listed, .nil,
              fun _ none => by cases none⟩
          · rintro form rest id row rfl rfl
            exact holds_siblings_settle onward governed course begun within
              (holds_visit_child (fun fuel' less => hypothesis fuel' (Nat.lt_succ_of_lt less)) governed fit course)

end Walk
end HtmlTemplate
