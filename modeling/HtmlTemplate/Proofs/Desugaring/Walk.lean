import HtmlTemplate.Proofs.Desugaring.Entering

/-!
# Walks in one pass

A walk with the core taglib over a template leaves what the forms of the template stand for, rewritten in one
pass from the top down and from the left to the right, or faults if they stand for nothing.
-/

namespace HtmlTemplate
namespace Walk

open Construct Control HtmlTemplate.Tree

variable {α : Type} {root id host new : NodeId} {state : Progress} {context : Context} {bound left limit : Nat}
variable {before tree after : Tree} {front row ids : List NodeId} {form head : Form} {forms rest : List Form}
variable {begun : NodeId → Prop}

/-! ## Entering -/

/-- A node has been entered: in its place there is a node that shows what its form stands for. -/
def Arrives (before : Context) (first : Tree) (limit : Nat) (host : NodeId) (front : List NodeId) (form : Form)
    (rest : List Form) (result : Option (NodeId × Nat)) (after : Context) : Prop :=
  Lawful before after ∧ ∃ new spare head left others, result = some (new, spare) ∧
    form.rewrite rest = some (head, left) ∧
      Course first limit host front (head :: left) (new :: others) (· = new) after.tree

theorem Refused.weaken {β : Type} {expected : Option α} {other : Option β} {halt : Halt} (refused : Refused expected halt)
    (none : expected = none → other = none) : Refused other halt :=
  ⟨refused.1, none refused.2⟩

theorem holds_enter_means (within : left ≤ bound) (ready : Ready root bound state context.tree)
    (enough : demand context.tree id ≤ left) (cored : Cored context)
    (course : Course before limit host front (form :: rest) (id :: row) begun context.tree)
    (alone : ∀ other, begun other → other = id) :
    Holds (Refused (form.rewrite rest)) (enter Registry.core bound left id) state context fun result _ final =>
      Arrives context before limit host front form rest result final := by
  induction left generalizing state context id form rest row begun with
  | zero =>
      have linked := (course.mem_children List.mem_cons_self).1
      refine .enter_zero (((holds_enterOnce_core ready.template fun _ => by rw [linked]; exact Option.some_ne_none host).and
        (holds_enterOnce_means ready.template cored course alone)).weaken ?_)
      rintro ⟨outcome, size⟩ after final ⟨⟨-, entered, shape, -, turn⟩, lawful, entry⟩
      rw [← demand_sameShape shape] at enough
      cases entry with
      | unchanged means course => exact ⟨lawful, id, 0, form, rest, row, rfl, means, course⟩
      | changed _ _ =>
          cases turn with
          | changed advanced _ => exact absurd (advanced.allowed.trans enough) (by decide)
      | replaced _ _ _ =>
          cases turn with
          | replaced advanced _ _ _ => exact absurd (advanced.allowed.trans enough) (by decide)
  | succ left hypothesis =>
      have linked := (course.mem_children List.mem_cons_self).1
      have free := course.free List.mem_cons_self
      have notHost : id ≠ host := course.wellFormed.ne_of_beyond (course.beyond List.mem_cons_self)
      refine .enter_succ (((holds_enterOnce_core ready.template fun _ => by rw [linked]; exact Option.some_ne_none host).and
        (holds_enterOnce_means ready.template cored course alone)).weaken ?_)
      rintro ⟨outcome, size⟩ after final ⟨⟨carried, entered, shape, rfl, turn⟩, lawful, entry⟩
      rw [← demand_sameShape shape] at enough
      have entering := ready.sameShape shape carried
      have attached : entered.parent id ≠ none := by
        rw [shape.parent, linked]
        exact Option.some_ne_none host
      cases entry with
      | unchanged means course => exact ⟨lawful, id, left + 1, form, rest, row, rfl, means, course⟩
      | changed same course =>
          cases turn with
          | changed advanced still =>
              have lowered := advanced.lowered still
              rw [← same]
              refine (hypothesis (Nat.le_of_succ_le within) (entering.advance advanced attached _) (by omega)
                (cored.lawful lawful) course fun _ equal => equal).weaken ?_
              rintro result _ last ⟨later, new, spare, head, others, row, rfl, means, course⟩
              exact ⟨lawful.trans later, new, spare, head, others, row, rfl, same.symm.trans means, course⟩
      | @replaced head others new row _ means untagged course =>
          cases turn with
          | replaced advanced absent different placed =>
              have marked := remarked_setState final.tree id .unvisited
              have lawful : Lawful context { final with tree := final.tree.setState id .unvisited } :=
                ⟨lawful.options, lawful.rules⟩
              have settles : head.rewrite others = some (head, others) := by
                rw [Form.rewrite, untagged]
              have aside := @Course.setAside _ _ _ _ _ _ _ _ _ (fun _ => False) course free notHost fun _ => .inl
              have refuses : ∀ halt, Refused (head.rewrite others) halt → Refused (form.rewrite rest) halt := by
                rintro halt ⟨-, impossible⟩
                rw [settles] at impossible
                cases impossible
              have goesOn := hypothesis (Nat.le_of_succ_le within)
                ((entering.advance advanced attached (bound - left)).setAside (Nat.le_of_succ_le within) fun still => by
                  have lowered := advanced.lowered still
                  omega)
                (by
                  rw [demand_sameShape marked.shape, demand_of_untagged (advanced.fresh _ absent)]
                  exact Nat.zero_le left)
                (cored.lawful lawful) aside fun _ impossible => impossible.elim
              refine Meets.weaken goesOn refuses ?_
              rintro result _ last ⟨later, arrived, spare, given, remaining, behind, rfl, same, course⟩
              obtain ⟨rfl, rfl⟩ := Prod.mk.inj (Option.some.inj (settles.symm.trans same))
              exact ⟨lawful.trans later, arrived, spare, head, others, behind, rfl, means, course⟩

/-! ## Inside of a node -/

/-- The halts of a walk that is short of fuel, or over something that stands for nothing. -/
def Stops (expected : Option α) (halt : Halt) : Prop :=
  halt = .exhausted ∨ Refused expected halt

/-- The children behind the first ones show what forms stand for, and the rest is spared. -/
def Expanded (root : NodeId) (bound limit : Nat) (host : NodeId) (front : List NodeId) (before : Context)
    (made : List Form) (after : Progress) (final : Context) : Prop :=
  Lawful before final ∧ Ready root bound after final.tree ∧ before.tree.Spares host front final.tree ∧
    ∃ ids, final.tree.children host = front ++ ids ∧ List.Forall₂ (final.tree.Shows limit) made ids

/-- What visits of children do with some fuel. -/
def ChildrenExpand (root : NodeId) (bound limit fuel : Nat) : Prop :=
  ∀ state context host front forms ids index, Ready root bound state context.tree → Cored context →
    Course context.tree limit host front forms ids (fun _ => False) context.tree →
    (∀ id ∈ front, (context.tree.node id).state ≠ .unvisited) → index ≤ front.length →
      Holds (Stops (Form.expand forms)) (visitChildren Registry.core bound fuel host index) state context
        fun _ after final => ∃ made, Form.expand forms = some made ∧
          Expanded root bound limit host front context made after final

/-- What is left of a visit after the node has been entered. -/
def finish (registry : Registry) (bound fuel : Nat) (id : NodeId) (left : Nat) : Walk Unit := do
  setState id .entered
  visitChildren registry bound fuel id 0
  setState id .exiting
  leave registry bound fuel id left

/-- A node has been visited: it shows what its form stands for, and only what is below it and its marks changed. -/
def Finished (root : NodeId) (bound limit : Nat) (id : NodeId) (head : Form) (before : Context) (below : List Form)
    (after : Progress) (final : Context) : Prop :=
  Lawful before final ∧ Ready root bound after final.tree ∧ (final.tree.node id).state = .settled ∧
    final.tree.Shows limit (head.withChildren below) id ∧
      ∃ entered visited, Remarked id before.tree entered ∧ entered.Spares id [] visited ∧ Remarked id visited final.tree

/-- All children of a node that is marked wait for their turn if nothing below it has been visited. -/
theorem course_children (wellFormed : before.WellFormed) (marked : Remarked id before after) (bounded : limit ≤ before.size)
    (present : before.Has id) (shown : before.Shows limit head id)
    (unvisited : ∀ other, before.Beyond id [] other → (before.node other).state = .unvisited) :
    Course after limit id [] head.children (after.children id) (fun _ => False) after := by
  have sound := marked.shape.wellFormed wellFormed
  have below := (shows_iff.1 (shows_of_sameShape marked.shape shown)).2.2.2
  refine ⟨sound, sound, by rw [marked.shape.size]; exact bounded, marked.shape.has_iff.2 present, .refl _ _ _, rfl, below,
    fun other beyond _ => ?_⟩
  have was := beyond_of_sameShape marked.shape beyond
  rw [marked.others other (wellFormed.ne_of_beyond was)]
  exact unvisited other was

/-- A node that is spared shows its form with what its children show now. -/
theorem shows_withChildren {below : List Form} (shown : before.Shows limit head id) (spares : before.Spares id [] after)
    (shownBelow : List.Forall₂ (after.Shows limit) below (after.children id)) :
    after.Shows limit (head.withChildren below) id := by
  obtain ⟨source, kind, attributes, -⟩ := shows_iff.1 shown
  cases head with
  | node from' own given kids =>
      refine shows_iff.2 ⟨source, ?_, ?_, shownBelow⟩
      · rw [Tree.kind, spares.owner]
        exact kind
      · rw [spares.owner]
        exact attributes

theorem holds_finish {fuel : Nat} (children : ChildrenExpand root bound limit fuel)
    (ready : Ready root bound state context.tree) (cored : Cored context) (bounded : limit ≤ context.tree.size)
    (present : context.tree.Has id) (shown : context.tree.Shows limit head id)
    (unvisited : ∀ other, context.tree.Beyond id [] other → (context.tree.node other).state = .unvisited) :
    Holds (Stops (Form.expand head.children)) (finish Registry.core bound fuel id left) state context
      fun _ after final => ∃ below, Form.expand head.children = some below ∧
        Finished root bound limit id head context below after final := by
  unfold finish
  refine holds_setState.bind ?_
  rintro _ state _ ⟨rfl, rfl⟩
  have marked := remarked_setState context.tree id .entered
  have readied : Ready root bound state (context.tree.setState id .entered) := ready.sameShape marked.shape rfl
  have course := course_children ready.template.wellFormed marked bounded present shown unvisited
  refine (children state { context with tree := context.tree.setState id .entered } id [] _ _ 0 readied
    ⟨cored.allows, cored.rules⟩ course (fun _ impossible => by cases impossible) (Nat.le_refl 0)).bind ?_
  rintro _ after visited ⟨below, expanded, lawful, ready, spares, ids, listed, shownBelow⟩
  refine holds_setState.bind ?_
  rintro _ after _ ⟨rfl, rfl⟩
  have leaving := remarked_setState visited.tree id .exiting
  refine Meets.weaken (holds_leave_core fuel) (fun _ => .inl) ?_
  rintro _ _ _ ⟨rfl, rfl⟩
  have remarked := leaving.trans (remarked_setState (visited.tree.setState id .exiting) id .settled)
  refine ⟨below, expanded, ⟨lawful.options, lawful.rules⟩, ready.sameShape remarked.shape rfl, ?_, ?_,
    _, visited.tree, marked, spares, remarked⟩
  · exact state_setState_self (leaving.shape.has_iff.2 (spares.has (marked.shape.has_iff.2 present)))
  · refine shows_of_sameShape remarked.shape (shows_withChildren (shows_of_sameShape marked.shape shown) spares ?_)
    rw [listed]
    exact shownBelow

/-! ## Visits -/

/-- What is changed inside of a node is changed beyond its siblings. -/
theorem spares_inside {entered visited : Tree} (enters : Remarked id before entered) (spares : entered.Spares id [] visited)
    (leaves : Remarked id visited after) (wellFormed : before.WellFormed) (sound : after.WellFormed)
    (linked : before.parent id = some host) (behind : id ∉ front) :
    before.Spares host front after ∧ after.children host = before.children host := by
  have enteredSound := enters.shape.wellFormed wellFormed
  have visitedSound := leaves.shape.symm.wellFormed sound
  have linkedThere : entered.parent id = some host := (enters.shape.parent id).trans linked
  have linkedThen : visited.parent id = some host := by
    rw [Tree.parent, spares.owner]
    exact linkedThere
  have notId : host ≠ id := by
    rintro rfl
    obtain ⟨depth, grounded⟩ := wellFormed.grounded host
    exact not_onPath_parent grounded linked .self
  have above : entered.OnPath host id := .step linkedThere .self
  have kept := spares.node host (enteredSound.has_parent linkedThere) (enteredSound.not_beyond_of_onPath above) notId
  refine ⟨(enters.spares (beyond_of_child linked behind) wellFormed).trans wellFormed
    ((spares.narrow enteredSound linkedThere behind).trans enteredSound
      (leaves.spares (beyond_of_child linkedThen behind) visitedSound)), ?_⟩
  rw [leaves.shape.children, Tree.children, kept, ← Tree.children, enters.shape.children]

/-- A child that has been passed is among the first ones, and the siblings behind it go on waiting for their turn. -/
theorem Course.passed {start entered visited : Tree} {left : List Form} {others : List NodeId}
    (there : Course start limit host front (head :: left) (new :: others) (· = new) tree)
    (enters : Remarked new tree entered) (spares : entered.Spares new [] visited) (leaves : Remarked new visited after)
    (sound : after.WellFormed) :
    start.Spares host front after ∧ after.parent new = some host ∧
      Course after limit host (front ++ [new]) left others (fun _ => False) after := by
  have wellFormed := there.wellFormed
  have hosted := (there.mem_children List.mem_cons_self).1
  have distinct := wellFormed.nodup host
  rw [there.listed] at distinct
  have apart : new ∉ front ++ others := by
    rw [List.mem_append, not_or]
    exact ⟨(there.mem_children List.mem_cons_self).2, (List.nodup_cons.1 distinct.of_append_right).1⟩
  obtain ⟨beside, listed⟩ := spares_inside enters spares leaves wellFormed sound hosted apart
  have listed : after.children host = (front ++ [new]) ++ others := by
    rw [listed, there.listed, List.append_assoc]
    rfl
  have linked : after.parent new = some host := by
    rw [← sound.linked, listed]
    simp
  -- Siblings are clear of what has changed.
  have sibling : ∀ other ∈ others, tree.parent other = some host ∧ tree.Clear host (front ++ others) other := by
    intro other member
    have alike := (there.mem_children (List.mem_cons_of_mem new member)).1
    exact ⟨alike, wellFormed.clear_of_mem alike (List.mem_append_right front member)⟩
  refine ⟨there.spares.trans there.sound (beside.mono (List.subset_append_left front others)), linked, sound, sound,
    Nat.le_trans there.bench.bounded beside.size_le, beside.has there.bench.present, .refl _ _ _, listed, ?_, ?_⟩
  · refine forall₂_imp_of_mem (List.forall₂_cons.1 there.shown).2 fun form _ other member shown => ?_
    obtain ⟨alike, clear⟩ := sibling other member
    exact beside.shows wellFormed clear (has_of_parent alike) shown
  · rintro other ⟨top, above, behind, onPath⟩ -
    have member : top ∈ others := by
      have among := (sound.linked host top).2 above
      rw [listed, List.mem_append] at among
      exact among.resolve_left behind
    obtain ⟨alike, clear⟩ := sibling top member
    have was := beside.onPath_of_clear wellFormed sound clear (has_of_parent alike) onPath
    rw [beside.node_of_clear clear (has_of_parent alike) was]
    refine there.unvisited other ⟨top, alike, (there.mem_children (List.mem_cons_of_mem new member)).2, was⟩ ?_
    rintro rfl
    exact apart (List.mem_append_right front (wellFormed.eq_of_onPath_of_siblings alike hosted was .self ▸ member))

/-- A child has been visited, and the siblings behind it that are left wait for their turn. -/
def Completed (root : NodeId) (bound limit : Nat) (host : NodeId) (front : List NodeId) (before : Context) (head : Form)
    (left : List Form) (below : List Form) (after : Progress) (final : Context) : Prop :=
  Lawful before final ∧ Ready root bound after final.tree ∧ before.tree.Spares host front final.tree ∧
    ∃ new others, (final.tree.node new).state ≠ .unvisited ∧ final.tree.Shows limit (head.withChildren below) new ∧
      final.tree.parent new = some host ∧
        Course final.tree limit host (front ++ [new]) left others (fun _ => False) final.tree

theorem holds_visit_means {fuel passes : Nat} (children : ChildrenExpand root bound limit fuel)
    (ready : Ready root bound state context.tree) (enough : demand context.tree id ≤ bound - max passes (state.startOf id))
    (cored : Cored context) (course : Course context.tree limit host front (form :: rest) (id :: row) begun context.tree)
    (alone : ∀ other, begun other → other = id) :
    Holds (Stops ((form.rewrite rest).bind fun given => Form.expand given.1.children))
      (visit Registry.core bound (fuel + 1) id passes) state context fun _ after final =>
        ∃ head left below, form.rewrite rest = some (head, left) ∧ Form.expand head.children = some below ∧
          Completed root bound limit host front context head left below after final := by
  have begunReady : Ready root bound { state with visited := state.visited + 1 } context.tree := ready.sameShape (.refl _) rfl
  have linked := (course.mem_children List.mem_cons_self).1
  have entering := (holds_enter_core (Nat.sub_le _ _) begunReady (fun _ => by rw [linked]; exact Option.some_ne_none host)
    enough).and (holds_enter_means (Nat.sub_le _ _) begunReady enough cored course alone)
  refine .visit (entering.halting fun halt refused => .inr (Refused.weaken refused fun none => by rw [none]; rfl)) ?_ ?_
  · rintro after final ⟨-, -, new, spare, head, left, others, impossible, -⟩
    cases impossible
  rintro new spare after entered ⟨readyThere, lawful, _, _, head, left, others, same, means, there⟩
  obtain ⟨rfl, rfl⟩ := Prod.mk.inj (Option.some.inj same)
  have finished := @holds_finish root new after entered bound spare limit head fuel children readyThere (cored.lawful lawful)
    there.bench.bounded (has_of_parent (there.mem_children List.mem_cons_self).1) (List.forall₂_cons.1 there.shown).1
    fun other beyond => there.unvisited other
      (beyond.narrow (there.mem_children List.mem_cons_self).1 (there.mem_children List.mem_cons_self).2)
      (there.wellFormed.ne_of_beyond beyond)
  refine Meets.weaken finished (fun halt stops => ?_) ?_
  · rcases stops with exhausted | refused
    · exact .inl exhausted
    · exact .inr (Refused.weaken refused fun none => by rw [means]; exact none)
  rintro _ last final ⟨below, expanded, later, readyLast, settled, shown, marked, visited, entersAt, spares, leavesAt⟩
  obtain ⟨beside, linked, next⟩ := there.passed entersAt spares leavesAt readyLast.template.wellFormed
  refine ⟨head, left, below, means, expanded, lawful.trans later, readyLast, beside, new, others, ?_, shown, linked, next⟩
  rw [settled]
  exact fun impossible => by cases impossible

theorem expand_eq_none (empty : ((form.rewrite rest).bind fun given => Form.expand given.1.children) = none) :
    Form.expand (form :: rest) = none := by
  rw [Form.expand_cons]
  cases means : form.rewrite rest with
  | none => rfl
  | some given =>
      obtain ⟨head, left⟩ := given
      rw [means, Option.bind_some] at empty
      simp [empty]

theorem expand_eq_map {left below : List Form} (means : form.rewrite rest = some (head, left))
    (expanded : Form.expand head.children = some below) :
    Form.expand (form :: rest) = (Form.expand left).map fun others => head.withChildren below :: others := by
  rw [Form.expand_cons, means]
  simp only [Option.bind_eq_bind, Option.bind_some, expanded]
  rw [Option.map_eq_bind]
  rfl

/-- A child is visited, and then the siblings that it has left. -/
theorem holds_siblings {fuel index : Nat} (onward : ChildrenExpand root bound limit fuel)
    (cored : Cored context) (course : Course context.tree limit host front (form :: rest) (id :: row) (fun _ => False) context.tree)
    (visited : ∀ other ∈ front, (context.tree.node other).state ≠ .unvisited) (within : index ≤ front.length)
    (visits : Holds (Stops ((form.rewrite rest).bind fun given => Form.expand given.1.children))
      (visit Registry.core bound fuel id 0) state context fun _ after final =>
        ∃ head left below, form.rewrite rest = some (head, left) ∧ Form.expand head.children = some below ∧
          Completed root bound limit host front context head left below after final) :
    Holds (Stops (Form.expand (form :: rest))) (do
        visit Registry.core bound fuel id 0
        visitChildren Registry.core bound fuel host index) state context
      fun _ after final => ∃ made, Form.expand (form :: rest) = some made ∧
        Expanded root bound limit host front context made after final := by
  have sound := course.wellFormed
  refine (visits.halting fun halt stops => ?_).bind ?_
  · exact stops.imp_right fun refused => Refused.weaken refused expand_eq_none
  rintro _ between middle ⟨head, left, below, means, expanded, lawful, ready, spares, new, behind, settled, shown, placed, next⟩
  have begun := course.visited spares visited settled
  have goesOn := onward between middle host (front ++ [new]) left behind index ready (cored.lawful lawful) next begun
    (within.trans (by rw [List.length_append]; exact Nat.le_add_right _ _))
  have whole := expand_eq_map means expanded
  refine Meets.weaken goesOn (fun halt stops => ?_) ?_
  · exact stops.imp_right fun refused => Refused.weaken refused fun none => by rw [whole, none]; rfl
  rintro _ after final ⟨made, remaining, later, readyLast, further, ids, listed, all⟩
  have clear : middle.tree.Clear host (front ++ [new]) new :=
    next.wellFormed.clear_of_mem placed (List.mem_append_right front List.mem_cons_self)
  refine ⟨head.withChildren below :: made, by rw [whole, remaining]; rfl, lawful.trans later, readyLast,
    spares.trans sound (further.mono (List.subset_append_left front [new])), new :: ids, ?_, ?_⟩
  · rw [listed, List.append_assoc]
    rfl
  · exact .cons (further.shows next.wellFormed clear (has_of_parent placed) shown) all

/-- Visits of children pass over those that have been visited, and then come to the first one that has not, if any. -/
theorem holds_visitChildren_course {halts : Halt → Prop} {good : Unit → Progress → Context → Prop} {fuel index : Nat}
    (course : Course context.tree limit host front forms ids (fun _ => False) context.tree)
    (begun : ∀ other ∈ front, (context.tree.node other).state ≠ .unvisited) (within : index ≤ front.length)
    (passes : index < front.length →
      Holds halts (visitChildren Registry.core bound fuel host (index + 1)) state context good)
    (ended : forms = [] → ids = [] → good () state context)
    (visits : ∀ form rest id row, forms = form :: rest → ids = id :: row → Holds halts (do
      visit Registry.core bound fuel id 0
      visitChildren Registry.core bound fuel host index) state context good) :
    Holds halts (visitChildren Registry.core bound (fuel + 1) host index) state context good := by
  rcases Nat.lt_or_eq_of_le within with early | rfl
  · have found : (context.tree.children host)[index]? = some front[index] := by
      rw [course.listed, List.getElem?_append_left early, List.getElem?_eq_getElem early]
    refine .visitChildren (fun none => ?_) (fun child same unvisited => ?_) fun _ _ _ => passes early
    · cases found.symm.trans none
    · obtain rfl := Option.some.inj (found.symm.trans same)
      exact absurd unvisited (begun _ (List.getElem_mem early))
  · have found : (context.tree.children host)[front.length]? = ids.head? := by
      rw [course.listed, List.getElem?_append_right (Nat.le_refl _), Nat.sub_self, List.head?_eq_getElem?]
    cases ids with
    | nil =>
        obtain rfl := List.forall₂_nil_right_iff.1 course.shown
        refine .visitChildren (fun _ => ended rfl rfl) (fun child same _ => ?_) fun child same _ => ?_
        · cases found.symm.trans same
        · cases found.symm.trans same
    | cons id row =>
        obtain ⟨form, rest, -, -, rfl⟩ := List.forall₂_cons_right_iff.1 course.shown
        have turn := course.unvisited id (course.beyond List.mem_cons_self) not_false
        refine .visitChildren (fun none => ?_) (fun child same _ => ?_) fun child same visited => ?_
        · cases found.symm.trans none
        · obtain rfl := Option.some.inj (found.symm.trans same)
          exact visits form rest id row rfl rfl
        · obtain rfl := Option.some.inj (found.symm.trans same)
          exact absurd turn visited

/-- Visits of children rewrite what is left of them. The induction is on the fuel, of which visits of a child need
less than the visits that they are a part of. -/
theorem childrenExpand (root : NodeId) (bound limit fuel : Nat) : ChildrenExpand root bound limit fuel := by
  induction fuel using Nat.strong_induction_on with
  | h fuel hypothesis =>
      intro state context host front forms ids index ready cored course begun within
      cases fuel with
      | zero => exact .inl rfl
      | succ fuel =>
          have onward := hypothesis fuel (Nat.lt_succ_self fuel)
          refine holds_visitChildren_course course begun within
            (onward state context host front forms ids (index + 1) ready cored course begun) ?_ ?_
          · rintro rfl rfl
            exact ⟨[], Form.expand_nil, .refl context, ready, .refl _ _ _, [], course.listed, .nil⟩
          · rintro form rest id row rfl rfl
            refine holds_siblings onward cored course begun within ?_
            cases fuel with
            | zero => exact .inl rfl
            | succ fuel =>
                refine holds_visit_means (hypothesis fuel (by omega)) ready ?_ cored course
                  fun _ impossible => impossible.elim
                rw [Nat.zero_max]
                refine ready.affords id ?_
                rw [(course.mem_children List.mem_cons_self).1]
                exact Option.some_ne_none host

/-! ## Whole walks -/

theorem holds_markAll_rules {halts : Halt → Prop} (ids : List NodeId) :
    Holds halts (forIn ids PUnit.unit fun id _ => do
        setState id .unvisited
        pure (ForInStep.yield PUnit.unit)) state context fun _ _ final => final.rules = context.rules :=
  (@holds_markAll_of state context halts (fun _ final => final.rules = context.rules) (fun _ _ _ same => same) ids rfl).weaken
    fun _ _ _ kept => kept.2

/-- A walk over a template with the core taglib. -/
theorem holds_start_means (template : context.tree.IsTemplate root) (cored : Cored context)
    (affords : ∀ id, demand context.tree id ≤ context.options.maxTransformPasses) (fuel : Nat) :
    Holds (Stops (Form.expand (context.tree.form context.tree.size root).children)) (start Registry.core fuel root) {} context
      fun _ _ final => final.tree.WellFormed ∧ ∃ below,
        Form.expand (context.tree.form context.tree.size root).children = some below ∧
          final.tree.Shows context.tree.size ((context.tree.form context.tree.size root).withChildren below) root := by
  unfold start
  refine holds_context.bind ?_
  rintro _ state context ⟨rfl, rfl, rfl⟩
  refine Holds.bind (@Holds.and _ _ _ (fun _ => False) _ _ _ _ (holds_markAll _) (holds_markAll_rules _)) ?_
  rintro _ _ marked ⟨⟨rfl, options, shape, states⟩, rules⟩
  have lawful : Lawful context marked := ⟨options, rules⟩
  have ready : Ready root context.options.maxTransformPasses {} marked.tree := by
    have begun : Ready root context.options.maxTransformPasses {} context.tree := ⟨template, fun id _ => affords id⟩
    exact begun.sameShape shape rfl
  have untagged : (marked.tree.kind root).tag? = none := by
    rw [shape.kind, template.document]
    rfl
  cases fuel with
  | zero => exact .inl rfl
  | succ fuel =>
      refine .visit (holds_enter_untagged untagged) (fun _ _ impossible => by cases impossible.1) ?_
      rintro next spare after entered ⟨stays, rfl, rfl⟩
      obtain ⟨rfl, rfl⟩ := Prod.mk.inj (Option.some.inj stays.symm)
      have remarked := remarked_setState marked.tree root .entering
      have shapes := shape.trans remarked.shape
      have wellFormed := template.wellFormed
      have finished := @holds_finish root root { ({} : Progress) with visited := 1 }
        { marked with tree := marked.tree.setState root .entering } context.options.maxTransformPasses
        (context.options.maxTransformPasses - max 0 (Progress.startOf {} root)) context.tree.size
        (context.tree.form context.tree.size root) fuel (childrenExpand root _ _ fuel)
        (ready.sameShape remarked.shape rfl) ((cored.lawful lawful).lawful ⟨rfl, rfl⟩)
        (Nat.le_of_eq shapes.size.symm) (shapes.has_iff.2 template.present)
        (shows_of_sameShape shapes (wellFormed.shows_form _ root)) fun other beyond => by
          have different := (shapes.wellFormed wellFormed).ne_of_beyond beyond
          obtain ⟨top, linked, -, onPath⟩ := beyond
          have below : context.tree.OnPath root other :=
            shapes.onPath_iff.1 ((OnPath.step linked .self).trans onPath)
          rw [remarked.others other different, states, if_pos (wellFormed.mem_preorder below)]
      refine finished.weaken ?_
      rintro _ last final ⟨below, expanded, -, readyLast, -, shown, -⟩
      exact ⟨readyLast.template.wellFormed, below, expanded, shown⟩

end Walk

/-! ## Trees as they are parsed -/

/-- Nodes of the kind are markup that was read. -/
def Kind.isMarkup : Kind → Bool
  | element _ => true
  | text _ => true
  | placeholder _ _ => true
  | comment _ _ => true
  | doctype _ => true
  | _ => false

/-- A document with markup below, the attributes of which have different names. -/
structure Tree.IsMarkup (root : NodeId) (tree : Tree) : Prop where
  wellFormed : tree.WellFormed
  present : tree.Has root
  document : tree.kind root = .document
  top : tree.parent root = none
  markup : ∀ id, tree.Has id → id ≠ root → (tree.kind id).isMarkup = true
  distinct : ∀ id, ((tree.node id).attributes.map Attribute.name).Nodup

namespace Tree.IsMarkup

variable {tree : Tree} {root id : NodeId}

theorem document_or_isMarkup (markup : tree.IsMarkup root) (id : NodeId) :
    tree.kind id = .document ∨ (tree.kind id).isMarkup = true := by
  by_cases present : tree.Has id
  · by_cases same : id = root
    · exact .inl (same ▸ markup.document)
    · exact .inr (markup.markup id present same)
  · exact .inl (kind_of_not_has present)

theorem isTemplate (markup : tree.IsMarkup root) : tree.IsTemplate root := by
  refine ⟨markup.wellFormed, fun parent => ?_, markup.present, markup.document, markup.top, fun id tag tagged => ?_⟩
  · have other : tree.kind parent ≠ .conditional := by
      intro conditional
      rcases markup.document_or_isMarkup parent with same | same
      · cases conditional.symm.trans same
      · rw [conditional] at same
        cases same
    rw [Kind.takes_iff_of_ne other]
    intro kind member
    obtain ⟨child, listed, rfl⟩ := List.mem_map.1 member
    have linked := (markup.wellFormed.linked parent child).1 listed
    have below : child ≠ root := by
      rintro rfl
      cases linked.symm.trans markup.top
    have isMarkup := markup.markup child (has_of_parent linked) below
    generalize tree.kind child = kind at isMarkup
    cases kind <;> first | rfl | cases isMarkup
  · rcases markup.document_or_isMarkup id with same | same
    · rw [same] at tagged
      cases tagged
    · generalize tree.kind id = kind at same tagged
      cases kind with
      | element name => exact congrArg Kind.element (Option.some.inj tagged)
      | customTag _ _ => cases same
      | _ => cases tagged

theorem single (markup : tree.IsMarkup root) : tree.Single := fun id name _ =>
  List.nodup_iff_count_le_one.1 (markup.distinct id) name

end Tree.IsMarkup

/-- A walk with the core taglib over a document with markup is a rewriting in one pass, from the top down and from
the left to the right. If unknown tags may pass and nodes may change twice, then given enough fuel, and then any
more, the walk stops for a fault if the forms below the document stand for nothing, and else it succeeds and
leaves the document with what they stand for: nodes that were there before are told from new ones by their numbers. -/
theorem Context.walk_expands {root : NodeId} {tree : Tree} (options : Options) (markup : tree.IsMarkup root)
    (allows : options.allowUnknownTags = true) (passes : 2 ≤ options.maxTransformPasses) :
    ∃ enough, ∀ fuel, enough ≤ fuel →
      (Form.expand (tree.form tree.size root).children = none →
        ∃ fault, ((Context.start tree options Registry.core).walk Registry.core fuel root).1 = .error (.fault fault)) ∧
      ∀ below, Form.expand (tree.form tree.size root).children = some below →
        ∃ progress, ((Context.start tree options Registry.core).walk Registry.core fuel root).1 = .ok progress ∧
          ((Context.start tree options Registry.core).walk Registry.core fuel root).2.tree.form tree.size root =
            (tree.form tree.size root).withChildren below := by
  have template := markup.isTemplate
  have affords : ∀ id, Control.demand tree id ≤ options.maxTransformPasses := fun id =>
    (Control.demand_le_two markup.single id).trans passes
  have cored : Walk.Cored (Context.start tree options Registry.core) :=
    ⟨allows, funext fun tag => congrArg (Option.map TagEntry.rules) (Control.lookup?_core tag tree.file)⟩
  obtain ⟨enough, result, same, meets⟩ := @Walk.settles_start_core root (Context.start tree options Registry.core) template affords
  refine ⟨enough, fun fuel large => ?_⟩
  have means := @Walk.holds_start_means root (Context.start tree options Registry.core) template cored affords fuel
  have walked : Walk.start Registry.core fuel root {} (Context.start tree options Registry.core) = result := same fuel large
  unfold Walk.Holds at means
  rw [walked] at means
  rw [Context.walk, walked]
  rcases result with ⟨⟨halt | value, progress⟩, final⟩
  · obtain ⟨fault, rfl, -⟩ := meets
    refine ⟨fun _ => ⟨fault, rfl⟩, fun below expanded => ?_⟩
    rcases means with exhausted | refused
    · cases exhausted
    · cases refused.2.symm.trans expanded
  · obtain ⟨wellFormed, made, expanded, shown⟩ := means
    refine ⟨fun none => ?_, fun below alike => ⟨progress, rfl, ?_⟩⟩
    · cases none.symm.trans expanded
    · obtain rfl := Option.some.inj (expanded.symm.trans alike)
      exact (wellFormed.shows_form tree.size root).unique shown

/-- A conditional with an older name, and a branch behind it. -/
theorem Context.walk_expands_branch :
    let test : Attribute := { name := "test", value := { raw := "a", segments := [.static "a"] }, position := {} }
    let tree : Tree := { file := "page", nodes := [
      { kind := .document, children := [⟨1⟩, ⟨3⟩] },
      { kind := .element "c-if", attributes := [test], children := [⟨2⟩], parent := some ⟨0⟩ },
      { kind := .text "b", parent := some ⟨1⟩ }, { kind := .element "c-else", parent := some ⟨0⟩ }] }
    let context := Context.start tree { allowUnknownTags := true, maxTransformPasses := 2 } Registry.core
    ∃ enough, ∀ fuel, enough ≤ fuel →
      (Form.expand (tree.form tree.size ⟨0⟩).children = none →
        ∃ fault, (context.walk Registry.core fuel ⟨0⟩).1 = .error (.fault fault)) ∧
      ∀ below, Form.expand (tree.form tree.size ⟨0⟩).children = some below →
        ∃ progress, (context.walk Registry.core fuel ⟨0⟩).1 = .ok progress ∧
          (context.walk Registry.core fuel ⟨0⟩).2.tree.form tree.size ⟨0⟩ =
            (tree.form tree.size ⟨0⟩).withChildren below := by
  intro test tree context
  refine Context.walk_expands { allowUnknownTags := true, maxTransformPasses := 2 } ?_ rfl (Nat.le_refl 2)
  have apart : Tree.WellFormed { file := "page", nodes := [{ kind := .document },
      { kind := .element "c-if", attributes := [test] }, { kind := .text "b" }, { kind := .element "c-else" }] } :=
    Tree.wellFormed_of_unlinked (by simp)
  have first := (@Tree.Edited.append _ ⟨1⟩ ⟨2⟩ _ (by decide) (by decide) rfl).wellFormed apart
  have second := (@Tree.Edited.append _ ⟨0⟩ ⟨1⟩ _ (by decide) (by decide) rfl).wellFormed first
  have third : tree.WellFormed := (@Tree.Edited.append _ ⟨0⟩ ⟨3⟩ _ (by decide) (by decide) rfl).wellFormed second
  refine ⟨third, by decide, rfl, rfl, ?_, ?_⟩
  · rintro ⟨index⟩ present below
    have within : index < 4 := present
    interval_cases index
    · exact absurd rfl below
    · rfl
    · rfl
    · rfl
  · rintro ⟨index⟩
    by_cases within : index < 4
    · interval_cases index <;> decide
    · have absent : ¬tree.Has ⟨index⟩ := within
      rw [Tree.node_of_not_has absent]
      exact List.nodup_nil

end HtmlTemplate
