import HtmlTemplate.Proofs.Desugaring.Turning
import HtmlTemplate.Proofs.Desugaring.Walk

/-!
# Tags with too many directives

Each directive of a tag costs it a change, and the tag comes up again inside of the construct that the directive
was turned into. So a walk does not get past a tag with more directives than it has changes left.
-/

namespace HtmlTemplate

namespace Form

variable {form head : Form}

/-- A directive puts its tag into a loop, or into the branch of a conditional. -/
theorem lowerDirective_wraps (found : form.lowerDirective = some head) (carries : directives form.attributes ≠ 0) :
    (∃ kind name, head = construct kind [form.without name]) ∨
      ∃ kind test name, head = construct kind [construct (.branch test) [form.without name]] := by
  have given := found
  unfold lowerDirective at found
  split at found
  · obtain ⟨loop, -, found⟩ := Option.bind_eq_some_iff.1 found
    exact .inl ⟨loop, "for", (Option.some.inj found).symm⟩
  · split at found
    · split at found
      · cases found
      · simp only [conditional?, Option.bind_eq_bind, Option.bind_eq_some_iff] at found
        obtain ⟨kind, passes, found⟩ := found
        obtain ⟨-, rfl⟩ := checked_eq_some_iff.1 passes
        exact .inr ⟨_, _, "if", (Option.some.inj found).symm⟩
    · obtain rfl := Option.some.inj found
      exact absurd (lowerDirective_self given) carries

end Form

namespace Walk

open Construct Control HtmlTemplate.Tree

variable {id host child : NodeId} {state later : Progress} {context : Context} {laws : Laws} {bound limit : Nat}
variable {tree after : Tree}

/-- Any child is on a course. -/
theorem exists_course {begun : NodeId → Prop} (wellFormed : tree.WellFormed) (linked : tree.parent id = some host)
    (bounded : limit ≤ tree.size) (unvisited : ∀ other, tree.Has other → ¬begun other → (tree.node other).state = .unvisited) :
    ∃ front row, Course tree limit host front (tree.form limit id :: row.map (tree.form limit)) (id :: row) begun tree := by
  obtain ⟨front, row, listed⟩ := List.append_of_mem ((wellFormed.linked host id).2 linked)
  refine ⟨front, row, wellFormed, wellFormed, bounded, wellFormed.has_parent linked, .refl _ _ _, listed, ?_,
    fun other beyond waits => unvisited other beyond.has waits⟩
  rw [← List.map_cons]
  exact List.forall₂_map_left_iff.2 (List.forall₂_same.2 fun other _ => wellFormed.shows_form limit other)

/-- A tag has more directives than changes left, or is the first that comes up below. -/
inductive Doomed (bound : Nat) (state : Progress) (tree : Tree) : NodeId → Prop
  | exceeded {id host : NodeId} : tree.parent id = some host → (tree.kind id).isCommon = true → state.startOf id ≤ bound →
      bound < state.startOf id + Form.directives (tree.node id).attributes → Doomed bound state tree id
  | inside {id child : NodeId} : (tree.kind id).tag? = none → (tree.children id)[0]? = some child →
      (tree.node child).state = .unvisited → Doomed bound state tree child → Doomed bound state tree id

theorem Doomed.asBelow (doomed : Doomed bound state tree id) (wellFormed : tree.WellFormed) (alike : AsBelow tree id after)
    (carried : later.carried = state.carried) : Doomed bound later after id := by
  have count : ∀ other, later.startOf other = state.startOf other := fun other => by
    rw [Progress.startOf, Progress.startOf, carried]
  induction doomed with
  | @exceeded id host linked common within beyond =>
      refine .exceeded ((alike.shape.parent id).trans linked) ?_ (by rw [count]; exact within) ?_
      · rw [alike.shape.kind, common]
      · rw [count, alike.shape.attributes]
        exact beyond
  | @inside id child untagged first unvisited _ hypothesis =>
      have linked := (wellFormed.linked id child).1 (List.mem_of_getElem? first)
      have onPath : tree.OnPath id child := .step linked .self
      refine .inside ?_ ?_ ?_ (hypothesis ⟨alike.shape, fun other under => alike.states other (onPath.trans under)⟩)
      · rw [alike.shape.kind, untagged]
      · rw [alike.shape.children, first]
      · rw [alike.states child onPath, unvisited]

/-- Marks on a node are not below its children. -/
theorem asBelow_child (wellFormed : tree.WellFormed) (remarked : Remarked id tree after) (linked : tree.parent child = some id) :
    AsBelow tree child after := by
  refine ⟨remarked.shape, fun other onPath => ?_⟩
  rw [remarked.others]
  rintro rfl
  obtain ⟨depth, grounded⟩ := wellFormed.grounded child
  exact not_onPath_parent grounded linked onPath

/-- With less fuel than this, no visit of a doomed node comes to an end. -/
def VisitsFail (laws : Laws) (fuel : Nat) : Prop :=
  ∀ less < fuel, ∀ state context id, Governed laws context → context.tree.WellFormed → Doomed laws.bound state context.tree id →
    Holds (fun _ => True) (visit Registry.core laws.bound less id 0) state context fun _ _ _ => False

/-- The walk does not get past visits of children if it does not get past the first one. -/
theorem doomed_visitChildren {fuel : Nat} (wellFormed : context.tree.WellFormed)
    (visits : VisitsFail laws fuel)
    (governed : Governed laws context) (first : (context.tree.children id)[0]? = some child)
    (unvisited : (context.tree.node child).state = .unvisited) (doomed : Doomed laws.bound state context.tree child) :
    Holds (fun _ => True) (visitChildren Registry.core laws.bound fuel id 0) state context fun _ _ _ => False := by
  cases fuel with
  | zero => exact trivial
  | succ fuel =>
      refine .visitChildren (fun none => ?_) (fun other found _ => ?_) fun other found visited => ?_
      · cases first.symm.trans none
      · obtain rfl := Option.some.inj (first.symm.trans found)
        exact (visits fuel (Nat.lt_succ_self fuel) _ _ _ governed wellFormed doomed).bind fun _ _ _ never => never.elim
      · obtain rfl := Option.some.inj (first.symm.trans found)
        exact absurd unvisited visited

/-- What is left of a visit does not get past a first child that is doomed. -/
theorem doomed_finish {fuel left : Nat} (wellFormed : context.tree.WellFormed)
    (visits : VisitsFail laws fuel)
    (governed : Governed laws context) (first : (context.tree.children id)[0]? = some child)
    (unvisited : (context.tree.node child).state = .unvisited) (doomed : Doomed laws.bound state context.tree child) :
    Holds (fun _ => True) (finish Registry.core laws.bound fuel id left) state context fun _ _ _ => False := by
  have linked := (wellFormed.linked id child).1 (List.mem_of_getElem? first)
  unfold finish
  refine holds_setState.bind ?_
  rintro _ state _ ⟨rfl, rfl⟩
  have marked := remarked_setState context.tree id .entered
  have alike := asBelow_child wellFormed marked linked
  refine (@doomed_visitChildren id child state { context with tree := context.tree.setState id .entered } laws fuel
    (marked.shape.wellFormed wellFormed) visits ⟨governed.allows, governed.rules⟩ ?_ ?_
    (doomed.asBelow wellFormed alike rfl)).bind fun _ _ _ never => never.elim
  · rw [marked.shape.children, first]
  · rw [alike.states child .self, unvisited]

/-- The tag comes up again in the construct that it has been put into. -/
theorem doomed_below {new : NodeId} {head form : Form} (wellFormed : tree.WellFormed) (present : id.index < limit)
    (source : form.source = some id) (lowers : form.lowerDirective = some head) (carries : Form.directives form.attributes ≠ 0)
    (shown : tree.Shows limit head new) (waits : (tree.node id).state = .unvisited)
    (unvisited : ∀ other, ¬(other.index < limit) → other ≠ new → (tree.node other).state = .unvisited)
    (again : ∀ host, tree.parent id = some host → Doomed bound state tree id) :
    ∃ child, (tree.children new)[0]? = some child ∧ (tree.node child).state = .unvisited ∧ Doomed bound state tree child := by
  -- A node that shows the tag without a directive is the tag.
  have itself : ∀ name other, tree.Shows limit (form.without name) other → other = id := by
    intro name other shown
    have same := (shows_iff.1 shown).1
    rw [show (form.without name).source = some id from source] at same
    unfold Tree.sourceOf at same
    split at same
    · exact (Option.some.inj same).symm
    · cases same
  have only : ∀ {kid : Form} {other}, List.Forall₂ (tree.Shows limit) [kid] (tree.children other) →
      ∃ child, tree.children other = [child] ∧ tree.Shows limit kid child ∧ tree.parent child = some other := by
    intro kid other shown
    obtain ⟨child, others, first, none, listed⟩ := List.forall₂_cons_left_iff.1 shown
    obtain rfl := List.forall₂_nil_left_iff.1 none
    exact ⟨child, listed, first, (wellFormed.linked other child).1 (by rw [listed]; exact List.mem_cons_self)⟩
  obtain ⟨-, -, -, below⟩ := shows_iff.1 shown
  rcases Form.lowerDirective_wraps lowers carries with ⟨kind, name, rfl⟩ | ⟨kind, test, name, rfl⟩
  · obtain ⟨child, listed, shown, linked⟩ := only below
    obtain rfl := itself name child shown
    exact ⟨child, by rw [listed]; rfl, waits, again new linked⟩
  · obtain ⟨branch, listed, shown, inside⟩ := only below
    obtain ⟨made, branchKind, -, below⟩ := shows_iff.1 shown
    obtain ⟨child, inner, shown, linked⟩ := only below
    obtain rfl := itself name child shown
    have fresh : ¬(branch.index < limit) := fun old => by
      have none : (none : Option NodeId) = Tree.sourceOf limit branch := made
      rw [Tree.sourceOf, if_pos old] at none
      cases none
    have apart : branch ≠ new := by
      rintro rfl
      obtain ⟨depth, grounded⟩ := wellFormed.grounded branch
      exact not_onPath_parent grounded inside .self
    refine ⟨branch, by rw [listed]; rfl, unvisited branch fresh apart, .inside ?_ (by rw [inner]; rfl) waits
      (again branch linked)⟩
    rw [branchKind]
    rfl

/-- A tag that has changes left is put into a construct, and comes up there. -/
theorem doomed_enter {left : Nat} (governed : Governed laws context) (wellFormed : context.tree.WellFormed)
    (linked : context.tree.parent id = some host) (common : (context.tree.kind id).isCommon = true)
    (within : left ≤ laws.bound) (excess : left < Form.directives (context.tree.node id).attributes) :
    Holds (fun _ => True) (enter Registry.core laws.bound left id) state context fun result after final =>
      ∃ new spare child, result = some (new, spare) ∧ Governed laws final ∧ final.tree.WellFormed ∧
        (final.tree.children new)[0]? = some child ∧ (final.tree.node child).state = .unvisited ∧
          Doomed laws.bound after final.tree child := by
  obtain ⟨front, row, course⟩ := @exists_course id host context.tree.size context.tree (fun _ => True) wellFormed linked
    (Nat.le_refl _) fun _ _ waits => absurd trivial waits
  have once := @holds_enterOnce_turned id host state context laws context.tree.size context.tree front row
    (context.tree.form context.tree.size id) (row.map (context.tree.form context.tree.size)) (fun _ => True) (fun _ => True)
    governed course fun _ _ => .inr trivial
  have formKind : (context.tree.form context.tree.size id).kind = context.tree.kind id :=
    (shows_iff.1 (wellFormed.shows_form context.tree.size id)).2.1.symm
  have formCommon : (context.tree.form context.tree.size id).kind.isCommon = true := by rw [formKind, common]
  have formAttributes : (context.tree.form context.tree.size id).attributes = (context.tree.node id).attributes :=
    (shows_iff.1 (wellFormed.shows_form context.tree.size id)).2.2.1.symm
  have carries : Form.directives (context.tree.form context.tree.size id).attributes ≠ 0 := by
    rw [formAttributes]
    omega
  cases left with
  | zero =>
      refine .enter_zero (Meets.weaken once (fun _ _ => trivial) ?_)
      rintro ⟨outcome, size⟩ after final ⟨-, -, -, checked, -, rfl, -, -, turned⟩
      cases turned with
      | unchanged lowers => exact absurd (Form.directives_of_lower_self formCommon lowers) carries
      | changed _ _ _ => exact trivial
      | replaced _ _ _ _ _ => exact trivial
  | succ left =>
      refine .enter_succ (Meets.weaken once (fun _ _ => trivial) ?_)
      rintro ⟨outcome, size⟩ after final ⟨-, lawful, carried, checked, remarked, rfl, -, begins, turned⟩
      cases turned with
      | unchanged lowers => exact absurd (Form.directives_of_lower_self formCommon lowers) carries
      | changed tagged older _ =>
          have control := Form.isCommon_of_older tagged older
          cases formCommon.symm.trans control
      | @replaced head others new _ _ lowers fresh untagged yields next =>
          have marked := remarked_setState final.tree id .unvisited
          have present : checked.Has id := has_of_parent (begins.mem_children List.mem_cons_self).1
          have shown := shows_of_sameShape marked.shape (List.forall₂_cons.1 next.shown).1
          have notNew : new ≠ id := fun same => fresh (same ▸ present)
          have newUntagged : ((final.tree.setState id .unvisited).kind new).tag? = none := by
            rw [marked.shape.kind, untagged]
          refine (holds_enter_untagged newUntagged).weaken ?_
          rintro result _ _ ⟨rfl, rfl, rfl⟩
          have entered := remarked_setState (final.tree.setState id .unvisited) new .entering
          have shape := marked.shape.trans entered.shape
          have sound := shape.wellFormed next.wellFormed
          have grows := yields.reaches.grows begins.wellFormed
          obtain ⟨lowered, -⟩ := Form.lowerDirective_of_lower formCommon lowers
          have old : id.index < context.tree.size := has_of_parent linked
          have source : (context.tree.form context.tree.size id).source = some id := by
            rw [(shows_iff.1 (wellFormed.shows_form context.tree.size id)).1, Tree.sourceOf, if_pos old]
          have had : final.tree.Has id := Nat.lt_of_lt_of_le present grows.size_le
          have kept : (((final.tree.setState id .unvisited).setState new .entering).node id).state = .unvisited := by
            rw [entered.others id notNew.symm]
            exact state_setState_self had
          obtain ⟨sameKind, fewer⟩ := yields.common (by rw [remarked.shape.kind, common])
          rw [remarked.shape.attributes] at fewer
          have again : ∀ host', ((final.tree.setState id .unvisited).setState new .entering).parent id = some host' →
              Doomed laws.bound ((after.inherit checked.size final.tree.size (laws.bound - left)).carry id (laws.bound - left))
                ((final.tree.setState id .unvisited).setState new .entering) id := by
            intro host' linked'
            refine .exceeded linked' ?_ ?_ ?_
            · rw [shape.kind, sameKind, remarked.shape.kind, common]
            · rw [startOf_carry_self]
              exact Nat.sub_le _ _
            · rw [startOf_carry_self, shape.attributes]
              omega
          have unvisited : ∀ other, ¬(other.index < context.tree.size) → other ≠ new →
              (((final.tree.setState id .unvisited).setState new .entering).node other).state = .unvisited := by
            intro other absent different
            have notId : other ≠ id := fun same => absent (same ▸ old)
            rw [entered.others other different, marked.others other notId]
            exact grows.unvisited other fun there => absent (by rw [← remarked.shape.size]; exact there)
          obtain ⟨child, first, waits, doomed⟩ := doomed_below sound old source lowered carries
            (shows_of_sameShape entered.shape shown) kept unvisited again
          exact ⟨new, left, child, rfl, (governed.lawful lawful).lawful ⟨rfl, rfl⟩, sound, first, waits, doomed⟩

/-- The walk does not get past a doomed node. The induction is on the fuel. -/
theorem doomed_visit (fuel : Nat) (governed : Governed laws context) (wellFormed : context.tree.WellFormed)
    (doomed : Doomed laws.bound state context.tree id) :
    Holds (fun _ => True) (visit Registry.core laws.bound fuel id 0) state context fun _ _ _ => False := by
  induction fuel using Nat.strong_induction_on generalizing state context id with
  | h fuel hypothesis =>
      cases fuel with
      | zero => exact trivial
      | succ fuel =>
          have visits : VisitsFail laws fuel := fun less within _ _ _ governed wellFormed doomed =>
            hypothesis less (Nat.lt_succ_of_lt within) governed wellFormed doomed
          cases doomed with
          | exceeded linked common within beyond =>
              refine .visit (doomed_enter governed wellFormed linked common (Nat.sub_le _ _) ?_) ?_ ?_
              · rw [Nat.zero_max]
                omega
              · rintro after final ⟨new, spare, child, impossible, -⟩
                cases impossible
              · rintro new spare after final ⟨_, _, child, same, governed, sound, first, waits, doomed⟩
                obtain ⟨rfl, rfl⟩ := Prod.mk.inj (Option.some.inj same)
                exact doomed_finish sound visits governed first waits doomed
          | inside untagged first waits doomed =>
              refine .visit (holds_enter_untagged untagged) (fun _ _ impossible => by cases impossible.1) ?_
              rintro next spare after final ⟨stays, rfl, rfl⟩
              obtain ⟨rfl, rfl⟩ := Prod.mk.inj (Option.some.inj stays.symm)
              have marked := remarked_setState context.tree id .entering
              have linked := (wellFormed.linked id _).1 (List.mem_of_getElem? first)
              have alike := asBelow_child wellFormed marked linked
              refine doomed_finish (marked.shape.wellFormed wellFormed) visits (governed.lawful ⟨rfl, rfl⟩) ?_ ?_
                (doomed.asBelow wellFormed alike rfl)
              · rw [marked.shape.children, first]
              · rw [alike.states _ .self, waits]

end Walk
end HtmlTemplate
