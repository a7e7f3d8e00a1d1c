import HtmlTemplate.Proofs.Desugaring.Fitting

/-!
# Entering nodes of any tree

A node that a walk with the core taglib enters, in whatever tree, becomes what its form stands for under the laws of
the walk, as long as it has as many changes left as its form asks for.
-/

namespace HtmlTemplate

namespace Edit

variable {α γ : Type} {context : Context} {expected : Option γ} {work : Edit α} {good : γ → α → Context → Prop}

/-- What holds whenever an edit succeeds holds besides. -/
theorem Mirrors.also {more : α → Context → Prop} (mirrors : Mirrors expected work context good)
    (also : ∀ value after, work.run context = (.ok value, after) → more value after) :
    Mirrors expected work context fun result value after => good result value after ∧ more value after := by
  refine ⟨mirrors.1, fun result same => ?_⟩
  obtain ⟨value, after, ran, meets⟩ := mirrors.2 result same
  exact ⟨value, after, ran, meets, also value after ran⟩

end Edit

namespace Walk

open Construct Control HtmlTemplate.Tree

variable {id host new : NodeId} {state later : Progress} {context : Context} {laws : Laws} {left limit : Nat}
variable {first start before after tree : Tree} {front row others : List NodeId} {form head : Form} {rest : List Form}
variable {begun : NodeId → Prop} {halts : Halt → Prop}

/-! ## Transforms -/

/-- A node was given up for a new one: a control tag has lost its parent, and a common one a directive. -/
structure Yields (id : NodeId) (before after : Tree) : Prop extends Advance id before after where
  tagged : (before.kind id).tag?.isSome = true
  control : (before.kind id).isCommon = false → after.parent id = none
  common : (before.kind id).isCommon = true → after.kind id = before.kind id ∧
    Form.directives (after.node id).attributes + 1 = Form.directives (before.node id).attributes

/-- What entering a node once comes to, in view of the siblings behind it. -/
inductive Turned (start : Tree) (limit : Nat) (host : NodeId) (front : List NodeId) (form : Form) (rest : List Form)
    (id : NodeId) (begun : NodeId → Prop) (before : Tree) : Outcome → Tree → Prop
  | unchanged : form.lower rest = some (form, rest) →
      Turned start limit host front form rest id begun before .unchanged before
  | changed {old : String} {after : Tree} : form.kind.tag? = some old → Form.modernTag old ≠ old →
      before.setKind id (.element (Form.modernTag old)) = .ok after →
        Turned start limit host front form rest id begun before .changed after
  | replaced {head : Form} {left : List Form} {new : NodeId} {others : List NodeId} {after : Tree} :
      form.lower rest = some (head, left) → ¬before.Has new → (after.kind new).tag? = none → Yields id before after →
        Course start limit host front (head :: left) (new :: others) begun after →
          Turned start limit host front form rest id begun before (.replaced new) after

/-- What an edit reports that mirrors what a form stands for. -/
def Mirrored (before : Context) (limit : Nat) (host : NodeId) (front : List NodeId) (form : Form) (rest : List Form)
    (id : NodeId) (given : Form × List Form) (outcome : Outcome) (after : Context) : Prop :=
  outcome = .unchanged ∧ after = before ∧ given = (form, rest) ∨
    ∃ new row, outcome = .replaced new ∧ Rewrites before limit host front given.1 given.2 new row after ∧
      Yields id before.tree after.tree

/-- What a round of transforms comes to. -/
abbrev Rounds (start : Tree) (limit : Nat) (host : NodeId) (front : List NodeId) (form : Form) (rest : List Form)
    (id : NodeId) (begun : NodeId → Prop) (state : Progress) (context : Context) (transforms : List Transform) : Prop :=
  Holds (fun halt => IsFault halt ∧ form.lower rest = none) (applyFirst id transforms) state context
    fun outcome after final => Lawful context final ∧ after.carried = state.carried ∧
      Turned start limit host front form rest id begun context.tree outcome final.tree

/-- A transform that always fails is the end of the walk. -/
theorem holds_applyFirst_refused {good : Outcome → Progress → Context → Prop} {transform : Transform}
    {transforms : List Transform} (refuses : ∀ outcome after, (transform.apply id).run context ≠ (.ok outcome, after)) :
    Holds (fun _ => True) (applyFirst id (transform :: transforms)) state context good :=
  .applyFirst (fun _ _ _ => trivial) (fun final ran => absurd ran (refuses _ final))
    fun outcome final ran => absurd ran (refuses outcome final)

/-- The first transform mirrors what the form stands for. If it reports no change, then there is no other one. -/
theorem Rounds.mirrored {transform : Transform} {transforms : List Transform}
    (course : Course start limit host front (form :: rest) (id :: row) begun context.tree)
    (mirrors : Edit.Mirrors (form.lower rest) (transform.apply id) context fun given outcome after =>
      Mirrored context limit host front form rest id given outcome after ∧ (outcome = .unchanged → transforms = [])) :
    Rounds start limit host front form rest id begun state context (transform :: transforms) := by
  unfold Rounds
  cases expected : form.lower rest with
  | none =>
      obtain ⟨fault, after, failed⟩ := mirrors.1 expected
      exact holds_applyFirst_fault failed ⟨⟨fault, rfl⟩, rfl⟩
  | some given =>
      obtain ⟨outcome, after, done, reported, last⟩ := mirrors.2 given expected
      rcases reported with ⟨rfl, rfl, rfl⟩ | ⟨new, others, rfl, rewrites, yields⟩
      · refine holds_applyFirst_idle done ?_
        rw [last rfl]
        exact ⟨.refl _, rfl, .unchanged expected⟩
      · have stepped := course.rewrites rewrites
        obtain ⟨different, attached⟩ := course.confirms rewrites
        refine holds_applyFirst_acts done (fun impossible => by cases impossible)
          (holds_confirm_replaced different attached ⟨⟨rewrites.options, rewrites.rules⟩, rfl, ?_⟩)
        exact .replaced expected rewrites.fresh rewrites.untagged yields stepped

/-- A control tag is given up. -/
theorem Rounds.control {transform : Transform} {transforms : List Transform} (expected : Option (Form × List Form))
    (course : Course start limit host front (form :: rest) (id :: row) begun context.tree)
    (means : form.lower rest = expected) (isTag : form.kind.tag?.isSome = true) (control : form.kind.isCommon = false)
    (retains : Edit.Retains (transform.apply id)) (mirrors : Edit.Mirrors expected (transform.apply id) context fun given =>
      GivesWay context limit host front id given.1 given.2) :
    Rounds start limit host front form rest id begun state context (transform :: transforms) := by
  refine .mirrored course ?_
  rw [means]
  refine (mirrors.also fun _ after ran => retains _ _ after ran).weaken ?_
  rintro given outcome after ⟨givesWay, kept⟩
  have detached : after.tree.parent id = none := by
    obtain ⟨-, -, -, -, -, detached, -⟩ := givesWay
    exact detached
  obtain ⟨new, row, rfl, rewrites⟩ := givesWay.rewrites
  have present : context.tree.Has id := has_of_parent (course.mem_children List.mem_cons_self).1
  have kind := (shows_iff.1 (List.forall₂_cons.1 course.shown).1).2.1
  refine ⟨.inr ⟨new, row, rfl, rewrites, .of_retains kept rewrites.reaches rewrites.spares present, ?_, fun _ => detached, ?_⟩,
    fun impossible => by cases impossible⟩
  · rw [kind, isTag]
  · rw [kind, control]
    exact fun impossible => by cases impossible

/-- Directives are taken one by one. -/
theorem Rounds.directives (course : Course start limit host front (form :: rest) (id :: row) begun context.tree)
    (common : form.kind.isCommon = true) :
    Rounds start limit host front form rest id begun state context [Control.directives] := by
  have shown := (List.forall₂_cons.1 course.shown).1
  obtain ⟨-, kind, attributes, -⟩ := shows_iff.1 shown
  refine .mirrored course ?_
  rw [Form.lower_of_common common]
  refine .ofMap (((mirrors_lowerDirective course.bench shown).also fun _ after ran => retains_lowerDirective ran).weaken ?_)
  rintro head outcome after ⟨⟨rfl, rfl, rfl⟩ | ⟨new, row, rfl, rewrites⟩, kept⟩
  · exact ⟨.inl ⟨rfl, rfl, rfl⟩, fun _ => rfl⟩
  · refine ⟨.inr ⟨new, row, rfl, rewrites, ?_⟩, fun _ => rfl⟩
    have present : context.tree.Has id := has_of_parent (course.mem_children List.mem_cons_self).1
    obtain ⟨impossible, -⟩ | ⟨name, carried, retains⟩ := kept
    · cases impossible
    · obtain ⟨advance, same, left⟩ := Advance.of_removeAttribute retains rewrites.reaches rewrites.spares present
      refine ⟨advance, ?_, fun control => ?_, fun _ => ⟨same, ?_⟩⟩
      · rw [kind]
        exact Kind.isSome_of_isCommon common
      · rw [kind, common] at control
        cases control
      rw [left, attributes]
      rw [loopHeader?_eq attributes] at carried
      rcases carried with ⟨rfl, header⟩ | ⟨rfl, -, condition⟩
      · obtain ⟨header, found⟩ := Option.isSome_iff_exists.1 header
        exact Form.directives_without_for found
      · rw [Tree.attribute?, attribute?_eq attributes] at condition
        obtain ⟨given, found⟩ := Option.isSome_iff_exists.1 condition
        exact Form.directives_without_if found

/-- A branch tag that is reached comes to nothing. -/
theorem Rounds.stray {transform : Transform} {transforms : List Transform}
    (course : Course start limit host front (form :: rest) (id :: row) begun context.tree)
    (means : form.lower rest = none) (isTag : form.kind.tag?.isSome = true) (control : form.kind.isCommon = false)
    (applies : transform.apply = Conditional.refuseStray) :
    Rounds start limit host front form rest id begun state context (transform :: transforms) := by
  refine .control none course means isTag control ?_ ?_
  · rw [applies]
    exact Edit.retains_tree.bind fun _ => Edit.retains_failAt id _
  · rw [applies]
    exact .step (Edit.run_tree context) (Edit.mirrors_failAt id _)

/-- A tag with an older name gets its modern name. -/
theorem Rounds.older {old : String} (new : String) {transform : Transform} {transforms : List Transform}
    (tagged : form.kind.tag? = some old)
    (older : (old, new) ∈ [("c-if", "if"), ("c-else-if", "else-if"), ("c-else", "else"), ("c-for", "for")])
    (applies : transform.apply = fun id => do
      Edit.changeTree fun tree => tree.setKind id (.element new)
      return Outcome.changed) :
    Rounds start limit host front form rest id begun state context (transform :: transforms) := by
  have modern : Form.modernTag old = new ∧ new ≠ old := by
    simp only [List.mem_cons, Prod.mk.injEq, List.not_mem_nil, or_false] at older
    rcases older with ⟨rfl, rfl⟩ | ⟨rfl, rfl⟩ | ⟨rfl, rfl⟩ | ⟨rfl, rfl⟩ <;> exact ⟨rfl, by decide⟩
  obtain ⟨rfl, different⟩ := modern
  obtain ⟨made, ran⟩ := @run_older id context old _ transform older applies
  exact holds_applyFirst_acts ran (fun impossible => by cases impossible)
    ⟨⟨rfl, rfl⟩, rfl, .changed tagged different made⟩

/-- Control tags are turned into constructs only if they are elements. -/
theorem run_lower_of_plain (plain : elementTag? context.tree id = none) :
    (Conditional.lower id).run context = (.ok .unchanged, context) ∧
      (Iteration.lower id).run context = (.ok .unchanged, context) ∧
        (Comment.lower id).run context = (.ok .unchanged, context) := by
  refine ⟨?_, ?_, ?_⟩
  · unfold Conditional.lower
    rw [Edit.run_bind, Edit.run_tree]
    dsimp only
    rw [plain]
    rfl
  · unfold Iteration.lower
    rw [Edit.run_bind, Edit.run_tree]
    dsimp only
    rw [plain]
    rfl
  · unfold Comment.lower
    rw [Edit.run_bind, Edit.run_tree]
    dsimp only
    rw [plain]
    rfl

/-- A branch tag by itself stands for nothing, be it an element or a custom tag. -/
theorem lower_of_branch {tag : String} (named : form.kind.tag? = some tag) (branch : tag = "else-if" ∨ tag = "else") :
    form.lower rest = none ∧ form.kind.isCommon = false := by
  rcases Kind.eq_of_tag? named with kind | ⟨renderer, kind⟩
  · have tagged : form.tag? = some tag := by rw [Form.tag?, kind]
    rw [Form.lower_element kind, Form.rewrite, tagged, kind]
    rcases branch with rfl | rfl
    · exact ⟨rfl, rfl⟩
    · exact ⟨rfl, rfl⟩
  · rw [Form.lower_customTag kind, kind]
    rcases branch with rfl | rfl
    · exact ⟨rfl, rfl⟩
    · exact ⟨rfl, rfl⟩

/-- An element with the name of a control tag gives way to what it stands for. A custom tag with that name is a common one:
the transform of the tag leaves it alone. -/
theorem Rounds.replacing {tag : String} {transform : Transform} (expected : Option (Form × List Form))
    (course : Course start limit host front (form :: rest) (id :: row) begun context.tree)
    (named : form.kind.tag? = some tag) (control : Kind.isCommon (.element tag) = false)
    (common : ∀ renderer, Kind.isCommon (.customTag tag renderer) = true)
    (means : form.tag? = some tag → form.rewrite rest = expected) (retains : Edit.Retains (transform.apply id))
    (mirrors : form.tag? = some tag → Edit.Mirrors expected (transform.apply id) context fun given =>
      GivesWay context limit host front id given.1 given.2)
    (idle : elementTag? context.tree id = none → (transform.apply id).run context = (.ok .unchanged, context)) :
    Rounds start limit host front form rest id begun state context [transform, Control.directives] := by
  rcases Kind.eq_of_tag? named with kind | ⟨renderer, kind⟩
  · have element : form.tag? = some tag := by rw [Form.tag?, kind]
    refine .control expected course ?_ (by rw [named]; rfl) (by rw [kind, control]) retains (mirrors element)
    rw [Form.lower_element kind, means element]
  · have same := (shows_iff.1 (List.forall₂_cons.1 course.shown).1).2.1
    have plain : elementTag? context.tree id = none := by rw [elementTag?_eq same, Form.tag?, kind]
    exact holds_applyFirst_idle (idle plain) (Rounds.directives course (by rw [kind, common]))

/-- The transforms for entering a node mirror what its form stands for. -/
theorem Rounds.enter (governed : Governed laws context)
    (course : Course start limit host front (form :: rest) (id :: row) begun context.tree) :
    Rounds start limit host front form rest id begun state context
      (transformsFor Registry.core context.tree id .enter) := by
  have shown := (List.forall₂_cons.1 course.shown).1
  have bench := course.bench
  have kind := (shows_iff.1 shown).2.1
  cases tagged : (context.tree.kind id).tag? with
  | none =>
      rw [transformsFor_of_untagged tagged]
      exact ⟨.refl context, rfl, .unchanged (Form.lower_untagged (kind ▸ tagged))⟩
  | some tag =>
      have named : form.kind.tag? = some tag := kind ▸ tagged
      have isTagged : form.kind.tag?.isSome = true := by rw [named]; rfl
      have plain : form.tag? = some tag → form.tag?.isNone = false := fun element => by rw [element]; rfl
      cases found : entryOf tag with
      | none =>
          rcases (transformsFor_core tagged).2 with ⟨-, transforms⟩ | ⟨entry, own, impossible, -⟩
          · rw [transforms]
            exact .directives course (Kind.isCommon_of_unknown named found)
          · rw [found] at impossible
            cases impossible
      | some entry =>
          rw [transformsFor_enter tagged found]
          obtain ⟨known, name⟩ := mem_entries_of_entryOf found
          simp only [entries, List.mem_cons, List.not_mem_nil, or_false] at known
          -- one case for each tag that the core taglib knows
          rcases known with rfl | rfl | rfl | rfl | rfl | rfl | rfl | rfl | rfl
          · obtain rfl : "if" = tag := name
            refine .replacing _ course named rfl (fun _ => rfl) (fun element => by rw [Form.rewrite, element]; rfl)
              (retains_lowerIf id) (fun element => mirrors_lowerIf bench shown element ?_)
              fun alone => (run_lower_of_plain alone).1
            rw [governed.rules]
            rfl
          · obtain rfl : "else-if" = tag := name
            obtain ⟨nothing, control⟩ := @lower_of_branch form rest _ named (.inl rfl)
            exact .stray course nothing isTagged control rfl
          · obtain rfl : "else" = tag := name
            obtain ⟨nothing, control⟩ := @lower_of_branch form rest _ named (.inr rfl)
            exact .stray course nothing isTagged control rfl
          · obtain rfl : "for" = tag := name
            exact .replacing _ course named rfl (fun _ => rfl) (fun element => by rw [Form.rewrite, element]; rfl)
              (retains_lowerFor id) (fun element => .ofMap (mirrors_lowerFor bench shown (plain element)))
              fun alone => (run_lower_of_plain alone).2.1
          · obtain rfl : "html-comment" = tag := name
            exact .replacing _ course named rfl (fun _ => rfl) (fun element => by rw [Form.rewrite, element]; rfl)
              (retains_lowerComment id) (fun element => .ofMap (mirrors_lowerComment bench shown (plain element)))
              fun alone => (run_lower_of_plain alone).2.2
          · obtain rfl : "c-if" = tag := name
            exact .older "if" named (by simp) rfl
          · obtain rfl : "c-else-if" = tag := name
            exact .older "else-if" named (by simp) rfl
          · obtain rfl : "c-else" = tag := name
            exact .older "else" named (by simp) rfl
          · obtain rfl : "c-for" = tag := name
            exact .older "for" named (by simp) rfl

/-! ## Entering -/

variable {outside : NodeId → Prop}

theorem holds_enterOnce_turned (governed : Governed laws context)
    (course : Course start limit host front (form :: rest) (id :: row) begun context.tree)
    (among : ∀ other, begun other → other = id ∨ outside other) :
    Holds (fun halt => IsFault halt ∧ (laws.passes form.kind = true → form.lower rest = none))
      (enterOnce Registry.core id) state context fun result after final =>
        laws.passes form.kind = true ∧ Lawful context final ∧ after.carried = state.carried ∧
          ∃ checked, Remarked id context.tree checked ∧ result.2 = checked.size ∧
            (checked.node id).preserve = ((context.tree.node id).preserve || form.kind.keepsText) ∧
            Course start limit host front (form :: rest) (id :: row) (fun other => other = id ∨ outside other) checked ∧
              Turned start limit host front form rest id (fun other => other = id ∨ outside other) checked result.1
                final.tree := by
  have present : context.tree.Has id := has_of_parent (course.mem_children List.mem_cons_self).1
  have kind := (shows_iff.1 (List.forall₂_cons.1 course.shown).1).2.1
  have entering := remarked_setState context.tree id .entering
  have checks := @holds_checkTag_laws id state { context with tree := context.tree.setState id .entering } laws
    ⟨governed.allows, governed.rules⟩ (entering.shape.has_iff.2 present)
  dsimp only at checks
  rw [entering.shape.kind, kind] at checks
  refine .enterOnce (checks.halting fun halt refused => ⟨refused.1, fun passes => ?_⟩) ?_
  · rw [refused.2] at passes
    cases passes
  rintro after middle ⟨passes, lawful, remarked, carried, -, preserve⟩
  have remarked := entering.trans remarked
  have lawful : Lawful context middle := ⟨lawful.options, lawful.rules⟩
  rw [preserve_setState, entering.shape.kind, kind] at preserve
  have begins := course.start remarked List.mem_cons_self (.inl rfl) among
  refine .runPhase (Meets.weaken (Rounds.enter (governed.lawful lawful) begins)
    (fun halt refused => ⟨refused.1, fun _ => refused.2⟩) ?_)
  rintro outcome last final ⟨later, kept, turned⟩
  exact ⟨passes, lawful.trans later, kept.trans carried, middle.tree, remarked, rfl, preserve, begins, turned⟩

/-! ## Counts -/

theorem Fit.checked (fit : Fit laws first state before) (remarked : Remarked id before after)
    (carried : later.carried = state.carried)
    (preserve : (after.node id).preserve = ((before.node id).preserve || (before.kind id).keepsText)) :
    Fit laws first later after :=
  fit.remarked remarked carried (by rw [preserve, Bool.or_assoc, Bool.or_self])

/-- A node that has got its modern name has not been counted for yet. -/
theorem Fit.rename {old : String} (fit : Fit laws first state before) (grown : first.size ≤ before.size)
    (linked : before.parent id ≠ none) (tagged : (before.kind id).tag? = some old) (older : Form.modernTag old ≠ old)
    (made : before.setKind id (.element (Form.modernTag old)) = .ok after) (passes : Nat) :
    Fit laws first (state.inherit before.size after.size passes) after := by
  have isTag : (before.kind id).tag?.isSome = true := by rw [tagged]; rfl
  have listed := Form.modernTag_ne older
  simp only [List.mem_cons, Prod.mk.injEq, List.not_mem_nil, or_false] at listed
  have control := Form.isCommon_of_older tagged older
  have plain : (before.kind id).keepsText = false := by
    rw [keepsText_of_tag? tagged]
    rcases listed with ⟨rfl, -⟩ | ⟨rfl, -⟩ | ⟨rfl, -⟩ | ⟨rfl, -⟩ <;> rfl
  have present : before.Has id := has_of_tag? tagged
  have reaches : before.Reaches after := .single (.setKind made)
  obtain ⟨-, -, rfl⟩ := setKind_eq_ok_iff.1 made
  have size : (before.update id fun node => { node with kind := .element (Form.modernTag old) }).size = before.size :=
    size_update _ _ _
  have parent : ∀ other, (before.update id fun node => { node with kind := .element (Form.modernTag old) }).parent other =
      before.parent other := fun other => field_update before id other Node.parent fun _ => rfl
  have advance : Advance id before (before.update id fun node => { node with kind := .element (Form.modernTag old) }) := by
    refine ⟨reaches, fun other different _ => by rw [node_update_of_ne different],
      field_update before id id Node.preserve fun _ => rfl, ?_, fun other absent => ?_, fun other absent => ?_,
      fun other _ => by rw [parent]; exact fun linked => linked⟩
    · rw [plain, Tree.kind, node_update_self present, @keepsText_of_tag? _ (.element (Form.modernTag old)) rfl]
      rcases listed with ⟨-, modern⟩ | ⟨-, modern⟩ | ⟨-, modern⟩ | ⟨-, modern⟩ <;> rw [modern] <;> rfl
    · rw [kind_of_not_has fun there => absent ((has_update _ _ _ _).1 there)]
      rfl
    · rw [node_of_not_has fun there => absent ((has_update _ _ _ _).1 there)]
      rfl
  refine fit.advance advance grown (fun other _ there => startOf_inherit_of_lt there) (fun _ => fit.tagged id isTag)
    fun _ _ => .inl ?_
  rw [startOf_inherit_of_lt present]
  refine (fit.affords id linked isTag).resolve_right fun common => ?_
  rw [control] at common
  cases common.1

/-- A node that was given up goes on from the count of its changes. -/
theorem Fit.yield (fit : Fit laws first state before) (grown : first.size ≤ before.size) (yields : Yields id before after)
    (within : left ≤ laws.bound) (passes : Nat)
    (enough : (before.kind id).isCommon = true → Form.directives (before.node id).attributes ≤ left + 1) :
    Fit laws first ((state.inherit before.size after.size passes).carry id (laws.bound - left))
      (after.setState id .unvisited) := by
  refine Fit.setState (fit.advance yields.toAdvance grown (fun other different there => ?_)
    (fun _ => fit.tagged id yields.tagged) fun linked isTag => ?_) id .unvisited
  · rw [startOf_carry_of_ne different, startOf_inherit_of_lt there]
  · rw [startOf_carry_self]
    cases common : (before.kind id).isCommon with
    | false => exact absurd (yields.control common) linked
    | true =>
        obtain ⟨same, fewer⟩ := yields.common common
        have bounded := enough common
        exact .inr ⟨by rw [same, common], by omega⟩

/-! ## Entering until nothing changes -/

/-- A node has been entered: in its place there is a node that shows what its form stands for. -/
def ComesTo (laws : Laws) (first start : Tree) (limit : Nat) (host : NodeId) (front : List NodeId) (form : Form)
    (rest : List Form) (outside : NodeId → Prop) (before : Context) (result : Option (NodeId × Nat)) (after : Progress)
    (final : Context) : Prop :=
  Lawful before final ∧ Fit laws first after final.tree ∧ first.size ≤ final.tree.size ∧
    ∃ new spare head left others, result = some (new, spare) ∧ form.mean laws rest = some (head, left) ∧
      (final.tree.node new).preserve = ((first.node new).preserve || (final.tree.kind new).keepsText) ∧
        Course start limit host front (head :: left) (new :: others) (fun other => other = new ∨ outside other)
          final.tree

theorem demand_of_common (common : form.kind.isCommon = true) : form.demand = Form.directives form.attributes := by
  rw [Form.demand, if_pos common]

/-- A form that may be passed and has not too many directives is allowed. -/
theorem mean_of_lower {given : Form × List Form} (passes : laws.passes form.kind = true)
    (lowers : form.lower rest = some given)
    (bounded : form.kind.isCommon = true → Form.directives form.attributes ≤ laws.bound) :
    form.mean laws rest = some given := by
  refine Form.mean_eq_some_iff.2 ⟨?_, lowers⟩
  rw [Form.isAllowed, passes]
  cases common : form.kind.isCommon with
  | false => rfl
  | true => simpa using bounded common

/-- A round without a change ends at the node itself. -/
theorem comesTo_unchanged {spare : Nat} {final : Context} (fit : Fit laws first state context.tree)
    (grown : first.size ≤ context.tree.size) (passes : laws.passes form.kind = true) (lawful : Lawful context final)
    (remarked : Remarked id context.tree final.tree) (carried : later.carried = state.carried)
    (preserve : (final.tree.node id).preserve = ((context.tree.node id).preserve || form.kind.keepsText))
    (course : Course start limit host front (form :: rest) (id :: row) (fun other => other = id ∨ outside other) final.tree)
    (lowers : form.lower rest = some (form, rest)) :
    ComesTo laws first start limit host front form rest outside context (some (id, spare)) later final := by
  have kind := (shows_iff.1 (List.forall₂_cons.1 course.shown).1).2.1
  have fits := fit.checked remarked carried (by rw [preserve, ← remarked.shape.kind, kind])
  refine ⟨lawful, fits, by rw [remarked.shape.size]; exact grown, id, spare, form, rest, row, rfl,
    mean_of_lower passes lowers fun common => ?_, ?_, course⟩
  · rw [Form.directives_of_lower_self common lowers]
    exact Nat.zero_le laws.bound
  · rw [preserve, remarked.shape.kind, ← kind, remarked.shape.kind, fit.marks]

/-- A form with its modern name is a control tag as well, and asks for one change less. -/
theorem demand_renamed {old : String} (tagged : form.kind.tag? = some old) (older : Form.modernTag old ≠ old) :
    (renamed form (Form.modernTag old)).kind.isCommon = false ∧ form.kind.isCommon = false ∧
      (renamed form (Form.modernTag old)).demand = 1 ∧ form.demand = 2 := by
  have control := Form.isCommon_of_older tagged older
  obtain ⟨known, modern⟩ := Form.modernTag_modernTag older
  have kind : (renamed form (Form.modernTag old)).kind = .element (Form.modernTag old) := rfl
  have common : (Kind.element (Form.modernTag old)).isCommon = false := by
    rw [Kind.isCommon, Option.isNone_eq_false_iff, known]
  refine ⟨common, control, ?_, ?_⟩
  · rw [Form.demand, kind, common]
    simp [Kind.tag?, modern]
  · rw [Form.demand, control, tagged]
    simp [older]

theorem mean_eq_none (refused : laws.passes form.kind = true → form.lower rest = none) : form.mean laws rest = none := by
  rw [Form.mean]
  split
  · next allowed =>
      rw [Form.isAllowed, Bool.and_eq_true] at allowed
      exact refused allowed.1
  · rfl

/-- A node that can be given up for a new one asks for a change. -/
theorem Yields.demand_pos (yields : Yields id before after) (kind : before.kind id = form.kind)
    (attributes : (before.node id).attributes = form.attributes) : 1 ≤ form.demand := by
  have tagged := yields.tagged
  rw [kind] at tagged
  obtain ⟨tag, tagged⟩ := Option.isSome_iff_exists.1 tagged
  cases common : form.kind.isCommon with
  | true =>
      have fewer := (yields.common (by rw [kind, common])).2
      rw [demand_of_common common, ← attributes]
      omega
  | false =>
      rw [Form.demand, common, tagged]
      simp only [Bool.false_eq_true, if_false]
      split <;> omega

/-- A node that is entered becomes what its form stands for. The induction is on the changes that are left to it. -/
theorem holds_enter_turned (governed : Governed laws context) (within : left ≤ laws.bound)
    (fit : Fit laws first state context.tree) (grown : first.size ≤ context.tree.size)
    (course : Course start limit host front (form :: rest) (id :: row) begun context.tree)
    (among : ∀ other, begun other → other = id ∨ outside other)
    (enough : 2 ≤ laws.bound ∨ form.kind.isCommon = true → form.demand ≤ left) :
    Holds (Stopped laws (form.mean laws rest)) (enter Registry.core laws.bound left id) state context fun result after final =>
      ComesTo laws first start limit host front form rest outside context result after final := by
  induction left generalizing state context id form rest row begun with
  | zero =>
      refine .enter_zero (Meets.weaken (holds_enterOnce_turned governed course among)
        (fun halt refused => ⟨refused.1, fun _ => mean_eq_none refused.2⟩) ?_)
      rintro ⟨outcome, size⟩ after final ⟨passes, lawful, carried, checked, remarked, rfl, preserve, begins, turned⟩
      cases turned with
      | unchanged lowers => exact comesTo_unchanged fit grown passes lawful remarked carried preserve begins lowers
      | changed tagged older made =>
          obtain ⟨-, -, -, twice⟩ := demand_renamed tagged older
          exact ⟨⟨_, rfl⟩, fun two => absurd (enough (.inl two)) (by omega)⟩
      | replaced lowers fresh untagged yields next =>
          obtain ⟨-, kind, attributes, -⟩ := shows_iff.1 (List.forall₂_cons.1 begins.shown).1
          have once := yields.demand_pos kind attributes
          exact ⟨⟨_, rfl⟩, fun two => absurd (enough (.inl two)) (by omega)⟩
  | succ left hypothesis =>
      refine .enter_succ (Meets.weaken (holds_enterOnce_turned governed course among)
        (fun halt refused => ⟨refused.1, fun _ => mean_eq_none refused.2⟩) ?_)
      rintro ⟨outcome, size⟩ after final ⟨passes, lawful, carried, checked, remarked, rfl, preserve, begins, turned⟩
      have fits : Fit laws first after checked := fit.checked remarked carried (by
        rw [preserve, ← (shows_iff.1 (List.forall₂_cons.1 course.shown).1).2.1])
      have grownThere : first.size ≤ checked.size := by rw [remarked.shape.size]; exact grown
      obtain ⟨-, kind, attributes, -⟩ := shows_iff.1 (List.forall₂_cons.1 begins.shown).1
      cases turned with
      | unchanged lowers => exact comesTo_unchanged fit grown passes lawful remarked carried preserve begins lowers
      | @changed old _ tagged older made =>
          have same := @Form.mean_renamed form rest laws _ tagged older
          obtain ⟨control, was, once, twice⟩ := demand_renamed tagged older
          have linked := (begins.mem_children List.mem_cons_self).1
          have goesOn : Course start limit host front (renamed form (Form.modernTag old) :: rest) (id :: row)
              (fun other => other = id ∨ outside other) final.tree := begins.setKind made rfl rfl rfl rfl
          have renamed := fits.rename grownThere (by rw [linked]; exact Option.some_ne_none host) (by rw [kind, tagged]) older
            made (laws.bound - left)
          have size : final.tree.size = checked.size := by
            obtain ⟨-, -, made⟩ := setKind_eq_ok_iff.1 made
            rw [made, size_update]
          rw [← same]
          refine (hypothesis (governed.lawful lawful) (Nat.le_of_succ_le within) renamed (by rw [size]; exact grownThere)
            goesOn (fun _ among => among) fun wanted => ?_).weaken ?_
          · rw [control] at wanted
            have two := enough (.inl (wanted.resolve_right Bool.false_ne_true))
            omega
          · rintro result last final ⟨later, fits, grown, new, spare, head, others, row, arrived⟩
            rw [same] at arrived
            exact ⟨lawful.trans later, fits, grown, new, spare, head, others, row, arrived⟩
      | @replaced head others new row _ lowers fresh untagged yields next =>
          have marked := remarked_setState final.tree id .unvisited
          have lawful : Lawful context { final with tree := final.tree.setState id .unvisited } :=
            ⟨lawful.options, lawful.rules⟩
          have bounded : form.kind.isCommon = true → Form.directives form.attributes ≤ left + 1 := fun common => by
            rw [← demand_of_common common]
            exact enough (.inr common)
          have yielded := fits.yield grownThere yields (Nat.le_of_succ_le within) (laws.bound - left) (by
            rw [kind, attributes]
            exact bounded)
          have headUntagged : head.kind.tag? = none := by
            rw [← (shows_iff.1 (List.forall₂_cons.1 next.shown).1).2.1]
            exact untagged
          have bound : form.mean laws rest = some (head, others) :=
            mean_of_lower passes lowers fun common => (bounded common).trans within
          have settles : head.mean laws others = some (head, others) := Form.mean_untagged headUntagged
          have refuses : ∀ halt, Stopped laws (head.mean laws others) halt → Stopped laws (form.mean laws rest) halt :=
            fun _ stopped => stopped.weaken fun none => by cases settles.symm.trans none
          have aside := next.setAside (begins.free List.mem_cons_self)
            (begins.wellFormed.ne_of_beyond (begins.beyond List.mem_cons_self)) fun _ among => among
          have size : checked.size ≤ final.tree.size := (yields.reaches.grows begins.wellFormed).size_le
          refine Meets.weaken (hypothesis (governed.lawful lawful) (Nat.le_of_succ_le within) yielded
            (by rw [marked.shape.size]; exact grownThere.trans size) aside (fun _ among => .inr among)
            fun _ => by rw [Form.demand_untagged headUntagged]; exact Nat.zero_le left) refuses ?_
          rintro result last final ⟨later, fits, grown, arrived, spare, given, remaining, behind, rfl, same, place⟩
          obtain ⟨rfl, rfl⟩ := Prod.mk.inj (Option.some.inj (settles.symm.trans same))
          exact ⟨lawful.trans later, fits, grown, arrived, spare, head, others, behind, rfl, bound, place⟩

end Walk
end HtmlTemplate
