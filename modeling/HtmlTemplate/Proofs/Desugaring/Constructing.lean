import HtmlTemplate.Proofs.Desugaring.Bench
import HtmlTemplate.Proofs.Desugaring.Expansion
import HtmlTemplate.Proofs.Transform

/-!
# Building constructs on a bench

What the steps that transforms of control tags share come to: reading attributes mirrors what is read from
the form, making a construct fails only for its kind, and moving nodes never fails. An edit mirrors an expected
result if it succeeds exactly when there is one, and then does what the result asks for. Mirrors are composed step
by step, like the results themselves.
-/

namespace HtmlTemplate

/-! ## Edits that mirror a meaning -/

variable {α β γ δ : Type}

namespace Edit

/-- The edit fails if nothing is expected, and otherwise does what is good for the expected result. -/
def Mirrors (expected : Option γ) (work : Edit α) (context : Context) (good : γ → α → Context → Prop) : Prop :=
  (expected = none → ∃ fault after, work.run context = (.error fault, after)) ∧
    ∀ result, expected = some result →
      ∃ value after, work.run context = (.ok value, after) ∧ good result value after

variable {context after : Context} {expected : Option γ} {good : γ → α → Context → Prop}

theorem mirrors_none {work : Edit α} {fault : Fault} (fails : work.run context = (.error fault, after)) :
    Mirrors none work context good := by
  refine ⟨fun _ => ⟨fault, after, fails⟩, ?_⟩
  intro result impossible
  cases impossible

theorem mirrors_some {result : γ} {work : Edit α} {value : α} (ran : work.run context = (.ok value, after))
    (meets : good result value after) : Mirrors (some result) work context good := by
  constructor
  · intro impossible
    cases impossible
  · intro other same
    obtain rfl := Option.some.inj same
    exact ⟨value, after, ran, meets⟩

theorem mirrors_pure {result : γ} {value : α} (meets : good result value context) :
    Mirrors (some result) (pure value) context good :=
  mirrors_some (run_pure value context) meets

theorem run_failAt (id : NodeId) (cause : Cause) (context : Context) :
    (failAt id cause : Edit α).run context = (.error (context.tree.faultAt id cause), context) :=
  rfl

theorem mirrors_failAt (id : NodeId) (cause : Cause) : Mirrors none (failAt id cause) context good :=
  mirrors_none (run_failAt id cause context)

theorem Mirrors.weaken {work : Edit α} {other : γ → α → Context → Prop}
    (mirrors : Mirrors expected work context good)
    (ending : ∀ result value after, good result value after → other result value after) :
    Mirrors expected work context other := by
  refine ⟨mirrors.1, fun result same => ?_⟩
  obtain ⟨value, after, ran, meets⟩ := mirrors.2 result same
  exact ⟨value, after, ran, ending result value after meets⟩

/-- A step that succeeds leads to the state that the rest is run in. -/
theorem Mirrors.step {first : Edit β} {next : β → Edit α} {given : β}
    (began : first.run context = (.ok given, after)) (mirrors : Mirrors expected (next given) after good) :
    Mirrors expected (first >>= next) context good := by
  have same : (first >>= next).run context = (next given).run after := by
    rw [run_bind, began]
  unfold Mirrors at mirrors ⊢
  rwa [same]

/-- A step that fails makes the whole edit fail. -/
theorem Mirrors.fails {first : Edit β} {next : β → Edit α} {fault : Fault}
    (fails : first.run context = (.error fault, after)) : Mirrors none (first >>= next) context good := by
  have failed : (first >>= next).run context = (.error fault, after) := by
    rw [run_bind, fails]
  exact mirrors_none failed

theorem Mirrors.bind {first : Edit β} {next : β → Edit α} {between : Option δ} {rest : δ → Option γ}
    {middle : δ → β → Context → Prop} (begins : Mirrors between first context middle)
    (goesOn : ∀ result value after, middle result value after → Mirrors (rest result) (next value) after good) :
    Mirrors (between.bind rest) (first >>= next) context good := by
  cases between with
  | none =>
      obtain ⟨fault, after, failed⟩ := begins.1 rfl
      exact .fails failed
  | some result =>
      obtain ⟨value, after, ran, meets⟩ := begins.2 result rfl
      exact .step ran (goesOn result value after meets)

/-- An edit whose expected result is made from another one. -/
theorem Mirrors.map {work : Edit α} {between : Option δ} {result : δ → γ}
    (mirrors : Mirrors between work context fun given => good (result given)) :
    Mirrors (between.bind fun given => some (result given)) work context good := by
  cases between with
  | none =>
      obtain ⟨fault, after, failed⟩ := mirrors.1 rfl
      exact mirrors_none failed
  | some given =>
      obtain ⟨value, after, ran, meets⟩ := mirrors.2 given rfl
      exact mirrors_some ran meets

theorem Mirrors.ofMap {work : Edit α} {between : Option δ} {result : δ → γ}
    (mirrors : Mirrors between work context fun given => good (result given)) :
    Mirrors (between.map result) work context good := by
  rw [Option.map_eq_bind]
  exact mirrors.map

end Edit

namespace Construct

open HtmlTemplate.Tree

variable {context after : Context} {before : Tree} {host id source target : NodeId}
variable {front row kids : List NodeId} {limit : Nat} {form : Form} {forms : List Form}
variable {expected : Option γ} {good : γ → α → Context → Prop}

/-! ## Reading attributes -/

theorem attribute?_eq (attributes : (context.tree.node id).attributes = form.attributes) (name : String) :
    (context.tree.node id).attribute? name = form.attribute? name := by
  rw [Node.attribute?, attributes, Form.attribute?]

/-- Attributes that are not used are refused. -/
theorem mirrors_requireOnly (attributes : (context.tree.node id).attributes = form.attributes)
    {allowed : List String} {next : Edit α}
    (goesOn : form.hasOnly allowed = true → Edit.Mirrors expected next context good) :
    Edit.Mirrors (if form.hasOnly allowed then expected else none) (requireOnly id allowed >>= fun _ => next)
      context good := by
  cases surplus : form.attributes.find? fun candidate => !allowed.contains candidate.name with
  | some candidate =>
      have refused : form.hasOnly allowed = false := by
        rw [Form.hasOnly, List.all_eq_false]
        refine ⟨candidate, List.mem_of_find?_eq_some surplus, ?_⟩
        simpa using List.find?_some surplus
      have failed : (requireOnly id allowed).run context = (.error (context.tree.faultAt id
          (.surplusAttribute (context.tree.node id).describe candidate.name)), context) := by
        unfold requireOnly
        rw [Edit.run_bind, Edit.run_tree]
        dsimp only
        rw [attributes, surplus]
        rfl
      rw [refused]
      exact .fails failed
  | none =>
      have accepted : form.hasOnly allowed = true := by
        rw [Form.hasOnly, List.all_eq_true]
        intro candidate member
        simpa using List.find?_eq_none.1 surplus candidate member
      have passed : (requireOnly id allowed).run context = (.ok (), context) := by
        unfold requireOnly
        rw [Edit.run_bind, Edit.run_tree]
        dsimp only
        rw [attributes, surplus]
        rfl
      rw [if_pos accepted]
      exact .step passed (goesOn accepted)

/-- Code that has to be there. -/
theorem mirrors_requireCode (attributes : (context.tree.node id).attributes = form.attributes) (name : String) :
    Edit.Mirrors (form.code? name) (requireCode id name) context fun code value after =>
      code = value ∧ context = after := by
  have read : (requireCode id name).run context =
      if (((form.attribute? name).map fun found => found.value.asCode).getD "").isEmpty then
        (.error (context.tree.faultAt id (.missingAttribute (context.tree.node id).describe name)), context)
      else (.ok (((form.attribute? name).map fun found => found.value.asCode).getD ""), context) := by
    unfold requireCode
    rw [Edit.run_bind, Edit.run_tree]
    dsimp only
    rw [attribute?_eq attributes]
    split <;> rfl
  unfold Form.code?
  cases found : form.attribute? name with
  | none =>
      rw [found] at read
      exact Edit.mirrors_none read
  | some given =>
      rw [found] at read
      simp only [Option.map_some, Option.getD_some] at read
      simp only [Option.bind_eq_bind, Option.bind_some]
      split
      · next empty =>
          rw [if_pos empty] at read
          exact Edit.mirrors_none read
      · next filled =>
          rw [if_neg filled] at read
          exact Edit.mirrors_some read ⟨rfl, rfl⟩

/-! ## Making constructs -/

theorem checked_eq_some {kind made : Kind} (passes : Form.checked kind = some made) :
    made = kind ∧ kind.check = .ok () := by
  unfold Form.checked at passes
  split at passes
  · next checked => exact ⟨(Option.some.inj passes).symm, checked⟩
  · cases passes

theorem run_create_of_ok {place : NodeId} {kind : Kind} {value : NodeId} {tree : Tree}
    (created : context.tree.create (context.tree.node place).position kind [] kids = .ok (value, tree)) :
    (create place kind kids).run context = (.ok value, { context with tree }) :=
  Edit.run_makeTree_eq_ok_iff.2 ⟨tree, created, rfl⟩

/-- Making a node without children fails only if no node may be of its kind. -/
theorem mirrors_create (bench : Bench before limit host front forms id row context.tree) (place : NodeId)
    {kind : Kind} (untagged : kind.tag? = none) :
    Edit.Mirrors (Form.checked kind) (create place kind []) context fun made value after =>
      made = kind ∧ after = { context with tree := after.tree } ∧
        Bench before limit host front forms id row after.tree ∧ context.tree.Reaches after.tree ∧
        context.tree.Extends after.tree ∧ ¬context.tree.Has value ∧ after.tree.IsConstruct value kind [] none := by
  constructor
  · intro fails
    have refused : ∃ cause, kind.check = .error cause := by
      unfold Form.checked at fails
      cases checked : kind.check with
      | ok _ =>
          rw [checked] at fails
          cases fails
      | error cause => exact ⟨cause, rfl⟩
    obtain ⟨cause, refused⟩ := refused
    have failed : context.tree.create (context.tree.node place).position kind [] [] =
        .error (context.tree.newFault (context.tree.node place).position cause) := by
      rw [Tree.create, Tree.requireKind, refused]
      rfl
    refine ⟨context.tree.newFault (context.tree.node place).position cause, context, ?_⟩
    unfold create
    rw [Edit.run_makeTree, failed]
  · intro made passes
    obtain ⟨rfl, passes⟩ := checked_eq_some passes
    obtain ⟨tree, created, edited, extension, construct⟩ :=
      exists_create context.tree (context.tree.node place).position passes
    refine ⟨_, { context with tree }, run_create_of_ok created, rfl, rfl, ?_, .single edited, extension, not_has_size,
      construct⟩
    refine bench.grown (.single edited) extension fun other absent => ?_
    refine untagged_of_create created untagged ?_
    rw [kind_of_not_has absent]
    rfl

/-- A conditional is made with its first branch. -/
theorem mirrors_conditional (bench : Bench before limit host front forms id row context.tree) (place : NodeId)
    (test : String) :
    Edit.Mirrors (Form.checked (.branch (some test))) (conditional place test) context fun made value after =>
      made = .branch (some test) ∧ after = { context with tree := after.tree } ∧
        Bench before limit host front forms id row after.tree ∧ context.tree.Extends after.tree ∧
        ¬context.tree.Has value.1 ∧ ¬context.tree.Has value.2 ∧
        after.tree.IsConstruct value.1 .conditional [value.2] none ∧
        after.tree.IsConstruct value.2 (.branch (some test)) [] (some value.1) := by
  unfold conditional
  rw [← Option.bind_fun_some (Form.checked (.branch (some test)))]
  refine (mirrors_create bench place rfl).bind ?_
  rintro made branch middle ⟨rfl, same, known, reaches, extension, absent, construct⟩
  have container : Kind.conditional.isContainer = true := rfl
  obtain ⟨tree, created, edited, outer, inner, keeps⟩ :=
    exists_create_around (middle.tree.node place).position rfl container construct
  refine .step (run_create_of_ok created) (Edit.mirrors_pure ?_)
  have extended := keeps context.tree extension absent
  have fresh : ¬context.tree.Has ⟨middle.tree.size⟩ := fun present => not_has_size (extension.has present)
  refine ⟨rfl, by rw [same], ?_, extended, fresh, absent, outer, inner⟩
  refine bench.grown (reaches.tail edited) extended fun other absent => ?_
  refine untagged_of_create created rfl ?_
  exact known.worked.untagged other fun present => absent (bench.worked.has present)

/-- Making a loop fails only for its header. -/
theorem mirrors_iteration (bench : Bench before limit host front forms id row context.tree) (place : NodeId)
    (header : String) :
    Edit.Mirrors (Form.loop? header) (iteration place header) context fun made value after =>
      made.isContainer = true ∧ after = { context with tree := after.tree } ∧
        Bench before limit host front forms id row after.tree ∧ context.tree.Extends after.tree ∧
        ¬context.tree.Has value ∧ after.tree.IsConstruct value made [] none := by
  unfold iteration Form.loop?
  cases LoopHeader.parse? header with
  | none => exact Edit.mirrors_failAt place (.loopHeader header)
  | some loop =>
      refine (mirrors_create bench place rfl).weaken ?_
      rintro made value after ⟨rfl, same, known, -, extension, absent, construct⟩
      exact ⟨rfl, same, known, extension, absent, construct⟩

/-! ## Moving nodes -/

theorem run_append (wellFormed : context.tree.WellFormed) {parent child : NodeId} (hasParent : context.tree.Has parent)
    (hasChild : context.tree.Has child) (container : (context.tree.kind parent).isContainer = true)
    (detached : context.tree.parent child = none) (apart : ¬context.tree.OnPath child parent) :
    ∃ tree, (append parent child).run context = (.ok (), { context with tree }) ∧ context.tree.Edited tree ∧
      context.tree.Relinked [parent] [child] tree ∧
      tree.children parent = context.tree.children parent ++ [child] := by
  obtain ⟨tree, made, edited, relinked, children⟩ :=
    exists_append wellFormed hasParent hasChild container detached apart
  exact ⟨tree, Edit.run_changeTree_eq_ok_iff.2 ⟨tree, made, rfl⟩, edited, relinked, children⟩

/-- Detached nodes that are not above their new parent are appended in order. -/
theorem run_appendAll (wellFormed : context.tree.WellFormed) (hasTarget : context.tree.Has target)
    (container : (context.tree.kind target).isContainer = true) (distinct : kids.Nodup)
    (loose : ∀ kid ∈ kids, context.tree.Has kid ∧ context.tree.parent kid = none ∧ ¬context.tree.OnPath kid target) :
    ∃ tree, (appendAll target kids).run context = (.ok (), { context with tree }) ∧ context.tree.Reaches tree ∧
      context.tree.Relinked [target] kids tree ∧ tree.children target = context.tree.children target ++ kids := by
  induction kids generalizing context with
  | nil => exact ⟨context.tree, rfl, .refl, .refl _ _ _, (List.append_nil _).symm⟩
  | cons kid kids hypothesis =>
      obtain ⟨hasKid, detached, apart⟩ := loose kid List.mem_cons_self
      obtain ⟨middle, ran, edited, relinked, children⟩ :=
        run_append wellFormed hasTarget hasKid container detached apart
      have others : ∀ other ∈ kids,
          middle.Has other ∧ middle.parent other = none ∧ ¬middle.OnPath other target := by
        intro other member
        obtain ⟨hasOther, free, outside⟩ := loose other (List.mem_cons_of_mem kid member)
        have different : other ∉ [kid] := by
          rw [List.mem_singleton]
          rintro rfl
          exact (List.nodup_cons.1 distinct).1 member
        refine ⟨relinked.has_iff.2 hasOther, ?_, fun above => outside (relinked.onPath ?_ above)⟩
        · rw [relinked.parent_eq different, free]
        · intro moved among
          rw [List.mem_singleton.1 among]
          exact apart
      obtain ⟨tree, rest, reaches, moved, listed⟩ := @hypothesis { context with tree := middle }
        (edited.wellFormed wellFormed) (relinked.has_iff.2 hasTarget) (by rw [relinked.kind, container])
        (List.nodup_cons.1 distinct).2 others
      refine ⟨tree, ?_, .head edited reaches, ?_, ?_⟩
      · unfold appendAll at rest ⊢
        rw [List.forM_eq_forM, List.forM_cons] 
        exact Edit.run_bind_eq_ok_iff.2 ⟨(), _, ran, rest⟩
      · refine (relinked.mono (List.Subset.refl _) ?_).trans (moved.mono (List.Subset.refl _) ?_)
        · exact List.cons_subset_cons kid (List.nil_subset kids)
        · exact List.subset_cons_self kid kids
      · rw [listed, children, List.append_assoc]
        rfl

/-- All children of a node are moved behind those of another one. -/
theorem run_moveChildren (wellFormed : context.tree.WellFormed) (hasTarget : context.tree.Has target)
    (container : (context.tree.kind target).isContainer = true) (different : source ≠ target)
    (apart : ∀ kid ∈ context.tree.children source, ¬context.tree.OnPath kid target) :
    ∃ tree, (moveChildren source target).run context = (.ok (), { context with tree }) ∧
      context.tree.Reaches tree ∧ context.tree.Relinked [source, target] (context.tree.children source) tree ∧
      tree.children source = [] ∧
      tree.children target = context.tree.children target ++ context.tree.children source := by
  obtain ⟨taken, empty⟩ := relinked_takeChildren context.tree source
  have sound : (context.tree.takeChildren source).2.WellFormed :=
    (Edited.takeChildren source).wellFormed wellFormed
  obtain ⟨tree, ran, reaches, moved, listed⟩ := @run_appendAll
    { context with tree := (context.tree.takeChildren source).2 } target (context.tree.children source) sound
    (taken.has_iff.2 hasTarget) (by rw [taken.kind, container]) (wellFormed.nodup source) (by
      intro kid member
      refine ⟨taken.has_iff.2 (wellFormed.has_child member), wellFormed.parent_takeChildren member, ?_⟩
      exact fun above => apart kid member (taken.onPath (fun other among => apart other among) above))
  refine ⟨tree, ?_, .head (.takeChildren source) reaches, ?_, ?_, ?_⟩
  · unfold moveChildren
    exact Edit.run_bind_eq_ok_iff.2 ⟨_, _, rfl, ran⟩
  · refine (taken.mono ?_ (List.Subset.refl _)).trans (moved.mono ?_ (List.Subset.refl _))
    · simp
    · simp
  · rw [moved.children source, empty]
    simpa using different
  · rw [listed, taken.children target]
    simpa using different.symm

/-- A free node without a parent takes the place of the node on the bench. -/
theorem run_replace {new : NodeId} (bench : Bench before limit host front forms id row context.tree)
    (hasNew : context.tree.Has new) (detached : context.tree.parent new = none) (free : before.Free host front new) :
    ∃ tree, (replace id new).run context = (.ok (.replaced new), { context with tree }) ∧
      Bench before limit host front forms new row tree ∧ context.tree.Relinked [host] [id, new] tree ∧
      tree.parent id = none ∧ tree.parent new = some host := by
  have linked := (bench.mem_children List.mem_cons_self).1
  have apart := bench.not_above free
  obtain ⟨tree, made, edited, relinked, listed, gone, there⟩ :=
    exists_replace bench.wellFormed bench.listed hasNew detached apart
  refine ⟨tree, ?_, ⟨bench.sound, bench.bounded, bench.present, ?_, listed, ?_⟩, relinked, gone, there⟩
  · unfold replace
    rw [Edit.run_bind, Edit.run_tree]
    dsimp only
    rw [linked]
    exact Edit.run_bind_eq_ok_iff.2 ⟨(), _, Edit.run_changeTree_eq_ok_iff.2 ⟨tree, made, rfl⟩, rfl⟩
  · refine bench.worked.relinked bench.sound bench.present (.single edited) relinked ?_ ?_
    · intro owner member
      exact .inl (List.mem_singleton.1 member)
    · intro other member
      rcases List.mem_cons.1 member with rfl | member
      · exact bench.free List.mem_cons_self
      · rw [List.mem_singleton.1 member]
        exact free
  · refine forall₂_imp_of_mem bench.others fun form _ other member shown => ?_
    refine relinked.shows bench.wellFormed (fun owner among => ?_) shown
    rw [List.mem_singleton.1 among]
    exact bench.not_above (bench.free (List.mem_cons_of_mem id member))

end Construct
end HtmlTemplate
