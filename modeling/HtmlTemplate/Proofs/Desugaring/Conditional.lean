import HtmlTemplate.Proofs.Desugaring.Lowering
import HtmlTemplate.Proofs.Placement.Demand

/-!
# Conditionals

The transform of `<if>` mirrors what the tag stands for. The branch tags inside of it and behind it hang loose
until they have become branches of the conditional.
-/

namespace HtmlTemplate
namespace Construct

open HtmlTemplate.Tree

variable {context after : Context} {before : Tree} {host id conditional : NodeId} {ids : List NodeId}
variable {front row : List NodeId} {limit : Nat} {form head : Form} {forms below rest left tags : List Form}

/-! ## Branch tags -/

/-- The rules by which tags become branches of an `<if>`. -/
def ifNesting : Nesting :=
  { merge := SortedMap.ofList (Control.branchTags.map fun tag => (tag, .branch)) }

theorem mem_branchTags_iff (tag : String) :
    tag ∈ Control.branchTags ↔ Form.modernTag tag = "else-if" ∨ Form.modernTag tag = "else" := by
  constructor
  · intro known
    simp only [Control.branchTags, List.mem_cons, List.not_mem_nil, or_false] at known
    rcases known with rfl | rfl | rfl | rfl
    · exact .inl rfl
    · exact .inr rfl
    · exact .inl rfl
    · exact .inr rfl
  · unfold Form.modernTag
    split <;> simp_all [Control.branchTags]

theorem ruleFor_ifNesting (tag : String) :
    (ifNesting.ruleFor tag == .branch) = (Form.modernTag tag == "else-if" || Form.modernTag tag == "else") := by
  by_cases known : tag ∈ Control.branchTags
  · simp only [Control.branchTags, List.mem_cons, List.not_mem_nil, or_false] at known
    rcases known with rfl | rfl | rfl | rfl <;> rfl
  · have absent : (Control.branchTags.map fun tag => (tag, MergeRule.branch)).lookup tag = none := by
      refine List.lookup_eq_none_iff.2 fun entry member => ?_
      obtain ⟨other, among, rfl⟩ := List.mem_map.1 member
      have apart : tag ≠ other := fun same => known (same ▸ among)
      simpa using apart
    have rule : ifNesting.ruleFor tag = .keep := by
      rw [Nesting.ruleFor, ifNesting, SortedMap.find?_ofList (by decide), absent]
      rfl
    rw [mem_branchTags_iff, not_or] at known
    rw [beq_eq_false_iff_ne.2 known.1, beq_eq_false_iff_ne.2 known.2]
    exact congrArg (fun found => found == MergeRule.branch) rule

theorem isBranch_eq {tree : Tree} (kind : tree.kind id = form.kind) :
    Conditional.isBranch ifNesting tree id = form.isBranch := by
  rw [Conditional.isBranch, elementTag?_eq kind, Form.isBranch, Form.isTested]
  cases form.tag? with
  | none => rfl
  | some tag => exact ruleFor_ifNesting tag

theorem isBlankText_eq {tree : Tree} (kind : tree.kind id = form.kind) :
    (tree.node id).isBlankText = form.isBlank := by
  have same : (tree.node id).kind = form.kind := kind
  unfold Node.isBlankText Form.isBlank
  generalize (tree.node id).kind = found at same
  subst same
  cases form.kind <;> rfl

/-! ## Branch tags behind the tag -/

/-- The sibling behind the node on the bench is taken from the host. -/
theorem run_detachNext {sibling : NodeId} (bench : Bench before limit host front (form :: forms) id (sibling :: row) context.tree) :
    ∃ tree, (detach sibling).run context = (.ok (), { context with tree }) ∧
      Bench before limit host front forms id row tree ∧ context.tree.Relinked [host] [sibling] tree ∧
      Stray before limit host front tree form sibling := by
  have listed : context.tree.children host = (front ++ [id]) ++ sibling :: row := by
    rw [bench.listed, List.append_assoc]
    rfl
  have free := bench.free (List.mem_cons_of_mem id List.mem_cons_self)
  obtain ⟨tree, made, edited, relinked, children, gone⟩ := exists_detach bench.wellFormed listed
  have shows : ∀ {form : Form} {other : NodeId}, other ∈ sibling :: row → context.tree.Shows limit form other →
      tree.Shows limit form other := by
    intro form other member shown
    refine relinked.shows bench.wellFormed (fun owner among => ?_) shown
    rw [List.mem_singleton.1 among]
    exact bench.not_above (bench.free (List.mem_cons_of_mem id member))
  obtain ⟨shown, others⟩ := List.forall₂_cons.1 bench.others
  have linked := (bench.mem_children (List.mem_cons_of_mem id List.mem_cons_self)).1
  refine ⟨tree, Edit.run_changeTree_eq_ok_iff.2 ⟨tree, made, rfl⟩,
    ⟨bench.sound, bench.bounded, bench.present, ?_, ?_, ?_⟩, relinked,
    ⟨relinked.has_iff.2 (has_of_parent linked), gone, shows List.mem_cons_self shown, free⟩⟩
  · refine bench.worked.relinked bench.sound bench.present (.single edited) relinked ?_ ?_
    · exact fun owner member => .inl (List.mem_singleton.1 member)
    · intro other member
      rw [List.mem_singleton.1 member]
      exact free
  · rw [children, List.append_assoc]
    rfl
  · exact forall₂_imp_of_mem others fun form _ other member shown => shows (List.mem_cons_of_mem sibling member) shown

/-- What the branch tags behind the tag are, when they are taken from the host. -/
structure Taken (before : Tree) (limit : Nat) (host : NodeId) (front : List NodeId) (id : NodeId) (start : Tree)
    (row : List NodeId) (tags left : List Form) (ids : List NodeId) (tree : Tree) : Prop where
  rest : ∃ row, Bench before limit host front left id row tree
  strays : List.Forall₂ (Stray before limit host front tree) tags ids
  within : ids ⊆ row
  distinct : ids.Nodup
  relinked : ∃ moved, moved ⊆ row ∧ start.Relinked [host] moved tree

theorem run_takeFollowing (bench : Bench before limit host front forms id row context.tree) :
    ∃ ids tree, (Conditional.takeFollowing ifNesting row).run context = (.ok ids, { context with tree }) ∧
      Taken before limit host front id context.tree row (Form.takeFollowing forms).1 (Form.takeFollowing forms).2 ids tree := by
  induction row generalizing context forms with
  | nil =>
      obtain rfl := List.forall₂_nil_right_iff.1 bench.others
      exact ⟨[], context.tree, rfl, ⟨[], bench⟩, .nil, List.Subset.refl _, List.nodup_nil, [], List.Subset.refl _, .refl _ _ _⟩
  | cons sibling row hypothesis =>
      obtain ⟨form, rest, shown, others, rfl⟩ := List.forall₂_cons_right_iff.1 bench.others
      have kind := (shows_iff.1 shown).2.1
      obtain ⟨tree, ran, ready, detaching, stray⟩ := run_detachNext bench
      obtain ⟨ids, last, ranRest, taken⟩ := @hypothesis { context with tree } rest ready
      have stays : Taken before limit host front id context.tree (sibling :: row) [] (form :: rest) [] context.tree :=
        ⟨⟨_, bench⟩, .nil, List.nil_subset _, List.nodup_nil, [], List.nil_subset _, .refl _ _ _⟩
      have nextBranch : (row.head?.map (Conditional.isBranch ifNesting context.tree)).getD false = rest.head?.any Form.isBranch := by
        cases others with
        | nil => rfl
        | cons shown _ => exact isBranch_eq (shows_iff.1 shown).2.1
      have distinct := bench.wellFormed.nodup host
      rw [bench.listed] at distinct
      have notLater := (List.nodup_cons.1 (List.nodup_cons.1 distinct.of_append_right).2).1
      obtain ⟨moved, within, further⟩ := taken.relinked
      have relinked : ∃ moved, moved ⊆ sibling :: row ∧ context.tree.Relinked [host] moved last :=
        ⟨sibling :: moved, List.cons_subset_cons sibling within,
          (detaching.mono (List.Subset.refl _) (by simp)).trans
            (further.mono (List.Subset.refl _) (List.subset_cons_self sibling moved))⟩
      unfold Conditional.takeFollowing Form.takeFollowing
      by_cases blank : form.isBlank = true
      · by_cases follows : rest.head?.any Form.isBranch = true
        · refine ⟨ids, last, Edit.run_bind_eq_ok_iff.2 ⟨_, _, Edit.run_tree _, ?_⟩, ?_⟩
          · rw [isBlankText_eq kind, if_pos blank, nextBranch, if_pos follows]
            exact Edit.run_bind_eq_ok_iff.2 ⟨(), _, ran, ranRest⟩
          · rw [if_pos blank, if_pos follows]
            exact ⟨taken.rest, taken.strays, fun _ member => List.mem_cons_of_mem sibling (taken.within member),
              taken.distinct, relinked⟩
        · refine ⟨[], context.tree, Edit.run_bind_eq_ok_iff.2 ⟨_, _, Edit.run_tree _, ?_⟩, ?_⟩
          · rw [isBlankText_eq kind, if_pos blank, nextBranch, if_neg follows]
            rfl
          · rw [if_pos blank, if_neg follows]
            exact stays
      · by_cases branch : form.isBranch = true
        · refine ⟨sibling :: ids, last, Edit.run_bind_eq_ok_iff.2 ⟨_, _, Edit.run_tree _, ?_⟩, ?_⟩
          · rw [isBlankText_eq kind, if_neg blank, isBranch_eq kind, if_pos branch]
            exact Edit.run_bind_eq_ok_iff.2 ⟨(), _, ran, Edit.run_bind_eq_ok_iff.2 ⟨ids, _, ranRest, rfl⟩⟩
          · rw [if_neg blank, if_pos branch]
            refine ⟨taken.rest, .cons ?_ taken.strays, List.cons_subset_cons sibling taken.within,
              List.nodup_cons.2 ⟨fun member => notLater (taken.within member), taken.distinct⟩, relinked⟩
            refine stray.relinked ready.wellFormed further (fun owner member => ?_) fun member => notLater (within member)
            rw [List.mem_singleton.1 member]
            exact ready.not_above stray.free
        · refine ⟨[], context.tree, Edit.run_bind_eq_ok_iff.2 ⟨_, _, Edit.run_tree _, ?_⟩, ?_⟩
          · rw [isBlankText_eq kind, if_neg blank, isBranch_eq kind, if_neg branch]
            rfl
          · rw [if_neg blank, if_neg branch]
            exact stays

/-! ## Branches -/

theorem isTested_eq (branch : form.isBranch = true) : Conditional.isTested (form.tag?.getD "") = form.isTested := by
  rw [Form.isBranch, Form.isTested] at branch
  rw [Form.isTested]
  cases tagged : form.tag? with
  | none =>
      rw [tagged] at branch
      cases branch
  | some tag =>
      rw [tagged] at branch
      have known : tag ∈ Control.branchTags := by
        rw [mem_branchTags_iff]
        simpa using branch
      simp only [Control.branchTags, List.mem_cons, List.not_mem_nil, or_false] at known
      rcases known with rfl | rfl | rfl | rfl <;> decide +kernel

theorem exists_element_of_isBranch (branch : form.isBranch = true) : ∃ tag, form.kind = .element tag := by
  rw [Form.isBranch, Form.isTested, Form.tag?] at branch
  cases kind : form.kind with
  | element tag => exact ⟨tag, rfl⟩
  | _ =>
      rw [kind] at branch
      cases branch

theorem run_warnDeprecated (id : NodeId) (tag : String) :
    ∃ diagnostics, (Conditional.warnDeprecated id tag).run context = (.ok (), { context with diagnostics }) := by
  have got : (get : Edit Context).run context = (.ok context, context) := rfl
  refine ⟨((Conditional.warnDeprecated id tag).run context).2.diagnostics, ?_⟩
  unfold Conditional.warnDeprecated
  rw [Edit.run_bind, got]
  dsimp only
  cases (context.rules tag).bind TagRules.deprecated <;> rfl

theorem mirrors_readTest (attributes : (context.tree.node id).attributes = form.attributes) {tag : String}
    (named : Conditional.isTested tag = form.isTested) :
    Edit.Mirrors form.test? (Conditional.readTest id tag) context fun test value after =>
      test = value ∧ context = after := by
  unfold Conditional.readTest Form.test?
  rw [named]
  by_cases tested : form.isTested = true
  · rw [if_pos tested, if_pos tested]
    refine mirrors_requireOnly attributes fun _ => ?_
    rw [Option.map_eq_bind]
    refine (mirrors_requireCode attributes "test").bind ?_
    rintro code _ _ ⟨rfl, rfl⟩
    exact Edit.mirrors_pure ⟨rfl, rfl⟩
  · rw [if_neg tested, if_neg tested]
    exact mirrors_requireOnly attributes fun _ => Edit.mirrors_pure ⟨rfl, rfl⟩

/-- What is below a tag is moved into a new branch, and the branch behind those of the conditional. All else that hangs
loose stays as it is. -/
theorem run_addBranch {tag branch : NodeId} {test : Option String}
    (bench : Bench before limit host front forms id row context.tree)
    (construct : context.tree.IsConstruct branch (.branch test) [] none) (fresh : ¬before.Has branch)
    (loose : Stray before limit host front context.tree form tag) (different : tag ≠ branch)
    (stray : Stray before limit host front context.tree (Form.construct .conditional below) conditional)
    (new : ¬before.Has conditional) (tagApart : tag ≠ conditional) (branchApart : branch ≠ conditional) :
    ∃ filled last, (moveChildren tag branch).run context = (.ok (), { context with tree := filled }) ∧
      (append conditional branch).run { context with tree := filled } = (.ok (), { context with tree := last }) ∧
      Bench before limit host front forms id row last ∧
      Stray before limit host front last
        (Form.construct .conditional (below ++ [Form.construct (.branch test) form.children])) conditional ∧
      ∀ {shape : Form} {other : NodeId}, Stray before limit host front context.tree shape other → other ≠ tag →
        other ≠ branch → other ≠ conditional → Stray before limit host front last shape other := by
  have wellFormed := bench.wellFormed
  have free : before.Free host front branch := fun present => absurd present fresh
  have freeConditional : before.Free host front conditional := fun present => absurd present new
  have attached : ∀ {node}, context.tree.parent node = none → node ∉ context.tree.children tag := by
    intro node detached member
    cases detached.symm.trans ((wellFormed.linked tag node).1 member)
  obtain ⟨filled, ran, tended, relinked, shown⟩ := run_fill bench
    ⟨loose.free, .inr (bench.loose loose.detached loose.free .self).2⟩
    ⟨free, .inr (bench.loose construct.parent free .self).2⟩ construct.present (by rw [construct.kind]; rfl) different
    construct.children (fun kid member above => by
      obtain rfl := onPath_of_root construct.parent above
      exact attached construct.parent member) (shows_iff.1 loose.shown).2.2.2
  have stays : ∀ {shape : Form} {other : NodeId}, Stray before limit host front context.tree shape other → other ≠ tag →
      other ≠ branch → Stray before limit host front filled shape other := by
    intro shape other stray notTag notBranch
    refine stray.relinked wellFormed relinked (fun owner member above => ?_) (attached stray.detached)
    rcases List.mem_cons.1 member with rfl | member
    · exact notTag (onPath_of_root loose.detached above)
    · rw [List.mem_singleton.1 member] at above
      exact notBranch (onPath_of_root construct.parent above)
  have stray := stays stray tagApart.symm branchApart.symm
  have strayBranch : Stray before limit host front filled (Form.construct (.branch test) form.children) branch :=
    ⟨relinked.has_iff.2 construct.present, (relinked.parent_eq (attached construct.parent)).trans construct.parent,
      tended.shows_construct fresh ((relinked.kind branch).trans construct.kind)
        ((relinked.attributes branch).trans construct.attributes) shown, free⟩
  obtain ⟨-, kind, attributes, branchesShown⟩ := shows_iff.1 stray.shown
  obtain ⟨last, adopted, final, linked, shownAll⟩ := @run_adopt { context with tree := filled } _ _ _ _ _ _ _ _ _
    conditional branch tended ⟨freeConditional, .inr (tended.loose stray.detached freeConditional .self).2⟩
    stray.present (by rw [kind]; rfl) strayBranch
    (fun above => branchApart (onPath_of_root stray.detached above)) branchesShown
  refine ⟨filled, last, ran, adopted, final, ⟨linked.has_iff.2 stray.present,
    (linked.parent_eq (by simpa using branchApart.symm)).trans stray.detached,
    final.shows_construct new ((linked.kind conditional).trans kind) ((linked.attributes conditional).trans attributes) shownAll,
    freeConditional⟩, fun other notTag notBranch notConditional => ?_⟩
  refine (stays other notTag notBranch).relinked tended.wellFormed linked (fun owner member above => ?_) (by simpa using notBranch)
  rw [List.mem_singleton.1 member] at above
  exact notConditional (onPath_of_root stray.detached above)

/-- Branch tags that hang loose become branches of the conditional. The induction is on the tags. -/
theorem mirrors_addBranches {closed : Bool} (bench : Bench before limit host front forms id row context.tree)
    (stray : Stray before limit host front context.tree (Form.construct .conditional below) conditional)
    (new : ¬before.Has conditional) (strays : List.Forall₂ (Stray before limit host front context.tree) tags ids)
    (distinct : ids.Nodup) (allBranches : ∀ tag ∈ tags, tag.isBranch = true) :
    Edit.Mirrors (Form.branches closed tags) (Conditional.addBranches conditional closed ids) context fun made _ after =>
      after.options = context.options ∧ after.rules = context.rules ∧ Bench before limit host front forms id row after.tree ∧
        Stray before limit host front after.tree (Form.construct .conditional (below ++ made)) conditional := by
  induction ids generalizing context tags below closed with
  | nil =>
      obtain rfl := List.forall₂_nil_right_iff.1 strays
      have none : Form.branches closed [] = some [] := by cases closed <;> rfl
      rw [none]
      exact Edit.mirrors_pure ⟨rfl, rfl, bench, by rwa [List.append_nil]⟩
  | cons tag ids hypothesis =>
      have apart : List.Forall₂ (fun form other => Stray before limit host front context.tree form other ∧ other ≠ conditional)
          tags (tag :: ids) := by
        refine forall₂_imp_of_mem strays fun form member other _ loose => ⟨loose, ?_⟩
        rintro rfl
        obtain ⟨name, element⟩ := exists_element_of_isBranch (allBranches form member)
        have kind := (shows_iff.1 loose.shown).2.1
        cases ((shows_iff.1 stray.shown).2.1.symm.trans kind).trans element
      obtain ⟨form, rest, ⟨loose, tagApart⟩, others, rfl⟩ := List.forall₂_cons_right_iff.1 apart
      unfold Conditional.addBranches
      refine .step (Edit.run_tree context) ?_
      cases closed with
      | true => exact Edit.mirrors_failAt tag _
      | false =>
          obtain ⟨-, kind, attributes, -⟩ := shows_iff.1 loose.shown
          dsimp only
          rw [elementTag?_eq kind, if_neg (by decide)]
          obtain ⟨diagnostics, warned⟩ := @run_warnDeprecated context tag (form.tag?.getD "")
          refine .step warned ?_
          unfold Form.branches
          simp only [Option.bind_eq_bind]
          refine (@mirrors_readTest { context with diagnostics } tag form attributes _
            (isTested_eq (allBranches form List.mem_cons_self))).bind ?_
          rintro test _ _ ⟨rfl, rfl⟩
          refine (@mirrors_create { context with diagnostics } _ _ _ _ _ _ _ bench tag (.branch test) rfl).bind ?_
          rintro made branch middle ⟨rfl, same, ready, -, extension, absent, construct⟩
          have wellFormed := bench.wellFormed
          obtain ⟨filled, last, ran, adopted, final, whole, stays⟩ := run_addBranch ready construct
            (fun present => absent (bench.worked.has present)) (loose.grown wellFormed extension)
            (fun same => absent (same ▸ loose.present)) (stray.grown wellFormed extension) new tagApart
            fun same => absent (same ▸ stray.present)
          have others : List.Forall₂ (Stray before limit host front last) rest ids := by
            refine forall₂_imp_of_mem others fun form _ other member loose => ?_
            refine stays (loose.1.grown wellFormed extension) (fun same => ?_) (fun same => ?_) loose.2
            · exact (List.nodup_cons.1 distinct).1 (same ▸ member)
            · exact absent (same ▸ loose.1.present)
          refine .step ran (.step adopted (Edit.Mirrors.map ((@hypothesis { middle with tree := last } _ _ _ final whole others
            (List.nodup_cons.1 distinct).2 fun other member => allBranches other (List.mem_cons_of_mem form member)).weaken ?_)))
          rintro made _ after ⟨options, rules, known, grown⟩
          refine ⟨options.trans (by rw [same]), rules.trans (by rw [same]), known, ?_⟩
          rwa [List.append_assoc] at grown

/-! ## The tag -/

theorem forall₂_filter {α β : Type} {related : α → β → Prop} {left : List α} {right : List β} {keep : α → Bool} {holds : β → Bool}
    (all : List.Forall₂ related left right) (agree : ∀ one other, related one other → keep one = holds other) :
    List.Forall₂ related (left.filter keep) (right.filter holds) := by
  induction all with
  | nil => exact .nil
  | @cons one other _ _ first _ hypothesis =>
      rw [List.filter_cons, List.filter_cons, agree one other first]
      split
      · exact .cons first hypothesis
      · exact hypothesis

theorem isBranch_of_mem_takeFollowing (member : form ∈ (Form.takeFollowing forms).1) : form.isBranch = true := by
  induction forms with
  | nil => cases member
  | cons sibling rest hypothesis =>
      unfold Form.takeFollowing at member
      split at member
      · split at member
        · exact hypothesis member
        · cases member
      · split at member
        · next branch =>
            rcases List.mem_cons.1 member with rfl | later
            · exact branch
            · exact hypothesis later
        · cases member

theorem exists_of_mem_right {α β : Type} {related : α → β → Prop} {left : List α} {right : List β} {other : β}
    (all : List.Forall₂ related left right) (member : other ∈ right) : ∃ one ∈ left, related one other := by
  induction all with
  | nil => cases member
  | @cons one first left _ head _ hypothesis =>
      rcases List.mem_cons.1 member with rfl | later
      · exact ⟨one, List.mem_cons_self, head⟩
      · obtain ⟨found, among, holds⟩ := hypothesis later
        exact ⟨found, List.mem_cons_of_mem one among, holds⟩

/-- Free nodes without parents become the children of an empty container. -/
theorem run_adoptAll {parent : NodeId} (bench : Bench before limit host front forms id row context.tree)
    (owned : before.Free host front parent ∧ (context.tree.OnPath id parent ∨ ¬context.tree.OnPath host parent))
    (hasParent : context.tree.Has parent) (container : (context.tree.kind parent).isContainer = true)
    (strays : List.Forall₂ (Stray before limit host front context.tree) below ids) (distinct : ids.Nodup)
    (apart : ∀ kid ∈ ids, ¬context.tree.OnPath kid parent) (empty : context.tree.children parent = []) :
    ∃ tree, (appendAll parent ids).run context = (.ok (), { context with tree }) ∧
      Bench before limit host front forms id row tree ∧ context.tree.Relinked [parent] ids tree ∧
      List.Forall₂ (tree.Shows limit) below (tree.children parent) := by
  have wellFormed := bench.wellFormed
  have stray : ∀ kid ∈ ids, ∃ form, Stray before limit host front context.tree form kid := fun kid member =>
    (exists_of_mem_right strays member).imp fun _ => And.right
  obtain ⟨tree, ran, reaches, relinked, children⟩ := run_appendAll wellFormed hasParent container distinct (by
    intro kid member
    obtain ⟨form, loose⟩ := stray kid member
    exact ⟨loose.present, loose.detached, apart kid member⟩)
  refine ⟨tree, ran, bench.relinked reaches relinked ?_ ?_, relinked, ?_⟩
  · intro owner member
    rw [List.mem_singleton.1 member]
    exact owned
  · intro kid member
    obtain ⟨form, loose⟩ := stray kid member
    exact loose.free
  · rw [children, empty, List.nil_append]
    refine forall₂_imp_of_mem strays fun form _ kid member loose => ?_
    refine relinked.shows wellFormed (fun owner among => ?_) loose.shown
    rw [List.mem_singleton.1 among]
    exact apart kid member

/-- The children of the node on the bench hang loose. -/
theorem run_takeChildren (bench : Bench before limit host front forms id row context.tree)
    (contents : List.Forall₂ (context.tree.Shows limit) below (context.tree.children id)) :
    ∃ tree, (Edit.takeTree fun tree => tree.takeChildren id).run context =
        (.ok (context.tree.children id), { context with tree }) ∧
      Bench before limit host front forms id row tree ∧ context.tree.Relinked [id] (context.tree.children id) tree ∧
      List.Forall₂ (Stray before limit host front tree) below (context.tree.children id) := by
  have wellFormed := bench.wellFormed
  have freeId := bench.free List.mem_cons_self
  obtain ⟨relinked, -⟩ := relinked_takeChildren context.tree id
  have free : ∀ kid ∈ context.tree.children id, before.Free host front kid := fun kid member =>
    bench.worked.free_of_child bench.sound ((wellFormed.linked id kid).1 member) freeId
  refine ⟨_, rfl, bench.relinked (.single (.takeChildren id)) relinked ?_ free, relinked, ?_⟩
  · intro owner member
    rw [List.mem_singleton.1 member]
    exact ⟨freeId, .inl .self⟩
  · refine forall₂_imp_of_mem contents fun form _ kid member shown => ?_
    refine ⟨relinked.has_iff.2 (wellFormed.has_child member), wellFormed.parent_takeChildren member, ?_, free kid member⟩
    refine relinked.shows wellFormed (fun owner among => ?_) shown
    rw [List.mem_singleton.1 among]
    obtain ⟨depth, grounded⟩ := wellFormed.grounded kid
    exact not_onPath_parent grounded ((wellFormed.linked id kid).1 member)

/-- A loop around the construct takes the place of the tag. -/
theorem mirrors_placeInLoop {first : Context} {inner : NodeId}
    (bench : Bench first.tree limit host front left id row context.tree) (options : context.options = first.options)
    (rules : context.rules = first.rules) (stray : Stray first.tree limit host front context.tree head inner)
    (header : String) :
    Edit.Mirrors ((Form.loop? header).bind fun loop => some (Form.construct loop [head], left))
      (do
        let iteration ← iteration id header
        let outcome ← replace id iteration
        append iteration inner
        return outcome) context fun given => GivesWay first limit host front id given.1 given.2 := by
  refine (mirrors_iteration bench id header).bind ?_
  rintro kind loop middle ⟨container, same, known, extension, absent, construct⟩
  have looseInner := stray.present
  have stray := stray.grown bench.wellFormed extension
  have freshLoop : ¬first.tree.Has loop := fun hasLoop => absent (bench.worked.has hasLoop)
  have freeLoop : first.tree.Free host front loop := fun hasLoop => absurd hasLoop freshLoop
  have different : loop ≠ inner := fun same => absent (same ▸ looseInner)
  obtain ⟨placed, ran, there, relinked, gone, standing⟩ := run_replace known construct.present construct.parent freeLoop
  have hostApart : ∀ {other}, first.tree.Free host front other → ∀ owner ∈ [host], ¬middle.tree.OnPath other owner := by
    intro other free owner member
    rw [List.mem_singleton.1 member]
    exact known.not_above free
  have linked := (known.mem_children List.mem_cons_self).1
  have unmoved : inner ∉ [id, loop] := by
    intro member
    rcases List.mem_cons.1 member with rfl | member
    · cases stray.detached.symm.trans linked
    · exact different (List.mem_singleton.1 member).symm
  have stray := stray.relinked known.wellFormed relinked (hostApart stray.free) unmoved
  have loopNotHost : loop ∉ [host] := by
    intro member
    exact freshLoop ((List.mem_singleton.1 member) ▸ bench.present)
  have emptied : placed.children loop = [] := (relinked.children loop loopNotHost).trans construct.children
  have notBelow : ¬placed.OnPath inner loop := by
    intro above
    rcases onPath_iff.1 above with same | ⟨parent, upper, higher⟩
    · exact different same.symm
    · obtain rfl := Option.some.inj (standing.symm.trans upper)
      exact there.not_above stray.free higher
  obtain ⟨last, adopted, final, adopting, shown⟩ := @run_adopt { middle with tree := placed } _ _ _ _ _ _ _ _ []
    loop inner there ⟨freeLoop, .inl .self⟩ (relinked.has_iff.2 construct.present)
    (by rw [relinked.kind, construct.kind, container]) stray notBelow (by rw [emptied]; exact .nil)
  refine .step ran (.step adopted (Edit.mirrors_pure ⟨loop, row, rfl, ?_, ?_, ?_, freshLoop, ?_, final⟩))
  · rw [same, options]
  · rw [same, rules]
  · have apart : id ∉ [inner] := fun member => unmoved (List.mem_singleton.1 member ▸ List.mem_cons_self)
    exact (adopting.parent_eq apart).trans gone
  · exact final.shows_construct freshLoop (((adopting.kind loop).trans (relinked.kind loop)).trans construct.kind)
      (((adopting.attributes loop).trans (relinked.attributes loop)).trans construct.attributes) shown

/-- The children of the tag that become no branch go below the first branch. The others hang loose. -/
theorem run_fillFirst {outer inner : NodeId} {kind : Kind}
    (bench : Bench before limit host front forms id row context.tree)
    (contents : List.Forall₂ (context.tree.Shows limit) below (context.tree.children id))
    (around : context.tree.IsConstruct outer .conditional [inner] none)
    (within : context.tree.IsConstruct inner kind [] (some outer)) (container : kind.isContainer = true)
    (freshOuter : ¬before.Has outer) (freshInner : ¬before.Has inner) :
    ∃ emptied filled, (Edit.takeTree fun tree => tree.takeChildren id).run context =
        (.ok (context.tree.children id), { context with tree := emptied }) ∧
      (appendAll inner ((context.tree.children id).filter fun child => !Conditional.isBranch ifNesting emptied child)).run
        { context with tree := emptied } = (.ok (), { context with tree := filled }) ∧
      Bench before limit host front forms id row filled ∧
      Stray before limit host front filled
        (Form.construct .conditional [Form.construct kind (below.filter fun child => !child.isBranch)]) outer ∧
      List.Forall₂ (Stray before limit host front filled) (below.filter Form.isBranch)
        ((context.tree.children id).filter (Conditional.isBranch ifNesting emptied)) := by
  have freeOuter : before.Free host front outer := fun present => absurd present freshOuter
  have freeInner : before.Free host front inner := fun present => absurd present freshInner
  have hosted := (bench.mem_children List.mem_cons_self).1
  have outerNotId : outer ≠ id := by
    rintro rfl
    cases around.parent.symm.trans hosted
  have outerNotInner : outer ≠ inner := by
    rintro rfl
    cases around.parent.symm.trans within.parent
  have innerNotId : inner ≠ id := by
    rintro rfl
    have same := Option.some.inj (within.parent.symm.trans hosted)
    exact freshOuter (same ▸ bench.present)
  have kidLinked : ∀ {kid}, kid ∈ context.tree.children id → context.tree.parent kid = some id := fun member =>
    (bench.wellFormed.linked id _).1 member
  have outerNotKid : outer ∉ context.tree.children id := fun member => by
    cases around.parent.symm.trans (kidLinked member)
  have innerNotKid : inner ∉ context.tree.children id := fun member =>
    outerNotId (Option.some.inj (within.parent.symm.trans (kidLinked member)))
  have distinct := bench.wellFormed.nodup id
  obtain ⟨emptied, took, ready, taking, strays⟩ := run_takeChildren bench contents
  have around := around.relinked taking (by simpa using outerNotId) outerNotKid
  have within := within.relinked taking (by simpa using innerNotId) innerNotKid
  have agree : ∀ one other, Stray before limit host front emptied one other →
      one.isBranch = Conditional.isBranch ifNesting emptied other := fun one other loose =>
    (isBranch_eq (shows_iff.1 loose.shown).2.1).symm
  have branchKids := forall₂_filter strays agree
  have otherKids := @forall₂_filter _ _ _ _ _ (fun child => !child.isBranch)
    (fun child => !Conditional.isBranch ifNesting emptied child) strays fun one other loose => by rw [agree one other loose]
  have nested : emptied.OnPath outer inner := .step within.parent .self
  have apart : ∀ kid ∈ context.tree.children id, ¬emptied.OnPath kid inner := by
    intro kid member above
    obtain ⟨form, -, loose⟩ := exists_of_mem_right strays member
    have same := eq_of_roots loose.detached around.parent above nested
    exact outerNotKid (same ▸ member)
  have inKids : ∀ {kid}, kid ∈ (context.tree.children id).filter (fun child => !Conditional.isBranch ifNesting emptied child) →
      kid ∈ context.tree.children id := fun member => (List.mem_filter.1 member).1
  obtain ⟨filled, ran, built, joining, shownFirst⟩ := @run_adoptAll { context with tree := emptied } _ _ _ _ _ _ _ _ _ inner ready
    ⟨freeInner, .inr (ready.loose around.parent freeOuter nested).2⟩ within.present (by rw [within.kind, container]) otherKids
    (distinct.filter _) (fun kid member => apart kid (inKids member)) within.children
  have firstShown := built.shows_construct freshInner ((joining.kind inner).trans within.kind)
    ((joining.attributes inner).trans within.attributes) shownFirst
  have around := around.relinked joining (by simpa using outerNotInner) fun member => outerNotKid (inKids member)
  refine ⟨emptied, filled, took, ran, built,
    ⟨around.present, around.parent, built.shows_of_construct around freshOuter (.cons firstShown .nil), freeOuter⟩, ?_⟩
  refine forall₂_imp_of_mem branchKids fun form _ kid member loose => ?_
  obtain ⟨listed, branch⟩ := List.mem_filter.1 member
  refine loose.relinked ready.wellFormed joining (fun owner among => ?_) fun among => ?_
  · rw [List.mem_singleton.1 among]
    exact apart kid listed
  · have other := (List.mem_filter.1 among).2
    rw [branch] at other
    cases other

/-- The transform of `<if>` mirrors what the tag stands for. -/
theorem mirrors_lowerIf {tag : String} (bench : Bench context.tree limit host front rest id row context.tree)
    (shown : context.tree.Shows limit form id) (tagged : form.tag? = some tag)
    (nesting : ((context.rules tag).map TagRules.nesting).getD {} = ifNesting) :
    Edit.Mirrors (form.lowerIf rest) (Conditional.lower id) context fun given =>
      GivesWay context limit host front id given.1 given.2 := by
  obtain ⟨-, kind, attributes, children⟩ := shows_iff.1 shown
  have present := has_of_parent (bench.mem_children List.mem_cons_self).1
  unfold Conditional.lower Form.lowerIf
  refine .step (Edit.run_tree context) ?_
  rw [elementTag?_eq kind, tagged]
  dsimp only
  refine mirrors_requireOnly attributes fun _ => ?_
  refine (mirrors_requireCode attributes "test").bind ?_
  rintro test _ _ ⟨rfl, rfl⟩
  have got : (get : Edit Context).run context = (.ok context, context) := rfl
  refine .step got ?_
  rw [nesting]
  refine (mirrors_conditional bench id test).bind ?_
  rintro made ⟨outer, inner⟩ middle ⟨rfl, same, ready, extension, absentOuter, absentInner, around, within⟩
  dsimp only at absentOuter absentInner around within ⊢
  have contents := extension.shows_children bench.wellFormed present children
  have distinct := ready.wellFormed.nodup id
  obtain ⟨emptied, filled, took, ran, built, stray, branchKids⟩ :=
    run_fillFirst ready contents around within rfl absentOuter absentInner
  refine .step took (.step (Edit.run_tree _) (.step ran (.step (Edit.run_tree _) ?_)))
  -- The branch tags behind the tag are taken from the host.
  rw [following_of_split built.wellFormed built.listed]
  obtain ⟨followers, tree, taking, taken⟩ := @run_takeFollowing { middle with tree := filled } _ _ _ _ _ _ _ built
  obtain ⟨fewer, settled⟩ := taken.rest
  obtain ⟨moved, behind, detaching⟩ := taken.relinked
  have elsewhere : ∀ {form : Form} {node : NodeId}, Stray context.tree limit host front filled form node → node ∉ row := by
    intro form node loose member
    have linked := (built.mem_children (List.mem_cons_of_mem id member)).1
    cases loose.detached.symm.trans linked
  have stays : ∀ {form : Form} {node : NodeId}, Stray context.tree limit host front filled form node →
      Stray context.tree limit host front tree form node := by
    intro form node loose
    refine loose.relinked built.wellFormed detaching (fun owner among => ?_) fun among => elsewhere loose (behind among)
    rw [List.mem_singleton.1 among]
    exact built.not_above loose.free
  refine .step taking ?_
  have allBranches : ∀ tag ∈ form.children.filter Form.isBranch ++ (Form.takeFollowing rest).1, tag.isBranch = true := by
    intro tag member
    rcases List.mem_append.1 member with nested | follows
    · exact (List.mem_filter.1 nested).2
    · exact isBranch_of_mem_takeFollowing follows
  have disjoint : List.Disjoint ((middle.tree.children id).filter (Conditional.isBranch ifNesting emptied)) followers := by
    intro node member follows
    obtain ⟨form, -, loose⟩ := exists_of_mem_right branchKids member
    exact elsewhere loose (taken.within follows)
  refine (@mirrors_addBranches { middle with tree } _ _ _ _ _ _ _ _ _ _ _ false settled (stays stray) absentOuter
    (List.rel_append (branchKids.imp fun _ _ => stays) taken.strays) ((distinct.filter _).append taken.distinct disjoint)
    allBranches).bind ?_
  rintro others _ last ⟨options, rules, final, stray⟩
  refine .step (Edit.run_tree last) ?_
  have kept : (last.tree.node id).attributes = form.attributes := (final.worked.attributes id present).trans attributes
  have options : last.options = context.options := by rw [options, same]
  have rules : last.rules = context.rules := by rw [rules, same]
  rw [Tree.attribute?, attribute?_eq kept]
  cases form.attribute? "for" with
  | none =>
      obtain ⟨outcome, after, ran, meets⟩ :=
        (mirrors_giveWay final options rules stray.present stray.detached absentOuter stray.shown).2 _ rfl
      exact Edit.mirrors_some ran meets
  | some header => exact mirrors_placeInLoop final options rules stray header.value.asCode

end Construct
end HtmlTemplate
