import HtmlTemplate.Proofs.Deprecation.Ledger

/-!
# Transforms keep the books

The transforms of control tags and directives are made of a few edits: nodes are taken out of others, held for a while,
and put into new places, and what is left over is let go of. Each of these keeps the books. Tags that become branches
are warned about on the way, and the books say that they were told.
-/

namespace HtmlTemplate

open HtmlTemplate.Tree

variable {root id parent : NodeId} {first tree after : Tree} {held idle told ids : List NodeId}

/-! ## Edits that succeed -/

namespace Edit

variable {α β : Type} {context : Context}

/-- If the edit succeeds, then with what is good. -/
def Ensures (work : Edit α) (context : Context) (good : α → Context → Prop) : Prop :=
  ∀ value after, work.run context = (.ok value, after) → good value after

/-- If the edit succeeds, then it has changed the tree at most. Nodes stay what they are, and the tree is good. -/
def Moves (work : Edit α) (context : Context) (good : α → Tree → Prop) : Prop :=
  Ensures work context fun value after =>
    ∃ tree, after = { context with tree } ∧ context.tree.Stays tree ∧ good value tree

section Ensures

variable {good : α → Context → Prop} {later : β → Context → Prop}

theorem ensures_pure {value : α} (meets : good value context) : Ensures (pure value) context good := by
  intro given after ran
  obtain ⟨rfl, rfl⟩ := run_pure_eq_ok_iff.1 ran
  exact meets

theorem ensures_failAt {id : NodeId} {cause : Cause} : Ensures (failAt id cause) context good := by
  intro value after ran
  cases ran

theorem Ensures.bind {work : Edit α} {next : α → Edit β} (begins : Ensures work context good)
    (goesOn : ∀ value context, good value context → Ensures (next value) context later) :
    Ensures (work >>= next) context later := by
  intro value after ran
  obtain ⟨given, between, began, ended⟩ := run_bind_eq_ok_iff.1 ran
  exact goesOn given between (begins given between began) value after ended

theorem Ensures.weaken {work : Edit α} {other : α → Context → Prop} (ensures : Ensures work context good)
    (ending : ∀ value after, good value after → other value after) : Ensures work context other :=
  fun value after ran => ending value after (ensures value after ran)

/-- A step that is known leads to the state that the rest is run in. -/
theorem Ensures.step {work : Edit α} {next : α → Edit β} {given : α} {after : Context}
    (began : work.run context = (.ok given, after)) (rest : Ensures (next given) after later) :
    Ensures (work >>= next) context later := by
  intro value final ran
  obtain ⟨other, between, begins, ended⟩ := run_bind_eq_ok_iff.1 ran
  obtain ⟨same, rfl⟩ := Prod.mk.inj (began.symm.trans begins)
  obtain rfl := Except.ok.inj same
  exact rest value final ended

theorem Safely.ensures {work : Edit α} (safely : Safely work context good) : Ensures work context good := by
  intro value after ran
  unfold Safely at safely
  rw [ran] at safely
  exact safely

/-- A step that only looks leads to where it began. -/
theorem Ensures.look {work : Edit α} {next : α → Edit β} (safely : Safely work context fun _ after => after = context)
    (rest : ∀ value, Ensures (next value) context later) : Ensures (work >>= next) context later := by
  refine safely.ensures.bind ?_
  rintro value _ rfl
  exact rest value

end Ensures

section Moves

variable {good : α → Tree → Prop} {later : β → Tree → Prop}

theorem moves_pure {value : α} (meets : good value context.tree) : Moves (pure value) context good :=
  ensures_pure ⟨context.tree, rfl, stays_refl _, meets⟩

theorem Moves.bind {work : Edit α} {next : α → Edit β} (begins : Moves work context good)
    (goesOn : ∀ value tree, context.tree.Stays tree → good value tree → Moves (next value) { context with tree } later) :
    Moves (work >>= next) context later := by
  refine Ensures.bind begins ?_
  rintro value _ ⟨tree, rfl, stays, meets⟩
  refine (goesOn value tree stays meets).weaken ?_
  rintro _ _ ⟨last, rfl, further, done⟩
  exact ⟨last, rfl, stays.trans further, done⟩

theorem Moves.weaken {work : Edit α} {other : α → Tree → Prop} (moves : Moves work context good)
    (ending : ∀ value tree, context.tree.Stays tree → good value tree → other value tree) : Moves work context other := by
  refine Ensures.weaken moves ?_
  rintro value _ ⟨tree, rfl, stays, meets⟩
  exact ⟨tree, rfl, stays, ending value tree stays meets⟩

theorem moves_changeTree {change : Tree → Except Fault Tree} {good : Tree → Prop}
    (meets : ∀ tree, change context.tree = .ok tree → context.tree.Stays tree ∧ good tree) :
    Moves (changeTree change) context fun _ => good := by
  intro value after ran
  obtain ⟨tree, made, rfl⟩ := run_changeTree_eq_ok_iff.1 ran
  exact ⟨tree, rfl, meets tree made⟩

theorem moves_makeTree {change : Tree → Except Fault (α × Tree)}
    (meets : ∀ value tree, change context.tree = .ok (value, tree) → context.tree.Stays tree ∧ good value tree) :
    Moves (makeTree change) context good := by
  intro value after ran
  obtain ⟨tree, made, rfl⟩ := run_makeTree_eq_ok_iff.1 ran
  exact ⟨tree, rfl, meets value tree made⟩

end Moves

end Edit

/-! ## Edits of constructs -/

namespace Construct

open Edit (Ensures Moves)

variable {context : Context} {child new source target : NodeId} {kids : List NodeId}

theorem stays_append (wellFormed : tree.WellFormed) (made : tree.append parent child = .ok after) :
    tree.Stays after ∧ ∀ id, after.deprecation? id = tree.deprecation? id := by
  obtain ⟨-, -, -, rfl⟩ := (append_eq_ok_iff wellFormed).1 made
  exact ⟨fun id present => by simpa using present, fun id => by simp⟩

theorem stays_remove (made : tree.remove parent child = .ok after) :
    tree.Stays after ∧ ∀ id, after.deprecation? id = tree.deprecation? id := by
  obtain ⟨index, -, rfl⟩ := remove_eq_ok_iff.1 made
  exact ⟨fun id present => by simpa using present, fun id => by simp⟩

theorem has_of_keeps (ledger : Ledger root first held idle told tree) (keeps : tree.Keeps held id) : tree.Has id := by
  rcases keeps with member | attached
  · exact (ledger.loose id member).1
  · obtain ⟨parent, linked⟩ := Option.ne_none_iff_exists'.1 attached
    exact has_of_parent linked

/-- A node that is held is put behind the children of a node with a place. -/
theorem moves_append (ledger : Ledger root first (child :: held) idle told context.tree)
    (keeps : context.tree.Keeps held target) (fresh : target ∉ idle) :
    Moves (append target child) context fun _ tree => Ledger root first held idle told tree ∧
      ∀ other, context.tree.parent other ≠ none → tree.parent other ≠ none := by
  refine Edit.moves_changeTree fun tree made => ?_
  obtain ⟨stays, same⟩ := stays_append ledger.wellFormed made
  have hasTarget := has_of_keeps ledger (keeps.imp_left (List.mem_cons_of_mem child))
  have present := (ledger.loose child List.mem_cons_self).1
  have adopts := adopts_append ledger.wellFormed hasTarget present made
  have wellFormed := (Edited.append hasTarget present made).wellFormed ledger.wellFormed
  refine ⟨stays, ?_, fun other attached => ?_⟩
  · exact @Ledger.adopt root target first context.tree tree held idle told [child] ledger adopts wellFormed stays same
      (.inr keeps) fresh
  · by_cases moved : other = child
    · rw [moved, adopts.parent_of_mem child (List.mem_singleton_self child)]
      exact Option.some_ne_none target
    · rw [adopts.parent_of_notMem other (by simpa using moved)]
      exact attached

/-- Nodes that are held are put behind the children of a node with a place. The induction is on the nodes. -/
theorem moves_appendAll (ledger : Ledger root first (kids ++ held) idle told context.tree)
    (keeps : context.tree.Keeps held target) (fresh : target ∉ idle) :
    Moves (appendAll target kids) context fun _ tree => Ledger root first held idle told tree := by
  induction kids generalizing context with
  | nil => exact Edit.moves_pure ledger
  | cons kid kids hypothesis =>
      change Moves (append target kid >>= fun _ => appendAll target kids) context _
      refine (moves_append ledger (keeps.imp_left (List.mem_append_right kids)) fresh).bind ?_
      rintro _ tree - ⟨ledger, attached⟩
      exact @hypothesis { context with tree } ledger (keeps.imp_right (attached target))

/-- All children of a node are taken from it and held, and it is idle then. -/
theorem moves_takeChildren (ledger : Ledger root first held idle told context.tree) (present : context.tree.Has id) :
    Moves (Edit.takeTree fun tree => tree.takeChildren id) context fun kids tree => kids = context.tree.children id ∧
      Ledger root first (kids ++ held) (id :: idle) told tree ∧
        ∀ other ∉ kids, tree.parent other = context.tree.parent other := by
  refine Edit.moves_makeTree fun kids tree made => ?_
  obtain ⟨rfl, rfl⟩ := Prod.mk.inj (Except.ok.inj made)
  have releases := releases_takeChildren ledger.wellFormed id
  have stays : context.tree.Stays (context.tree.takeChildren id).2 :=
    fun other there => by simpa [takeChildren] using there
  have released := ledger.release releases stays fun other => by simp [takeChildren]
  refine ⟨stays, rfl, released.rest (stays id present).1 ?_, releases.parent_of_notMem⟩
  intro child member
  rw [(relinked_takeChildren context.tree id).2] at member
  exact absurd member List.not_mem_nil

/-- All children of a node are moved to another one, and it is idle then. -/
theorem moves_moveChildren (ledger : Ledger root first held idle told context.tree) (present : context.tree.Has source)
    (keeps : context.tree.Keeps held target) (unlisted : target ∉ context.tree.children source)
    (different : target ≠ source) (fresh : target ∉ idle) :
    Moves (moveChildren source target) context fun _ tree => Ledger root first held (source :: idle) told tree := by
  refine (moves_takeChildren ledger present).bind ?_
  rintro kids tree - ⟨rfl, ledger, parents⟩
  refine @moves_appendAll _ _ _ _ _ { context with tree } _ _ ledger (keeps.imp_right fun attached => ?_) (by simp [different, fresh])
  rw [parents target unlisted]
  exact attached

/-- A new node around nodes that are held is held. -/
theorem moves_create (ledger : Ledger root first (kids ++ held) idle told context.tree) (place : NodeId) {kind : Kind}
    (untagged : kind.tag? = none) :
    Moves (create place kind kids) context fun value tree => Ledger root first (value :: held) idle told tree ∧
      ¬context.tree.Has value ∧ ∀ kid ∈ kids, tree.parent kid = some value := by
  refine Edit.moves_makeTree fun value tree made => ?_
  have present : ∀ kid ∈ kids, context.tree.Has kid := fun kid member =>
    (ledger.loose kid (List.mem_append_left held member)).1
  have wellFormed : tree.WellFormed := (Edited.create present made).wellFormed ledger.wellFormed
  obtain ⟨read, -, readNone, -, -, -, same⟩ := create_eq_ok_iff.1 made
  obtain ⟨rfl, rfl⟩ := Prod.mk.inj same
  rw [List.mapM_nil] at readNone
  obtain rfl := Except.ok.inj readNone
  have adopts := @adopts_create context.tree (context.tree.node place).position kind [] kids present
  have pushed := (ledger.push untagged [] (context.tree.node place).position).perm List.perm_middle.symm
  have node : ∀ id, id ≠ ⟨context.tree.size⟩ → (context.tree.push
      { kind, attributes := [], children := kids, position := (context.tree.node place).position }).2.node id =
        context.tree.node id := fun id old => node_push_of_ne old
  have stays : context.tree.Stays ((context.tree.push
      { kind, attributes := [], children := kids, position := (context.tree.node place).position }).2.setParents
        (some ⟨context.tree.size⟩) kids) := by
    intro id there
    refine ⟨(has_setParents _ _ _ _).2 ((has_push _).2 (.inl there)), ?_⟩
    rw [kind_setParents, Tree.kind, node id (ne_size_of_has there), Tree.kind]
  refine ⟨stays, pushed.adopt adopts wellFormed (fun id there => ?_) (fun id => ?_) (.inr (.inl List.mem_cons_self)) ?_,
    not_has_size, adopts.parent_of_mem⟩
  · refine ⟨(has_setParents _ _ _ _).2 ((has_push _).2 ((has_push _).1 there)), ?_⟩
    rw [adopts.kind]
  · refine deprecation?_congr (file_setParents _ _ _) (adopts.kind id) ?_
    rw [position_setParents]
    by_cases fresh : id = ⟨context.tree.size⟩
    · rw [fresh, node_push_self, node_push_self]
    · rw [node id fresh, node_push_of_ne fresh]
  · exact fun member => not_has_size (ledger.idle _ member).1

theorem moves_conditional (ledger : Ledger root first held idle told context.tree) (place : NodeId) (test : String) :
    Moves (conditional place test) context fun value tree => Ledger root first (value.1 :: held) idle told tree ∧
      ¬context.tree.Has value.1 ∧ ¬context.tree.Has value.2 ∧ tree.parent value.2 = some value.1 := by
  refine (@moves_create root first held idle told context [] ledger place _ rfl).bind ?_
  rintro branch tree stays ⟨ledger, newBranch, -⟩
  refine (@moves_create root first held idle told { context with tree } [branch] ledger place _ rfl).bind ?_
  rintro outer last - ⟨ledger, newOuter, inside⟩
  refine Edit.moves_pure ⟨ledger, fun present => newOuter (stays outer present).1, newBranch, ?_⟩
  exact inside branch (List.mem_singleton_self branch)

theorem moves_iteration (ledger : Ledger root first held idle told context.tree) (place : NodeId) (header : String) :
    Moves (iteration place header) context fun value tree => Ledger root first (value :: held) idle told tree ∧
      ¬context.tree.Has value := by
  unfold iteration
  split
  · refine (@moves_create root first held idle told context [] ledger place _ rfl).weaken ?_
    rintro value tree - ⟨ledger, absent, -⟩
    exact ⟨ledger, absent⟩
  · exact Edit.ensures_failAt

/-- A node that is held takes the place of a container, which is held then. -/
theorem moves_replace (ledger : Ledger root first (new :: held) idle told context.tree)
    (container : (context.tree.kind id).isContainer = true) :
    Moves (replace id new) context fun outcome tree => outcome = .replaced new ∧
      Ledger root first (id :: held) idle told tree ∧ tree.parent new ≠ none := by
  unfold replace
  refine Ensures.step (Edit.run_tree context) ?_
  split
  · exact Edit.ensures_failAt
  · next parent linked =>
      have exchanged : Moves (Edit.changeTree fun tree => tree.replace parent id new) context fun _ tree =>
          Ledger root first (id :: held) idle told tree ∧ tree.parent new ≠ none := by
        refine Edit.moves_changeTree fun tree made => ?_
        have hasNew := (ledger.loose new List.mem_cons_self).1
        have wellFormed := (Edited.replace hasNew made).wellFormed ledger.wellFormed
        obtain ⟨middle, removed, releases, adopts, -, apart, -, -⟩ := releases_adopts_replace ledger.wellFormed hasNew made
        obtain ⟨stays, same⟩ := stays_remove removed
        have released := (ledger.release releases stays same).perm (List.Perm.swap new id held)
        have hosts : parent = root ∨ middle.Keeps (id :: held) parent := by
          refine (ledger.keeps_of_child linked container).imp_right ?_
          rintro (member | attached)
          · have different : parent ≠ new := fun same => apart (same ▸ .self)
            exact .inl (List.mem_cons_of_mem id ((List.mem_cons.1 member).resolve_left different))
          · by_cases moved : parent = id
            · exact .inl (moved ▸ List.mem_cons_self)
            · exact .inr (by rwa [releases.parent_of_notMem parent (by simpa using moved)])
        obtain ⟨index, -, -, -, rfl⟩ := (replace_eq_ok_iff ledger.wellFormed).1 made
        obtain ⟨place, -, rfl⟩ := remove_eq_ok_iff.1 removed
        refine ⟨fun other there => by simpa using there, ?_, ?_⟩
        · exact @Ledger.adopt _ _ _ _ _ _ _ _ [new] released adopts wellFormed (fun other there => by simpa using there)
            (fun other => by simp) hosts (ledger.not_idle_of_child linked container)
        · rw [adopts.parent_of_mem new (List.mem_singleton_self new)]
          exact Option.some_ne_none parent
      refine exchanged.bind ?_
      rintro _ tree - ⟨ledger, attached⟩
      exact Edit.moves_pure ⟨rfl, ledger, attached⟩

variable {construct conditional : NodeId}

/-! ## Branch tags behind an `<if>` -/

theorem moves_detach {parent : NodeId} (ledger : Ledger root first held idle told context.tree)
    (linked : context.tree.parent id = some parent) :
    Moves (detach id) context fun _ tree => Ledger root first (id :: held) idle told tree ∧
      ∀ other, other ≠ id → tree.parent other = context.tree.parent other := by
  refine Edit.moves_changeTree fun tree made => ?_
  unfold Tree.detach at made
  rw [linked] at made
  obtain ⟨stays, same⟩ := stays_remove made
  have releases := releases_remove ledger.wellFormed made
  exact ⟨stays, ledger.release releases stays same, fun other different =>
    releases.parent_of_notMem other (by simpa using different)⟩

theorem exists_text_of_isBlankText {node : Node} (blank : node.isBlankText = true) : ∃ value, node.kind = .text value := by
  unfold Node.isBlankText at blank
  split at blank
  · next value text => exact ⟨value, text⟩
  · cases blank

/-- Branch tags that are taken from behind an `<if>` are held. The induction is on the siblings. -/
theorem moves_takeFollowing (nesting : Nesting) {siblings : List NodeId}
    (ledger : Ledger root first held idle told context.tree)
    (attached : ∀ sibling ∈ siblings, context.tree.parent sibling ≠ none) (distinct : siblings.Nodup) :
    Moves (Conditional.takeFollowing nesting siblings) context fun taken tree =>
      Ledger root first (taken ++ held) idle told tree := by
  induction siblings generalizing context held with
  | nil => exact Edit.moves_pure ledger
  | cons sibling rest hypothesis =>
      obtain ⟨notLater, distinct⟩ := List.nodup_cons.1 distinct
      obtain ⟨parent, linked⟩ := Option.ne_none_iff_exists'.1 (attached sibling List.mem_cons_self)
      have stillAttached : ∀ tree : Tree,
          (∀ other, other ≠ sibling → tree.parent other = context.tree.parent other) →
            ∀ other ∈ rest, tree.parent other ≠ none := by
        intro tree parents other member
        rw [parents other fun same => notLater (same ▸ member)]
        exact attached other (List.mem_cons_of_mem sibling member)
      unfold Conditional.takeFollowing
      refine Ensures.step (Edit.run_tree context) ?_
      split
      · next blank =>
          split
          · refine (moves_detach ledger linked).bind ?_
            rintro _ tree stays ⟨ledger, parents⟩
            obtain ⟨value, text⟩ := exists_text_of_isBlankText blank
            have kind := (stays sibling (has_of_parent linked)).2.trans text
            exact @hypothesis held { context with tree } (ledger.dropText kind) (stillAttached tree parents) distinct
          · exact Edit.moves_pure ledger
      · split
        · refine (moves_detach ledger linked).bind ?_
          rintro _ tree - ⟨ledger, parents⟩
          refine (@hypothesis (sibling :: held) { context with tree } ledger (stillAttached tree parents) distinct).bind ?_
          rintro taken last - ledger
          exact Edit.moves_pure (ledger.perm List.perm_middle)
        · exact Edit.moves_pure ledger

/-! ## Branches -/

/-- A tag that becomes a branch is warned about if it has an older name. -/
theorem ensures_warnDeprecated (rules : context.rules = fun tag => (Control.entryOf tag).map TagEntry.rules) (id : NodeId) :
    Ensures (Conditional.warnDeprecated id ((elementTag? context.tree id).getD "")) context fun _ after =>
      after = { context with diagnostics := context.diagnostics ++ (context.tree.deprecation? id).toList } := by
  have got : (get : Edit Context).run context = (.ok context, context) := rfl
  have reads : ∀ tag, (context.rules tag).bind TagRules.deprecated =
      (Control.entryOf tag).bind fun entry => entry.rules.deprecated := by
    intro tag
    rw [rules]
    exact Option.bind_map
  unfold Conditional.warnDeprecated
  refine Ensures.step got ?_
  rw [reads]
  by_cases element : ∃ tag, context.tree.kind id = .element tag
  · obtain ⟨tag, kind⟩ := element
    rw [elementTag?_of_kind kind, deprecation?_of_element kind, Option.getD_some]
    split
    · next reason found =>
        rw [found]
        have described : (context.tree.node id).describe = "<" ++ tag ++ ">" := by
          rw [Node.describe, show (context.tree.node id).kind = .element tag from kind]
          rfl
        intro value after ran
        cases ran
        rw [described]
        rfl
    · next none =>
        rw [none, Option.map_none, Option.toList_none, List.append_nil]
        exact Edit.ensures_pure rfl
  · have untagged : elementTag? context.tree id = none := by
      unfold elementTag?
      split
      · next tag kind => exact absurd ⟨tag, kind⟩ element
      · rfl
    have modern : context.tree.deprecation? id = none := by
      rw [← Option.not_isSome_iff_eq_none]
      exact fun older => element (exists_element_of_deprecation? older)
    rw [untagged, modern, Option.toList_none, List.append_nil]
    exact Edit.ensures_pure rfl

/-- While a node stays what it is, the same is due for it. -/
theorem deprecation?_of_stays {later : List NodeId} {resting : List NodeId} (ledger : Ledger root first held idle told tree)
    (next : Ledger root first ids resting later after) (stays : tree.Stays after) (present : tree.Has id) :
    after.deprecation? id = tree.deprecation? id := by
  have kind := (stays id present).2
  have alike : (after.deprecation? id).isSome = (tree.deprecation? id).isSome := by
    unfold deprecation?
    rw [kind]
    cases tree.kind id <;> simp
  cases due : tree.deprecation? id with
  | none => rwa [due, Option.isSome_none, Option.isSome_eq_false_iff, Option.isNone_iff_eq_none] at alike
  | some warning =>
      rw [due] at alike
      obtain ⟨other, found⟩ := Option.isSome_iff_exists.1 alike
      rw [found, ← ledger.same id warning due, next.same id other found]

/-- Tags that are held become branches. Those with older names are told. The induction is on the tags. -/
theorem ensures_addBranches {closed : Bool} (rules : context.rules = fun tag => (Control.entryOf tag).map TagEntry.rules)
    (ledger : Ledger root first (ids ++ held) idle told context.tree) (among : conditional ∈ held)
    (fresh : conditional ∉ idle) :
    Ensures (Conditional.addBranches conditional closed ids) context fun _ after => ∃ tree more,
      after = { context with tree, diagnostics := context.diagnostics ++ more.filterMap first.deprecation? } ∧
        context.tree.Stays tree ∧ Ledger root first held idle (told ++ more) tree := by
  induction ids generalizing context closed told with
  | nil =>
      refine Edit.ensures_pure ⟨context.tree, [], ?_, stays_refl _, ?_⟩
      · rw [List.filterMap_nil, List.append_nil]
      · rw [List.append_nil]
        exact ledger
  | cons tag ids hypothesis =>
      unfold Conditional.addBranches
      refine Ensures.step (Edit.run_tree context) ?_
      split
      · exact Edit.ensures_failAt
      · refine (ensures_warnDeprecated rules tag).bind ?_
        rintro _ _ rfl
        refine Ensures.look (safely_readTest _ _) fun test => ?_
        have present := (ledger.loose tag List.mem_cons_self).1
        refine Ensures.bind (@moves_create root first _ idle told { context with
          diagnostics := context.diagnostics ++ (context.tree.deprecation? tag).toList } [] ledger tag (.branch test) rfl) ?_
        rintro branch _ ⟨made, rfl, grown, known, new, -⟩
        have different : branch ≠ tag := fun same => new (same ▸ present)
        have loose := (known.loose branch List.mem_cons_self).2
        have unlisted : branch ∉ made.children tag := fun member => by
          cases loose.symm.trans ((known.wellFormed.linked tag branch).1 member)
        refine Ensures.bind (moves_moveChildren known (grown tag present).1 (.inl List.mem_cons_self) unlisted different
          fun member => new (ledger.idle branch member).1) ?_
        rintro _ _ ⟨moved, rfl, filled, emptied⟩
        -- The tag has nothing in it any more, and what was due for it has been recorded.
        have hollow := (emptied.idle tag List.mem_cons_self).2
        obtain ⟨due, recorded, dropped⟩ := (emptied.perm (List.Perm.swap tag branch _)).close hollow
        rw [deprecation?_of_stays ledger emptied (grown.trans filled) present] at recorded
        have dropped := dropped.forget (List.subset_cons_self tag idle)
        refine Ensures.bind (moves_append dropped (.inl (List.mem_append_right ids among)) fresh) ?_
        rintro _ _ ⟨tree, rfl, joined, rest, -⟩
        refine (@hypothesis (told ++ due) { context with
          tree, diagnostics := context.diagnostics ++ (context.tree.deprecation? tag).toList } _ rules rest).weaken ?_
        rintro _ _ ⟨last, more, rfl, stays, final⟩
        refine ⟨last, due ++ more, ?_, ((grown.trans filled).trans joined).trans stays, ?_⟩
        · rw [List.filterMap_append, recorded, List.append_assoc]
        · rw [← List.append_assoc]
          exact final

/-! ## Control tags that are replaced -/

/-- A node has given way to one with a place, and what was told meanwhile was warned about. -/
def GivesPlace (root : NodeId) (first : Tree) (told : List NodeId) (before : Context) (outcome : Outcome)
    (after : Context) : Prop :=
  ∃ next tree more, outcome = .replaced next ∧ tree.parent next ≠ none ∧
    after = { before with tree, diagnostics := before.diagnostics ++ more.filterMap first.deprecation? } ∧
      Ledger root first [] [] (told ++ more) tree

/-- What was told and warned about before counts too. -/
theorem GivesPlace.further {more : List NodeId} {outcome : Outcome} {final : Context} {tree : Tree}
    (gives : GivesPlace root first (told ++ more)
      { context with tree, diagnostics := context.diagnostics ++ more.filterMap first.deprecation? } outcome final) :
    GivesPlace root first told context outcome final := by
  obtain ⟨next, last, others, replaced, attached, rfl, ledger⟩ := gives
  refine ⟨next, last, more ++ others, replaced, attached, ?_, ?_⟩
  · rw [List.filterMap_append, List.append_assoc]
  · rw [← List.append_assoc]
    exact ledger

theorem givesPlace_of_moves {work : Edit Outcome} (moves : Moves work context fun outcome tree =>
      outcome = .replaced new ∧ Ledger root first [] idle told tree ∧ tree.parent new ≠ none) :
    Ensures work context (GivesPlace root first told context) := by
  refine Ensures.weaken moves ?_
  rintro outcome _ ⟨tree, rfl, -, replaced, ledger, attached⟩
  refine ⟨new, tree, [], replaced, attached, ?_, ?_⟩
  · rw [List.filterMap_nil, List.append_nil]
  · rw [List.append_nil]
    exact ledger.forget (List.nil_subset idle)

/-- A container that has nothing of note in it any more gives way to a node that is held. -/
theorem moves_giveWay (ledger : Ledger root first (new :: held) (id :: idle) told context.tree)
    (container : (context.tree.kind id).isContainer = true)
    (settled : (first.deprecation? id).isSome = true → id ∈ told) :
    Moves (replace id new) context fun outcome tree => outcome = .replaced new ∧
      Ledger root first held (id :: idle) told tree ∧ tree.parent new ≠ none := by
  refine (moves_replace ledger container).weaken ?_
  rintro outcome tree - ⟨replaced, ledger, attached⟩
  have hollow := (ledger.idle id List.mem_cons_self).2
  exact ⟨replaced, ledger.drop hollow (ledger.none_of_told (.inl List.mem_cons_self) settled), attached⟩

theorem all_text_of_textOf {value : String} {after : Context} (ran : (Comment.textOf ids).run context = (.ok value, after)) :
    ∀ id ∈ ids, ∃ text, context.tree.kind id = .text text := by
  induction ids generalizing context value after with
  | nil => exact fun id member => absurd member List.not_mem_nil
  | cons first ids hypothesis =>
      unfold Comment.textOf at ran
      obtain ⟨tree, middle, looked, ran⟩ := Edit.run_bind_eq_ok_iff.1 ran
      cases looked
      split at ran
      · next text kind =>
          obtain ⟨rest, between, ran, -⟩ := Edit.run_bind_eq_ok_iff.1 ran
          exact List.forall_mem_cons.2 ⟨⟨text, kind⟩, hypothesis ran⟩
      · cases ran

theorem ensures_lowerComment {tag : String} (ledger : Ledger root first [] [] told context.tree)
    (element : context.tree.kind id = .element tag) (settled : (first.deprecation? id).isSome = true → id ∈ told) :
    Ensures (Comment.lower id) context (GivesPlace root first told context) := by
  have present := Walk.has_of_element element
  unfold Comment.lower
  refine Ensures.step (Edit.run_tree context) ?_
  rw [elementTag?_of_kind element, if_neg (by simp)]
  refine Ensures.look (safely_requireOnly id _) fun _ => ?_
  have reads : Ensures (Comment.textOf (context.tree.children id)) context fun _ after =>
      context = after ∧ context.tree.Hollow id := by
    intro value after ran
    refine ⟨((safely_textOf _).ensures value after ran).symm, fun child member => ?_⟩
    obtain ⟨text, kind⟩ := all_text_of_textOf ran child member
    rw [kind]
    rfl
  refine reads.bind ?_
  rintro value _ ⟨rfl, hollow⟩
  refine Ensures.bind (@moves_create root first [] _ told context [] (ledger.rest present hollow) id (.comment value true) rfl) ?_
  rintro comment _ ⟨tree, rfl, stays, ledger, -, -⟩
  exact givesPlace_of_moves (moves_giveWay ledger (stays.isContainer element) settled)

theorem ensures_lowerFor {tag : String} (ledger : Ledger root first [] [] told context.tree)
    (element : context.tree.kind id = .element tag) (settled : (first.deprecation? id).isSome = true → id ∈ told) :
    Ensures (Iteration.lower id) context (GivesPlace root first told context) := by
  have present := Walk.has_of_element element
  unfold Iteration.lower
  refine Ensures.step (Edit.run_tree context) ?_
  rw [elementTag?_of_kind element, if_neg (by simp)]
  refine Ensures.look (safely_requireOnly id _) fun _ => ?_
  refine Ensures.look (safely_requireCode id "each") fun header => ?_
  refine Ensures.bind (moves_iteration ledger id header) ?_
  rintro loop _ ⟨tree, rfl, stays, ledger, newLoop⟩
  have different : loop ≠ id := fun same => newLoop (same ▸ present)
  have there := (stays id present).1
  refine Ensures.step (Edit.run_tree _) ?_
  split
  · refine Ensures.look (safely_requireCode id "if") fun test => ?_
    refine Ensures.bind (moves_conditional ledger id test) ?_
    rintro ⟨outer, inner⟩ _ ⟨around, rfl, grown, ledger, newOuter, newInner, inside⟩
    dsimp only at newOuter newInner inside ⊢
    have unlisted : inner ∉ around.children id := fun member => by
      have same := inside.symm.trans ((ledger.wellFormed.linked id inner).1 member)
      exact newOuter (Option.some.inj same ▸ there)
    have attached : around.parent inner ≠ none := by
      rw [inside]
      exact Option.some_ne_none outer
    refine Ensures.bind (moves_moveChildren ledger (grown id there).1 (.inr attached) unlisted
      (fun same => newInner (same ▸ there)) List.not_mem_nil) ?_
    rintro _ _ ⟨filled, rfl, moved, ledger⟩
    refine Ensures.bind (moves_append ledger (.inl List.mem_cons_self) (by simpa using different)) ?_
    rintro _ _ ⟨joined, rfl, kept, ledger, -⟩
    exact givesPlace_of_moves (moves_giveWay ledger ((((stays.trans grown).trans moved).trans kept).isContainer element) settled)
  · have loose := (ledger.loose loop List.mem_cons_self).2
    refine Ensures.bind (moves_moveChildren ledger there (.inl List.mem_cons_self) (fun member => ?_) different
      List.not_mem_nil) ?_
    · cases loose.symm.trans ((ledger.wellFormed.linked id loop).1 member)
    rintro _ _ ⟨filled, rfl, moved, ledger⟩
    exact givesPlace_of_moves (moves_giveWay ledger ((stays.trans moved).isContainer element) settled)

theorem attached_of_mem_following (wellFormed : tree.WellFormed) {sibling : NodeId} (member : sibling ∈ tree.following id) :
    tree.parent sibling ≠ none := by
  unfold Tree.following at member
  split at member
  · next parent linked =>
      split at member
      · rw [(wellFormed.linked parent sibling).1 (List.mem_of_mem_drop member)]
        exact Option.some_ne_none parent
      · exact absurd member List.not_mem_nil
  · exact absurd member List.not_mem_nil

theorem nodup_following (wellFormed : tree.WellFormed) (id : NodeId) : (tree.following id).Nodup := by
  unfold Tree.following
  split
  · next parent linked =>
      split
      · exact (wellFormed.nodup parent).sublist (List.drop_sublist _ _)
      · exact List.nodup_nil
  · exact List.nodup_nil

/-- A loop around a conditional takes the place of a container that has nothing of note in it any more. -/
theorem ensures_replaceByLoop (ledger : Ledger root first [conditional] [id] told context.tree)
    (container : (context.tree.kind id).isContainer = true)
    (settled : (first.deprecation? id).isSome = true → id ∈ told) (header : String) :
    Ensures (do
      let loop ← iteration id header
      let outcome ← replace id loop
      append loop conditional
      return outcome) context (GivesPlace root first told context) := by
  have present := (ledger.idle id List.mem_cons_self).1
  refine Ensures.bind (moves_iteration ledger id header) ?_
  rintro loop _ ⟨looped, rfl, stays, ledger, newLoop⟩
  have fresh : loop ∉ [id] := by
    rw [List.mem_singleton]
    exact fun same => newLoop (same ▸ present)
  have enclosed : Moves (do
      let outcome ← replace id loop
      append loop conditional
      return outcome) { context with tree := looped } fun outcome tree =>
        outcome = .replaced loop ∧ Ledger root first [] [id] told tree ∧ tree.parent loop ≠ none := by
    refine (moves_giveWay ledger (by rw [(stays id present).2, container]) settled).bind ?_
    rintro outcome placed - ⟨replaced, ledger, there⟩
    refine (moves_append ledger (.inr there) fresh).bind ?_
    rintro _ final - ⟨ledger, attached⟩
    exact Edit.moves_pure ⟨replaced, ledger, attached loop there⟩
  exact givesPlace_of_moves enclosed

theorem ensures_lowerIf {tag : String} (rules : context.rules = fun tag => (Control.entryOf tag).map TagEntry.rules)
    (ledger : Ledger root first [] [] told context.tree) (element : context.tree.kind id = .element tag)
    (settled : (first.deprecation? id).isSome = true → id ∈ told) :
    Ensures (Conditional.lower id) context (GivesPlace root first told context) := by
  have present := Walk.has_of_element element
  have got : (get : Edit Context).run context = (.ok context, context) := rfl
  unfold Conditional.lower
  refine Ensures.step (Edit.run_tree context) ?_
  rw [elementTag?_of_kind element]
  refine Ensures.look (safely_requireOnly id _) fun _ => ?_
  refine Ensures.look (safely_requireCode id "test") fun test => ?_
  refine Ensures.step got ?_
  generalize (((context.rules tag).map TagRules.nesting).getD {}) = nesting
  refine Ensures.bind (moves_conditional ledger id test) ?_
  rintro ⟨outer, inner⟩ _ ⟨around, rfl, stays, known, newOuter, newInner, inside⟩
  dsimp only at newOuter newInner inside ⊢
  have outerApart : outer ∉ [id] := by
    rw [List.mem_singleton]
    exact fun same => newOuter (same ▸ present)
  have innerApart : inner ∉ [id] := by
    rw [List.mem_singleton]
    exact fun same => newInner (same ▸ present)
  have unlisted : inner ∉ around.children id := fun member => by
    have same := inside.symm.trans ((known.wellFormed.linked id inner).1 member)
    exact newOuter (Option.some.inj same ▸ present)
  refine Ensures.bind (moves_takeChildren known (stays id present).1) ?_
  rintro kids _ ⟨emptied, rfl, taken, rfl, ledger, parents⟩
  have attached : emptied.parent inner ≠ none := by
    rw [parents inner unlisted, inside]
    exact Option.some_ne_none outer
  refine Ensures.step (Edit.run_tree _) ?_
  -- The children that become no branch go below the first branch, and the others are held.
  have parted := ledger.perm ((List.perm_append_comm.trans
    (List.filter_append_perm (Conditional.isBranch nesting emptied) (around.children id))).symm.append_right [outer])
  rw [List.append_assoc] at parted
  refine Ensures.bind (moves_appendAll parted (.inr attached) innerApart) ?_
  rintro _ _ ⟨filled, rfl, joined, ledger⟩
  refine Ensures.step (Edit.run_tree _) ?_
  refine Ensures.bind (moves_takeFollowing nesting ledger (fun _ => attached_of_mem_following ledger.wellFormed)
    (nodup_following ledger.wellFormed id)) ?_
  rintro following _ ⟨left, rfl, detached, ledger⟩
  have pending := ledger.perm (List.perm_append_comm_assoc following _ [outer])
  rw [← List.append_assoc] at pending
  refine Ensures.bind (ensures_addBranches rules pending (List.mem_singleton_self outer) outerApart) ?_
  rintro _ _ ⟨branched, more, rfl, added, ledger⟩
  have kept := (((stays.trans taken).trans joined).trans detached).trans added
  have settled : (first.deprecation? id).isSome = true → id ∈ told ++ more := fun due =>
    List.mem_append_left more (settled due)
  refine @Ensures.weaken _ _ (GivesPlace root first (told ++ more) { context with
    tree := branched, diagnostics := context.diagnostics ++ more.filterMap first.deprecation? }) _ _ ?_ fun _ _ => GivesPlace.further
  refine Ensures.step (Edit.run_tree _) ?_
  split
  · exact givesPlace_of_moves (moves_giveWay ledger (kept.isContainer element) settled)
  · exact ensures_replaceByLoop ledger (kept.isContainer element) settled _

/-! ## Directives -/

theorem attached_innermost (wellFormed : tree.WellFormed) (attached : tree.parent id ≠ none) (budget : Nat) :
    tree.parent (innermost tree budget id) ≠ none := by
  induction budget generalizing id with
  | zero => exact attached
  | succ budget hypothesis =>
      unfold innermost
      split
      · next child last =>
          refine hypothesis ?_
          rw [(wellFormed.linked id child).1 (List.mem_of_getLast? last)]
          exact Option.some_ne_none id
      · exact attached

/-- A container is put inside of a construct that is held, which takes its place. -/
theorem moves_wrap (ledger : Ledger root first [construct] [] told context.tree)
    (container : (context.tree.kind id).isContainer = true) :
    Moves (wrap id construct) context fun outcome tree =>
      outcome = .replaced construct ∧ Ledger root first [] [] told tree ∧ tree.parent construct ≠ none := by
  unfold wrap
  refine (moves_replace ledger container).bind ?_
  rintro outcome tree - ⟨replaced, ledger, there⟩
  refine Ensures.step (Edit.run_tree _) ?_
  refine (moves_append ledger (.inr (attached_innermost ledger.wellFormed there _)) List.not_mem_nil).bind ?_
  rintro _ final - ⟨ledger, attached⟩
  exact Edit.moves_pure ⟨replaced, ledger, attached construct there⟩

theorem ensures_lowerDirective {tag : String} (ledger : Ledger root first [] [] told context.tree)
    (element : context.tree.kind id = .element tag) :
    Ensures (Directive.lower id) context fun outcome after =>
      outcome = .unchanged ∧ after = context ∨ GivesPlace root first told context outcome after := by
  have present := Walk.has_of_element element
  -- The books do not read the attribute that the directive is read from.
  have dropped : ∀ name : String, Ledger root first [] [] told (context.tree.removeAttribute id name).2 := by
    intro name
    have links := removeAttribute_sameLinks context.tree id name
    refine ledger.sameLinks (size_update _ _ _) (fun other => ?_) (fun other => (links other).1) (fun other => (links other).2.1)
      (fun other => (links other).2.2) ((Edited.removeAttribute id name).wellFormed ledger.wellFormed)
    exact deprecation?_congr rfl (links other).1 (field_update context.tree id other Node.position fun _ => rfl)
  have still : ∀ name : String, (context.tree.removeAttribute id name).2.kind id = .element tag := fun name =>
    (removeAttribute_sameLinks context.tree id name id).1.trans element
  have drops : ∀ name : String, (Directive.dropAttribute id name).run context =
      (.ok (), { context with tree := (context.tree.removeAttribute id name).2 }) := fun name => rfl
  unfold Directive.lower
  refine Ensures.step (Edit.run_tree context) ?_
  split
  · exact Edit.ensures_pure (.inl ⟨rfl, rfl⟩)
  · split
    · next header found =>
        refine Ensures.weaken ?_ fun _ _ => .inr
        refine Ensures.step (drops "for") ?_
        refine Ensures.bind (moves_iteration (dropped "for") id header) ?_
        rintro loop _ ⟨tree, rfl, stays, ledger, -⟩
        exact givesPlace_of_moves (moves_wrap ledger (stays.isContainer (still "for")))
    · split
      · exact Edit.ensures_pure (.inl ⟨rfl, rfl⟩)
      · next condition found =>
          dsimp only
          split
          · exact Edit.ensures_failAt
          · refine Ensures.weaken ?_ fun _ _ => .inr
            refine Ensures.step (drops "if") ?_
            refine Ensures.bind (moves_conditional (dropped "if") id _) ?_
            rintro ⟨outer, inner⟩ _ ⟨tree, rfl, stays, ledger, -⟩
            exact givesPlace_of_moves (moves_wrap ledger (stays.isContainer (still "if")))

end Construct
end HtmlTemplate
