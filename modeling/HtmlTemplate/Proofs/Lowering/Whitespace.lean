import HtmlTemplate.Proofs.Lowering.Rendering
import HtmlTemplate.Proofs.Tree.Ancestry

/-!
# Where text keeps its whitespace

Text keeps its whitespace everywhere, or below tags that are chosen for it or marked. The lowering follows this through
any nesting, with one exception: that a custom tag is chosen does not count, only that it is marked.
-/

namespace HtmlTemplate

/-- Do nodes of this kind choose or repeat what is below them? -/
def Kind.isControl : Kind → Bool
  | conditional => true
  | branch _ => true
  | iteration _ _ _ => true
  | _ => false

namespace Node

/-- Is text below to keep its whitespace, because of the tag or of the mark? -/
def keepsSpace (choices : Preservation) (node : Node) : Bool :=
  match node.tag? with
  | some tag => choices.preserves tag || node.preserve
  | none => false

/-- Is the node a custom tag that is chosen and not marked? -/
def isOverlooked (choices : Preservation) (node : Node) : Bool :=
  match node.kind with
  | .customTag name _ => choices.preserves name && !node.preserve
  | _ => false

theorem preserve_below (choices : Preservation) (node : Node) (region : Region) :
    (region.below choices node).preserve = true ↔
      region.preserve = true ∨ node.keepsSpace choices = true ∧ node.isOverlooked choices = false := by
  unfold Region.below keepsSpace isOverlooked tag? Kind.tag?
  cases node.kind with
  | element tag => simp [or_assoc, or_comm]
  | customTag name renderer => cases choices.preserves name <;> cases node.preserve <;> simp
  | _ => simp

end Node

namespace Tree

variable {tree : Tree} {choices : Preservation} {root above id parent : NodeId}

/-- The node stands above another one, and it is the root or below it. -/
def IsAround (tree : Tree) (root above id : NodeId) : Prop :=
  tree.OnPath root above ∧ tree.OnPath above id ∧ above ≠ id

theorem not_isAround_root (wellFormed : tree.WellFormed) : ¬tree.IsAround root above root := by
  rintro ⟨below, onPath, other⟩
  obtain ⟨depth, grounded⟩ := wellFormed.grounded above
  exact other (onPath.antisymm grounded below)

/-- Around a node are its parent and what is around that one. -/
theorem isAround_iff (wellFormed : tree.WellFormed) (linked : tree.parent id = some parent)
    (inside : tree.OnPath root parent) :
    tree.IsAround root above id ↔ above = parent ∨ tree.IsAround root above parent := by
  constructor
  · rintro ⟨below, onPath, other⟩
    rcases onPath_iff.1 onPath with same | ⟨next, listed, upper⟩
    · exact absurd same other
    · obtain rfl : parent = next := Option.some.inj (linked.symm.trans listed)
      by_cases same : above = parent
      · exact .inl same
      · exact .inr ⟨below, upper, same⟩
  · intro around
    have upper : tree.OnPath root above ∧ tree.OnPath above parent := by
      rcases around with rfl | ⟨below, onPath, -⟩
      · exact ⟨inside, .self⟩
      · exact ⟨below, onPath⟩
    obtain ⟨depth, grounded⟩ := wellFormed.grounded id
    refine ⟨upper.1, .step linked upper.2, ?_⟩
    rintro rfl
    exact not_onPath_parent grounded linked upper.2

theorem Enters.onPath (wellFormed : tree.WellFormed) {region : Region} (enters : tree.Enters choices root id region) :
    tree.OnPath root id := by
  induction enters with
  | root => exact .self
  | child _ member hypothesis => exact hypothesis.trans (.step ((wellFormed.linked _ _).1 member) .self)

/-- What is around a node and asks for whitespace to be kept reaches the node, if it is not overlooked. -/
theorem Enters.preserve_iff (wellFormed : tree.WellFormed) {region : Region}
    (enters : tree.Enters choices root id region) :
    region.preserve = true ↔ choices.isTotal = true ∨ ∃ above, tree.IsAround root above id ∧
      (tree.node above).keepsSpace choices = true ∧ (tree.node above).isOverlooked choices = false := by
  induction enters with
  | root => simp [not_isAround_root wellFormed]
  | @child parent id region above member hypothesis =>
      have linked := (wellFormed.linked _ _).1 member
      simp only [Node.preserve_below, hypothesis, isAround_iff wellFormed linked (above.onPath wellFormed),
        or_and_right, exists_or, exists_eq_left, or_assoc]
      exact or_congr_right or_comm

/-! ## Scripts and styles -/

/-- The node is in a script or a style, with nothing but conditionals, branches and loops between. -/
inductive InScript (tree : Tree) (root : NodeId) : NodeId → Prop
  | element {parent id : NodeId} {tag : String} :
      tree.OnPath root parent → tree.parent id = some parent → tree.kind parent = .element tag →
      Lowering.isRawText tag = true → tree.InScript root id
  | control {parent id : NodeId} :
      tree.parent id = some parent → (tree.kind parent).isControl = true → tree.InScript root parent →
      tree.InScript root id

theorem Enters.inScript (wellFormed : tree.WellFormed) {region : Region} (enters : tree.Enters choices root id region)
    (raw : region.raw = true) : tree.InScript root id := by
  induction enters with
  | root => cases raw
  | @child parent id region above member hypothesis =>
      have linked := (wellFormed.linked _ _).1 member
      unfold Region.below at raw
      cases kind : tree.kind parent with
      | element tag =>
          rw [show (tree.node parent).kind = _ from kind] at raw
          exact .element (above.onPath wellFormed) linked kind raw
      | branch test =>
          rw [show (tree.node parent).kind = _ from kind] at raw
          exact .control linked (by rw [kind]; rfl) (hypothesis raw)
      | iteration item index source =>
          rw [show (tree.node parent).kind = _ from kind] at raw
          exact .control linked (by rw [kind]; rfl) (hypothesis raw)
      | _ =>
          rw [show (tree.node parent).kind = _ from kind] at raw
          cases raw

/-! ## Texts -/

/-- Is the text at the node to keep its whitespace? -/
def KeepsSpace (tree : Tree) (choices : Preservation) (root id : NodeId) : Prop :=
  choices.isTotal = true ∨ ∃ above, tree.IsAround root above id ∧ (tree.node above).keepsSpace choices = true

/-- Does nothing else than custom tags that are overlooked ask for the whitespace at the node to be kept? -/
def LosesSpace (tree : Tree) (choices : Preservation) (root id : NodeId) : Prop :=
  tree.KeepsSpace choices root id ∧ choices.isTotal = false ∧ ∀ above, tree.IsAround root above id →
    (tree.node above).keepsSpace choices = true → (tree.node above).isOverlooked choices = true

/-- Text with its whitespace collapsed, if anything of it is left. -/
def collapsed (value : String) : List Fragment :=
  match Text.collapse? value.toList with
  | some kept => [.text (String.ofList kept) true]
  | none => []

/-- Text outside of scripts and styles is written as it stands if it is to keep its whitespace, unless it loses it, and
collapsed otherwise. -/
def ShowsSpace (tree : Tree) (choices : Preservation) (root id : NodeId) (shown : List Fragment) : Prop :=
  ∀ value, tree.kind id = .text value → ¬tree.InScript root id →
    (tree.KeepsSpace choices root id ∧ ¬tree.LosesSpace choices root id → shown = [.text value true]) ∧
    (¬tree.KeepsSpace choices root id ∨ tree.LosesSpace choices root id → shown = collapsed value)

theorem keepsSpace_and_not_losesSpace_iff : tree.KeepsSpace choices root id ∧ ¬tree.LosesSpace choices root id ↔
    choices.isTotal = true ∨ ∃ above, tree.IsAround root above id ∧
      (tree.node above).keepsSpace choices = true ∧ (tree.node above).isOverlooked choices = false := by
  constructor
  · rintro ⟨keeps, holds⟩
    by_cases total : choices.isTotal = true
    · exact .inl total
    · by_contra none
      refine holds ⟨keeps, Bool.eq_false_iff.2 total, fun above around asks => ?_⟩
      by_contra counts
      exact none (.inr ⟨above, around, asks, Bool.eq_false_iff.2 counts⟩)
  · rintro (total | ⟨above, around, asks, counts⟩)
    · exact ⟨.inl total, fun loses => absurd (total.symm.trans loses.2.1) (by decide)⟩
    · exact ⟨.inr ⟨above, around, asks⟩, fun loses =>
        absurd ((loses.2.2 above around asks).symm.trans counts) (by decide)⟩

/-- However deep the constructs nest, the texts of a tree keep their whitespace or have it collapsed as the options and
the marks say, but for the custom tags that are overlooked. -/
theorem lower_showsSpace {fragments : List Fragment} {hoisted : List Declaration} (wellFormed : tree.WellFormed)
    (ran : tree.lower choices root = .ok (fragments, hoisted)) :
    Lowering.Renders tree (tree.ShowsSpace choices root) root fragments := by
  refine lower_renders wellFormed ran fun {id region value} enters kind other same outside => ?_
  obtain rfl : value = other := Kind.text.inj (kind.symm.trans same)
  have raw : region.raw = false := Bool.eq_false_iff.2 fun raw => outside (enters.inScript wellFormed raw)
  have preserve := keepsSpace_and_not_losesSpace_iff.trans (enters.preserve_iff wellFormed).symm
  constructor
  · intro keeps
    simp [Lowering.textFragment, raw, preserve.1 keeps]
  · intro collapses
    have unpreserved : region.preserve = false := by
      refine Bool.eq_false_iff.2 fun kept => ?_
      obtain ⟨keeps, holds⟩ := preserve.2 kept
      exact collapses.elim (fun refuses => refuses keeps) holds
    rw [Lowering.textFragment, raw, unpreserved]
    rfl

/-- A list in a form: the form is chosen in lower case, and text keeps its whitespace through a condition and a loop.
The custom tag behind it is not chosen, but marked. -/
theorem lower_showsSpace_form :
    let tree : Tree := { file := "page", nodes := [
      { kind := .document, children := [⟨1⟩, ⟨6⟩, ⟨8⟩] },
      { kind := .element "FORM", children := [⟨2⟩], parent := some ⟨0⟩ },
      { kind := .conditional, children := [⟨3⟩], parent := some ⟨1⟩ },
      { kind := .branch (some "data.open"), children := [⟨4⟩], parent := some ⟨2⟩ },
      { kind := .iteration "row" none "data.rows", children := [⟨5⟩], parent := some ⟨3⟩ },
      { kind := .text " a  b ", parent := some ⟨4⟩ },
      { kind := .customTag "x-card" "card.js", children := [⟨7⟩], parent := some ⟨0⟩, preserve := true },
      { kind := .text " \n", parent := some ⟨6⟩ },
      { kind := .text "c  d", parent := some ⟨0⟩ }] }
    let choices : Preservation := .tags (SortedMap.ofList [("form", true), ("x-card", false)])
    tree.WellFormed ∧ ∃ fragments hoisted, tree.lower choices ⟨0⟩ = .ok (fragments, hoisted) ∧
      fragments =
        [.element "FORM" [] [.branching [(some "data.open",
          [.loop "row" "row_index" "row_list" "data.rows" [.text " a  b " true]])]],
         .tagCall "x-card" "x_card_tag" [] [.text " \n" true], .text "c d" true] ∧
      Lowering.Renders tree (tree.ShowsSpace choices ⟨0⟩) ⟨0⟩ fragments := by
  intro tree choices
  have wellFormed : tree.WellFormed := Tree.Ordered.wellFormed (by decide)
  let fragments : List Fragment :=
    [.element "FORM" [] [.branching [(some "data.open",
      [.loop "row" "row_index" "row_list" "data.rows" [.text " a  b " true]])]],
     .tagCall "x-card" "x_card_tag" [] [.text " \n" true], .text "c d" true]
  have ran : tree.lower choices ⟨0⟩ =
      .ok (fragments, [{ name := "x_card_tag", init := "loadTag(require(\"card.js\"))" }]) := by
    with_unfolding_all rfl
  exact ⟨wellFormed, fragments, _, ran, rfl, lower_showsSpace wellFormed ran⟩

/-- A custom tag that is chosen to keep whitespace: the text in it has it collapsed. -/
theorem lower_showsSpace_card :
    let tree : Tree := { file := "page", nodes := [
      { kind := .document, children := [⟨1⟩] },
      { kind := .customTag "x-card" "card.js", children := [⟨2⟩], parent := some ⟨0⟩ },
      { kind := .text "a  b", parent := some ⟨1⟩ }] }
    let choices : Preservation := .tags (SortedMap.ofList [("x-card", true)])
    tree.WellFormed ∧ tree.KeepsSpace choices ⟨0⟩ ⟨2⟩ ∧ ¬tree.InScript ⟨0⟩ ⟨2⟩ ∧ ∃ hoisted,
      tree.lower choices ⟨0⟩ = .ok ([.tagCall "x-card" "x_card_tag" [] [.text "a b" true]], hoisted) := by
  intro tree choices
  have around : tree.IsAround ⟨0⟩ ⟨1⟩ ⟨2⟩ := ⟨.step rfl .self, .step rfl .self, by decide⟩
  refine ⟨Tree.Ordered.wellFormed (by decide), .inr ⟨⟨1⟩, around, by decide⟩, fun inScript => ?_, _,
    by with_unfolding_all rfl⟩
  cases inScript with
  | element _ linked kind _ =>
      cases linked
      cases kind
  | control linked control _ =>
      cases linked
      cases control

end Tree

/-!
## Where text is written as it stands

In scripts and styles text is written as it stands. Loops there pass this on to what they repeat. A conditional does
not: what its branches hold is written like text anywhere else, also in a loop inside of a branch.
-/

theorem Node.raw_below (choices : Preservation) (node : Node) (region : Region) :
    (region.below choices node).raw = true ↔
      (∃ tag, node.kind = .element tag ∧ Lowering.isRawText tag = true) ∨
        node.kind.isControl = true ∧ node.kind ≠ .conditional ∧ region.raw = true := by
  unfold Region.below
  cases node.kind with
  | _ => simp [Kind.isControl]

namespace Tree

variable {tree : Tree} {choices : Preservation} {root id parent : NodeId}

/-- The node is in a script or a style, with nothing but branches and loops between. -/
inductive InOpenScript (tree : Tree) (root : NodeId) : NodeId → Prop
  | element {parent id : NodeId} {tag : String} :
      tree.OnPath root parent → tree.parent id = some parent → tree.kind parent = .element tag →
      Lowering.isRawText tag = true → tree.InOpenScript root id
  | control {parent id : NodeId} :
      tree.parent id = some parent → (tree.kind parent).isControl = true → tree.kind parent ≠ .conditional →
      tree.InOpenScript root parent → tree.InOpenScript root id

theorem InOpenScript.inScript (opened : tree.InOpenScript root id) : tree.InScript root id := by
  induction opened with
  | element inside linked kind raw => exact .element inside linked kind raw
  | control linked control _ _ hypothesis => exact .control linked control hypothesis

theorem InScript.isAround (wellFormed : tree.WellFormed) (inScript : tree.InScript root id) :
    ∃ above, tree.IsAround root above id := by
  induction inScript with
  | @element parent id tag inside linked _ _ => exact ⟨parent, (isAround_iff wellFormed linked inside).2 (.inl rfl)⟩
  | @control parent id linked _ _ hypothesis =>
      obtain ⟨above, around⟩ := hypothesis
      exact ⟨above, (isAround_iff wellFormed linked (around.1.trans around.2.1)).2 (.inr around)⟩

/-- Whether a node is in a script with no conditional between is told by its parent. -/
theorem inOpenScript_iff (linked : tree.parent id = some parent) (inside : tree.OnPath root parent) :
    tree.InOpenScript root id ↔
      (∃ tag, tree.kind parent = .element tag ∧ Lowering.isRawText tag = true) ∨
        (tree.kind parent).isControl = true ∧ tree.kind parent ≠ .conditional ∧ tree.InOpenScript root parent := by
  constructor
  · intro opened
    cases opened with
    | element _ listed kind raw =>
        obtain rfl := Option.some.inj (listed.symm.trans linked)
        exact .inl ⟨_, kind, raw⟩
    | control listed control other opened =>
        obtain rfl := Option.some.inj (listed.symm.trans linked)
        exact .inr ⟨control, other, opened⟩
  · rintro (⟨tag, kind, raw⟩ | ⟨control, other, opened⟩)
    · exact .element inside linked kind raw
    · exact .control linked control other opened

/-- The lowering takes a node for one in a script exactly if no conditional is between. -/
theorem Enters.raw_iff (wellFormed : tree.WellFormed) {region : Region} (enters : tree.Enters choices root id region) :
    region.raw = true ↔ tree.InOpenScript root id := by
  induction enters with
  | root =>
      have outside : ¬tree.InOpenScript root root := fun opened =>
        not_isAround_root wellFormed (opened.inScript.isAround wellFormed).choose_spec
      simp [outside]
  | @child parent id region above member hypothesis =>
      have linked := (wellFormed.linked _ _).1 member
      rw [Node.raw_below, inOpenScript_iff linked (above.onPath wellFormed), ← hypothesis]
      rfl

/-- Text in scripts and styles is written as it stands if no conditional is between. Otherwise it is escaped, with its
whitespace kept or collapsed as anywhere else. -/
def ShowsRaw (tree : Tree) (choices : Preservation) (root id : NodeId) (shown : List Fragment) : Prop :=
  ∀ value, tree.kind id = .text value → tree.InScript root id →
    (tree.InOpenScript root id → shown = [.text value false]) ∧
    (¬tree.InOpenScript root id →
      (tree.KeepsSpace choices root id ∧ ¬tree.LosesSpace choices root id → shown = [.text value true]) ∧
      (¬(tree.KeepsSpace choices root id ∧ ¬tree.LosesSpace choices root id) → shown = collapsed value))

/-- However deep loops nest in a script, its texts are written as they stand; only a conditional has them escaped. -/
theorem lower_showsRaw {fragments : List Fragment} {hoisted : List Declaration} (wellFormed : tree.WellFormed)
    (ran : tree.lower choices root = .ok (fragments, hoisted)) :
    Lowering.Renders tree (tree.ShowsRaw choices root) root fragments := by
  refine lower_renders wellFormed ran fun {id region value} enters kind other same _ => ?_
  obtain rfl : value = other := Kind.text.inj (kind.symm.trans same)
  have raw := enters.raw_iff wellFormed
  constructor
  · intro opened
    simp [Lowering.textFragment, raw.2 opened]
  · intro screened
    have escaped : region.raw = false := Bool.eq_false_iff.2 fun written => screened (raw.1 written)
    rw [keepsSpace_and_not_losesSpace_iff, ← enters.preserve_iff wellFormed, Lowering.textFragment, escaped]
    cases region.preserve with
    | true => exact ⟨fun _ => rfl, fun refuses => absurd rfl refuses⟩
    | false => exact ⟨fun kept => absurd kept Bool.false_ne_true, fun _ => rfl⟩

/-- A script with a loop that has another loop in it: the text is written as it stands, blanks and signs of markup. -/
theorem lower_showsRaw_loops :
    let tree : Tree := { file := "page", nodes := [
      { kind := .document, children := [⟨1⟩] },
      { kind := .element "SCRIPT", children := [⟨2⟩], parent := some ⟨0⟩ },
      { kind := .iteration "row" none "data.rows", children := [⟨3⟩], parent := some ⟨1⟩ },
      { kind := .iteration "cell" none "row.cells", children := [⟨4⟩], parent := some ⟨2⟩ },
      { kind := .text "  if (a < b)  f();\n", parent := some ⟨3⟩ }] }
    tree.WellFormed ∧ tree.InOpenScript ⟨0⟩ ⟨4⟩ ∧ ∃ fragments hoisted,
      tree.lower .standard ⟨0⟩ = .ok (fragments, hoisted) ∧
      fragments =
        [.element "SCRIPT" [] [.loop "row" "row_index" "row_list" "data.rows"
          [.loop "cell" "cell_index" "cell_list" "row.cells" [.text "  if (a < b)  f();\n" false]]]] ∧
      Lowering.Renders tree (tree.ShowsRaw .standard ⟨0⟩) ⟨0⟩ fragments := by
  intro tree
  have wellFormed : tree.WellFormed := Tree.Ordered.wellFormed (by decide)
  have inner : tree.InOpenScript ⟨0⟩ ⟨2⟩ := .element (.step rfl .self) rfl rfl (by decide +kernel)
  have opened : tree.InOpenScript ⟨0⟩ ⟨4⟩ :=
    .control rfl rfl (by decide) (.control rfl rfl (by decide) inner)
  let fragments : List Fragment :=
    [.element "SCRIPT" [] [.loop "row" "row_index" "row_list" "data.rows"
      [.loop "cell" "cell_index" "cell_list" "row.cells" [.text "  if (a < b)  f();\n" false]]]]
  have ran : tree.lower .standard ⟨0⟩ = .ok (fragments, []) := by with_unfolding_all rfl
  exact ⟨wellFormed, opened, fragments, _, ran, rfl, lower_showsRaw wellFormed ran⟩

/-- A script with a condition: the text in the branch is escaped, as if it were markup. -/
theorem lower_showsRaw_branch :
    let tree : Tree := { file := "page", nodes := [
      { kind := .document, children := [⟨1⟩] },
      { kind := .element "script", children := [⟨2⟩], parent := some ⟨0⟩ },
      { kind := .conditional, children := [⟨3⟩], parent := some ⟨1⟩ },
      { kind := .branch (some "data.ready"), children := [⟨4⟩], parent := some ⟨2⟩ },
      { kind := .text "a < b", parent := some ⟨3⟩ }] }
    tree.WellFormed ∧ tree.InScript ⟨0⟩ ⟨4⟩ ∧ tree.lower .standard ⟨0⟩ =
      .ok ([.element "script" [] [.branching [(some "data.ready", [.text "a < b" true])]]], []) := by
  intro tree
  have inside : tree.InScript ⟨0⟩ ⟨2⟩ := .element (.step rfl .self) rfl rfl (by decide +kernel)
  exact ⟨Tree.Ordered.wellFormed (by decide), .control rfl rfl (.control rfl rfl inside), by with_unfolding_all rfl⟩

end Tree

end HtmlTemplate
