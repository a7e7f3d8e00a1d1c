import HtmlTemplate.Compilation
import HtmlTemplate.Proofs.Desugaring.Agreement
import HtmlTemplate.Proofs.Desugaring.Roots
import HtmlTemplate.Proofs.Lowering.Likeness
import HtmlTemplate.Proofs.Tree.Ancestry

/-!
# Interchangeable spellings

Documents that differ in the spellings of constructs only give the same module, or none at all.
-/

namespace HtmlTemplate

open HtmlTemplate.Tree

/-- What options say about tags. -/
def Options.laws (options : Options) : Laws :=
  { bound := options.maxTransformPasses, allows := options.allowUnknownTags }

/-- Is the node marked as one that keeps whitespace? -/
def Tree.marks (tree : Tree) (id : NodeId) : Bool :=
  (tree.node id).preserve

/-- What a walk with the core taglib and the generation of a module after it come to. -/
def Tree.produce (tree : Tree) (options : Options) (fuel : Nat) (root : NodeId) : Except Halt CodeModule :=
  match (Context.start tree options Registry.core).walk Registry.core fuel root with
  | (.error halt, _) => .error halt
  | (.ok _, context) => (CodeModule.generate context.tree context.options.preserveWhitespace root).mapError Halt.fault

variable {tree other : Tree} {options : Options} {context final start last : Context} {root top id instead : NodeId}
variable {form shape : Form} {forms left below : List Form} {marks others : NodeId → Bool}

/-! ## Walks from documents -/

/-- A walk from a node without a tag leaves what the forms below come to. -/
theorem Context.start_stays (wellFormed : tree.WellFormed) (untagged : (tree.kind root).tag? = none)
    (present : tree.Has root) (fuel : Nat) :
    Walk.Holds (Walk.Breaks options.laws (Form.settle options.laws (tree.form tree.size root).children))
      (Walk.start Registry.core fuel root) {} (Context.start tree options Registry.core) fun _ _ final =>
        ∃ below, Form.settle options.laws (tree.form tree.size root).children = some below ∧
          Walk.Leaves root ((tree.form tree.size root).withChildren below) (Context.start tree options Registry.core) final := by
  have governed : Walk.Governed options.laws (Context.start tree options Registry.core) :=
    ⟨rfl, funext fun tag => congrArg (Option.map TagEntry.rules) (Control.lookup?_core tag tree.file)⟩
  have plain : (tree.kind root).tag?.isSome ≠ true := by simp [untagged]
  have idle : Walk.Idle tree root := ⟨fun tagged => absurd tagged plain, fun tagged => absurd tagged plain⟩
  have refuses : options.laws.passes (tree.kind root) ≠ false := by
    cases kind : tree.kind root with
    | element tag =>
        rw [kind] at untagged
        cases untagged
    | _ => simp [Laws.passes]
  exact Walk.Meets.weaken (@Walk.holds_start_stays root (Context.start tree options Registry.core) options.laws
    (Walk.Breaks options.laws (Form.settle options.laws (tree.form tree.size root).children)) wellFormed governed rfl present
    idle (fun _ _ refused => absurd refused refuses) (fun _ breaks => breaks) fuel) (fun _ breaks => breaks)
    fun _ _ _ stays => stays.2

/-- A walk from a node without a tag succeeds exactly if the forms below come to something, and leaves just that. -/
theorem Context.walk_settle (wellFormed : tree.WellFormed) (untagged : (tree.kind root).tag? = none)
    (present : tree.Has root) (two : 2 ≤ options.maxTransformPasses) : ∃ enough, ∀ fuel, enough ≤ fuel →
      (Form.settle options.laws (tree.form tree.size root).children = none →
        ∃ fault, ((Context.start tree options Registry.core).walk Registry.core fuel root).1 = .error (.fault fault)) ∧
      ∀ below, Form.settle options.laws (tree.form tree.size root).children = some below →
        ∃ progress final, (Context.start tree options Registry.core).walk Registry.core fuel root = (.ok progress, final) ∧
          Walk.Leaves root ((tree.form tree.size root).withChildren below) (Context.start tree options Registry.core)
            final := by
  obtain ⟨enough, result, same, meets⟩ : Walk.Settles Walk.IsFault (fun fuel => Walk.start Registry.core fuel root) {}
    (Context.start tree options Registry.core) fun _ _ _ => True := Control.tame_core.settles_start wellFormed root
  refine ⟨enough, fun fuel large => ?_⟩
  have stays := @Context.start_stays tree options root wellFormed untagged present fuel
  have walked : Walk.start Registry.core fuel root {} (Context.start tree options Registry.core) = result := same fuel large
  unfold Walk.Holds at stays
  rw [walked] at stays
  rw [Context.walk, walked]
  rcases result with ⟨⟨halt | value, progress⟩, final⟩
  · obtain ⟨fault, rfl⟩ := meets
    refine ⟨fun _ => ⟨fault, rfl⟩, fun below settles => ?_⟩
    rcases stays with exhausted | stopped
    · cases exhausted
    · rw [stopped.2 two] at settles
      cases settles
  · obtain ⟨made, settles, leaves⟩ := stays
    refine ⟨fun none => ?_, fun below alike => ⟨progress, final, rfl, ?_⟩⟩
    · cases settles.symm.trans none
    · obtain rfl := Option.some.inj (settles.symm.trans alike)
      exact leaves

/-! ## What is left of alike trees -/

/-- Nodes that show the same forms in order correspond to each other. -/
theorem Form.Same.pairs {limit bound : Nat} {ids row : List NodeId} (same : Form.Same marks others forms left)
    (shown : List.Forall₂ (tree.Shows limit) forms ids) (seen : List.Forall₂ (other.Shows bound) left row) :
    List.Forall₂ (fun id instead => ∃ form shape, Form.Same marks others [form] [shape] ∧ tree.Shows limit form id ∧
      other.Shows bound shape instead) ids row := by
  induction same generalizing ids row with
  | nil =>
      cases shown
      cases seen
      exact .nil
  | cons kind attributes marked children _ _ hypothesis =>
      obtain ⟨id, ids, first, rest, rfl⟩ := List.forall₂_cons_left_iff.1 shown
      obtain ⟨instead, row, head, tail, rfl⟩ := List.forall₂_cons_left_iff.1 seen
      exact .cons ⟨_, _, .cons kind attributes marked children .nil, first, head⟩ (hypothesis rest tail)

theorem Form.isMarked_source (source : form.source = sourceOf tree.size id) :
    form.isMarked tree.marks = (tree.node id).preserve := by
  rw [isMarked, source, sourceOf]
  split
  · rfl
  · next absent => rw [node_of_not_has absent]; rfl

/-- The nodes that are left in two trees look the same, and are marked alike. -/
structure Walk.Twins (context final start last : Context) (root top id instead : NodeId) : Prop where
  onPath : final.tree.OnPath root id
  under : last.tree.OnPath top instead
  shown : ∃ form shape, Form.Same context.tree.marks start.tree.marks [form] [shape] ∧
    final.tree.Shows context.tree.size form id ∧ last.tree.Shows start.tree.size shape instead

/-- What is left in both trees is alike if the forms are. -/
theorem Walk.Leaves.likeness (leaves : Walk.Leaves root form context final) (ends : Walk.Leaves top shape start last) :
    Lowering.Likeness final.tree last.tree (Walk.Twins context final start last root top) where
  kind := by
    rintro id instead ⟨-, -, form, shape, same, shown, seen⟩
    obtain ⟨-, kind, -, -⟩ := shows_iff.1 shown
    obtain ⟨-, kindThere, -, -⟩ := shows_iff.1 seen
    cases same with
    | cons alike => rw [kind, kindThere, alike]
  attributes := by
    rintro id instead ⟨-, -, form, shape, same, shown, seen⟩
    obtain ⟨-, -, attributes, -⟩ := shows_iff.1 shown
    obtain ⟨-, -, attributesThere, -⟩ := shows_iff.1 seen
    cases same with
    | cons _ alike => rw [attributes, attributesThere, alike]
  preserve := by
    rintro id instead ⟨onPath, under, form, shape, same, shown, seen⟩
    obtain ⟨source, kind, -, -⟩ := shows_iff.1 shown
    obtain ⟨sourceThere, kindThere, -, -⟩ := shows_iff.1 seen
    cases same with
    | cons alike _ marked =>
        rw [Form.isMarked_source source, Form.isMarked_source sourceThere] at marked
        rw [(leaves.rests id onPath).preserve, (ends.rests instead under).preserve, marked, kind, kindThere, alike]
  children := by
    rintro id instead ⟨onPath, under, form, shape, same, shown, seen⟩
    obtain ⟨-, -, -, kids⟩ := shows_iff.1 shown
    obtain ⟨-, -, -, kidsThere⟩ := shows_iff.1 seen
    cases same with
    | cons _ _ _ children =>
        refine forall₂_imp_of_mem (children.pairs kids kidsThere) fun child member other among pair => ?_
        exact ⟨onPath.trans (.step ((leaves.wellFormed.linked id child).1 member) .self),
          under.trans (.step ((ends.wellFormed.linked instead other).1 among) .self), pair⟩

/-! ## Interchangeable spellings -/

theorem Form.Same.withChildren (kind : form.kind = shape.kind) (attributes : form.attributes = shape.attributes)
    (marked : form.isMarked marks = shape.isMarked others) (same : Form.Same marks others forms left) :
    Form.Same marks others [form.withChildren forms] [shape.withChildren left] := by
  cases form
  cases shape
  exact .cons kind attributes marked same .nil

/-- Documents stay documents in whatever spelling. -/
theorem Form.Alike.of_document {laws : Laws} (alike : Form.Alike laws marks others false [form] [shape])
    (document : form.kind = .document) : shape.kind = .document ∧ form.attributes = shape.attributes ∧
      form.isMarked marks = shape.isMarked others ∧ Form.Alike laws marks others false form.children shape.children := by
  generalize only : [form] = forms at alike
  generalize alone : [shape] = left at alike
  cases alike with
  | nil => cases only
  | cons kind attributes marked children =>
      cases only
      cases alone
      rw [document] at kind children
      refine ⟨?_, attributes, marked, children⟩
      cases same : shape.kind <;> rw [same] at kind <;> first | rfl | cases kind
  | spelledOut spelled =>
      cases only
      have common := spelled.common
      rw [document] at common
      cases common
  | moved takes =>
      cases only
      rw [document] at takes
      cases takes

theorem Tree.produce_of_fault {fuel : Nat} {fault : Fault}
    (stops : ((Context.start tree options Registry.core).walk Registry.core fuel root).1 = .error (.fault fault)) :
    tree.produce options fuel root = .error (.fault fault) := by
  rw [produce]
  generalize (Context.start tree options Registry.core).walk Registry.core fuel root = result at stops
  obtain ⟨outcome, context⟩ := result
  cases stops
  rfl

/-- The module for what a walk leaves, or the fault of its lowering. -/
theorem Tree.produce_of_walk {fuel : Nat} {progress : Progress}
    (walked : (Context.start tree options Registry.core).walk Registry.core fuel root = (.ok progress, final))
    (same : final.options = options) :
    tree.produce options fuel root =
      (CodeModule.generate final.tree options.preserveWhitespace root).mapError Halt.fault := by
  subst same
  rw [produce, walked]

/-- Documents that differ in the spellings of constructs only give the same module, or none at all. -/
theorem Tree.produce_alike (wellFormed : tree.WellFormed) (sound : other.WellFormed) (present : tree.Has root)
    (there : other.Has top) (document : tree.kind root = .document) (two : 2 ≤ options.maxTransformPasses)
    (alike : Form.Alike options.laws tree.marks other.marks false [tree.form tree.size root] [other.form other.size top]) :
    ∃ enough, ∀ fuel, enough ≤ fuel →
      (∃ made found, tree.produce options fuel root = .ok made ∧ other.produce options fuel top = .ok found ∧
        made.fragments = found.fragments ∧ made.hoisted = found.hoisted ∧ made.code = found.code) ∨
      ∃ fault cause, tree.produce options fuel root = .error (.fault fault) ∧
        other.produce options fuel top = .error (.fault cause) := by
  obtain ⟨-, kind, -, -⟩ := shows_iff.1 (wellFormed.shows_form tree.size root)
  obtain ⟨-, kindThere, -, -⟩ := shows_iff.1 (sound.shows_form other.size top)
  have sameKind : (tree.form tree.size root).kind = .document := kind.symm.trans document
  obtain ⟨documentThere, attributes, marked, children⟩ := alike.of_document sameKind
  obtain ⟨enough, walks⟩ := Context.walk_settle wellFormed (by rw [document]; rfl) present two
  obtain ⟨plenty, walksThere⟩ := Context.walk_settle sound (by rw [kindThere, documentThere]; rfl) there two
  refine ⟨max enough plenty, fun fuel large => ?_⟩
  obtain ⟨fails, leaves⟩ := walks fuel (le_trans (Nat.le_max_left _ _) large)
  obtain ⟨failsThere, leavesThere⟩ := walksThere fuel (le_trans (Nat.le_max_right _ _) large)
  have settles := Form.settle_alike children
  generalize below : Form.settle options.laws (tree.form tree.size root).children = forms at settles
  generalize belowThere : Form.settle options.laws (other.form other.size top).children = left at settles
  cases settles with
  | none =>
      obtain ⟨fault, walked⟩ := fails below
      obtain ⟨cause, walkedThere⟩ := failsThere belowThere
      exact .inr ⟨fault, cause, Tree.produce_of_fault walked, Tree.produce_of_fault walkedThere⟩
  | some same =>
      obtain ⟨progress, final, walked, leaves⟩ := leaves _ below
      obtain ⟨progressThere, last, walkedThere, ends⟩ := leavesThere _ belowThere
      have likeness := leaves.likeness ends
      have roots : Walk.Twins (Context.start tree options Registry.core) final (Context.start other options Registry.core)
          last root top root top :=
        ⟨.self, .self, _, _, Form.Same.withChildren (sameKind.trans documentThere.symm) attributes marked same,
          leaves.shown, ends.shown⟩
      have lowers := fun result => @Lowering.Likeness.lower_eq_ok_iff _ _ options.preserveWhitespace _ root top result
        likeness leaves.wellFormed ends.wellFormed roots
      rw [Tree.produce_of_walk walked leaves.lawful.options, Tree.produce_of_walk walkedThere ends.lawful.options]
      unfold CodeModule.generate
      cases lowered : final.tree.lower options.preserveWhitespace root with
      | ok result =>
          rw [(lowers result).1 lowered]
          exact .inl ⟨_, _, rfl, rfl, rfl, rfl, rfl⟩
      | error fault =>
          cases loweredThere : last.tree.lower options.preserveWhitespace top with
          | ok result =>
              rw [(lowers result).2 loweredThere] at lowered
              cases lowered
          | error cause => exact .inr ⟨fault, cause, rfl, rfl⟩



/-- An item with directives before an older tag with a branch inside, against both spelled out. -/
theorem Tree.produce_alike_item :
    let given (name text : String) : Attribute :=
      { name, value := { raw := text, segments := [.static text] }, position := {} }
    let short : Tree := { file := "page", nodes := [
      { kind := .document, children := [⟨1⟩, ⟨2⟩] },
      { kind := .element "li", attributes := [given "for" "x in xs", given "if" "x"], parent := some ⟨0⟩ },
      { kind := .element "c-if", attributes := [given "test" "y"], children := [⟨3⟩], parent := some ⟨0⟩ },
      { kind := .element "else", parent := some ⟨2⟩ }] }
    let long : Tree := { file := "page", nodes := [
      { kind := .document, children := [⟨1⟩, ⟨4⟩, ⟨5⟩] },
      { kind := .element "for", attributes := [given "each" "x in xs"], children := [⟨2⟩], parent := some ⟨0⟩ },
      { kind := .element "if", attributes := [given "test" "x"], children := [⟨3⟩], parent := some ⟨1⟩ },
      { kind := .element "li", parent := some ⟨2⟩ },
      { kind := .element "if", attributes := [given "test" "y"], parent := some ⟨0⟩ },
      { kind := .element "else", parent := some ⟨0⟩ }] }
    (short.produce {} 29 ⟨0⟩).isOk = true ∧ ∃ enough, ∀ fuel, enough ≤ fuel →
      (∃ made found, short.produce {} fuel ⟨0⟩ = .ok made ∧ long.produce {} fuel ⟨0⟩ = .ok found ∧
        made.fragments = found.fragments ∧ made.hoisted = found.hoisted ∧ made.code = found.code) ∨
      ∃ fault cause, short.produce {} fuel ⟨0⟩ = .error (.fault fault) ∧
        long.produce {} fuel ⟨0⟩ = .error (.fault cause) := by
  intro given short long
  refine ⟨by decide +kernel, Tree.produce_alike (Tree.Ordered.wellFormed (by decide)) (Tree.Ordered.wellFormed (by decide))
    (by decide) (by decide) rfl (by decide) ?_⟩
  have item : Form.SpelledOut (Options.laws {}) short.marks long.marks (short.form short.size ⟨1⟩) (long.form long.size ⟨1⟩)
      (long.form long.size ⟨3⟩) :=
    ⟨rfl, .inl (by decide), by decide, ⟨given "for" "x in xs", given "if" "x", long.form long.size ⟨2⟩, rfl, by decide, rfl,
      by decide, ⟨rfl, ⟨_, rfl⟩, rfl⟩, ⟨rfl, ⟨_, rfl⟩, rfl⟩⟩, rfl, by decide, rfl⟩
  refine .cons rfl rfl rfl (.spelledOut item .nil ?_) .nil
  exact @Form.Alike.moved _ _ _ _ _ [long.form long.size ⟨5⟩] _ _ rfl rfl rfl (.cons rfl rfl rfl .nil .nil) rfl .nil


/-- The second loop of an item with two loop headers comes before its condition, what is spelled out has passes of its
own, and only elements have older names. -/
theorem Tree.produce_apart :
    let given (name text : String) : Attribute :=
      { name, value := { raw := text, segments := [.static text] }, position := {} }
    let page (kind : Kind) (attributes : List Attribute) : Tree := { file := "page", nodes := [
      { kind := .document, children := [⟨1⟩] },
      { kind, attributes, parent := some ⟨0⟩ }] }
    let spelledOut (attributes : List Attribute) : Tree := { file := "page", nodes := [
      { kind := .document, children := [⟨1⟩] },
      { kind := .element "for", attributes := [given "each" "x in xs"], children := [⟨2⟩], parent := some ⟨0⟩ },
      { kind := .element "if", attributes := [given "test" "x"], children := [⟨3⟩], parent := some ⟨1⟩ },
      { kind := .element "li", attributes, parent := some ⟨2⟩ }] }
    let twice := page (.element "li") [given "for" "x in xs", given "for" "y in ys", given "if" "x"]
    let tested := page (.element "li") [given "for" "x in xs", given "if" "x", given "if" "y"]
    let older := page (.customTag "c-if" "tag.js") [given "test" "x"]
    let modern := page (.customTag "if" "tag.js") [given "test" "x"]
    (twice.WellFormed ∧ (spelledOut [given "for" "y in ys"]).WellFormed ∧ ∃ made found,
      twice.produce {} 29 ⟨0⟩ = .ok made ∧ (spelledOut [given "for" "y in ys"]).produce {} 29 ⟨0⟩ = .ok found ∧
        made.code ≠ found.code) ∧
    (tested.WellFormed ∧ (spelledOut [given "if" "y"]).WellFormed ∧ ∃ fault found,
      tested.produce { maxTransformPasses := 2 } 29 ⟨0⟩ = .error (.fault fault) ∧
        (spelledOut [given "if" "y"]).produce { maxTransformPasses := 2 } 29 ⟨0⟩ = .ok found) ∧
    older.WellFormed ∧ modern.WellFormed ∧ ∃ made found,
      older.produce {} 29 ⟨0⟩ = .ok made ∧ modern.produce {} 29 ⟨0⟩ = .ok found ∧ made.code ≠ found.code := by
  intro given page spelledOut twice tested older modern
  have codes : ∀ {first second : Except Halt CodeModule},
      (first.toOption.bind fun made => second.toOption.map fun found => made.code != found.code) = some true →
        ∃ made found, first = .ok made ∧ second = .ok found ∧ made.code ≠ found.code := by
    intro first second differ
    rcases first with halt | made
    · cases differ
    · rcases second with halt | found
      · cases differ
      · exact ⟨made, found, rfl, rfl, bne_iff_ne.1 (Option.some.inj differ)⟩
  have ordered := @Tree.Ordered.wellFormed
  refine ⟨⟨ordered (by decide), ordered (by decide), codes (by decide +kernel)⟩,
    ⟨ordered (by decide), ordered (by decide), ?_⟩, ordered (by decide), ordered (by decide), codes (by decide +kernel)⟩
  have stops : (Walk.faultOf (tested.produce { maxTransformPasses := 2 } 29 ⟨0⟩)).isSome = true := by decide +kernel
  have ends : ((spelledOut [given "if" "y"]).produce { maxTransformPasses := 2 } 29 ⟨0⟩).isOk = true := by decide +kernel
  obtain ⟨fault, stopped⟩ := Walk.eq_fault_of_faultOf stops
  generalize (spelledOut _).produce _ _ _ = second at ends ⊢
  rcases second with _ | found
  · cases ends
  · exact ⟨fault, found, stopped, rfl⟩

end HtmlTemplate
