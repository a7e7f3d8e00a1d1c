import HtmlTemplate.Proofs.Desugaring.Spelling

/-!
# What alike forms come to

Forms that differ in the spellings of constructs only stand for constructs with alike forms below. So they come to the
same, or all to nothing.
-/

namespace HtmlTemplate

open Control (entryOf mem_entries_of_entryOf)

/-! ## Options -/

variable {α β γ δ : Type} {related : α → β → Prop} {later : γ → δ → Prop}

theorem rel_bind {first : Option α} {second : Option β} {next : α → Option γ} {rest : β → Option δ}
    (begins : Option.Rel related first second)
    (goesOn : ∀ one other, related one other → Option.Rel later (next one) (rest other)) :
    Option.Rel later (first.bind next) (second.bind rest) := by
  cases begins with
  | none => exact .none
  | some holds => exact goesOn _ _ holds

theorem rel_bind_same {first : Option α} {next : α → Option γ} {rest : α → Option δ}
    (goesOn : ∀ one, first = some one → Option.Rel later (next one) (rest one)) :
    Option.Rel later (first.bind next) (first.bind rest) := by
  cases first with
  | none => exact .none
  | some one => exact goesOn one rfl

theorem rel_self {always : α → α → Prop} {first : Option α} (holds : ∀ one, first = some one → always one one) :
    Option.Rel always first first := by
  cases first with
  | none => exact .none
  | some one => exact .some (holds one rfl)

theorem rel_map {change : α → γ} {instead : β → δ} {first : Option α} {second : Option β}
    (holds : Option.Rel (fun one other => later (change one) (instead other)) first second) :
    Option.Rel later (first.map change) (second.map instead) := by
  cases holds with
  | none => exact .none
  | some holds => exact .some holds

namespace Form

variable {form other head inner loop : Form} {forms rest left : List Form} {laws : Laws} {marks others : NodeId → Bool}
variable {within : Bool} {name : String}

/-! ## What alike forms stand for -/

theorem Alike.construct {kind : Kind} {below kept : List Form} (plain : kind.takesBranches = false)
    (children : Alike laws marks others false below kept) (more : Alike laws marks others within rest left) :
    Alike laws marks others within (construct kind below :: rest) (construct kind kept :: left) :=
  .cons rfl rfl rfl (by rw [show (Form.construct kind below).kind = kind from rfl, plain]; exact children) more

/-- Branch tags that are alike stand for like branches. -/
theorem branches_alike (tags : List.Forall₂ (BranchAlike laws marks others) forms left) (closed : Bool) :
    Option.Rel (Alike laws marks others false) (branches closed forms) (branches closed left) := by
  induction tags generalizing closed with
  | nil => cases closed <;> exact .some .nil
  | @cons form other forms left alike _ hypothesis =>
      cases closed with
      | true => exact .none
      | false =>
          have test : form.test? = other.test? := by
            unfold test? hasOnly code? attribute?
            rw [isTested_congr alike.kind, alike.attributes]
          simp only [branches, ← test]
          refine rel_bind_same fun found _ => rel_bind_same fun kind passes => ?_
          obtain ⟨-, rfl⟩ := checked_eq_some_iff.1 passes
          exact rel_bind (hypothesis found.isNone) fun _ _ others => .some (.construct rfl alike.children others)

/-- What an `<if>` stands for with these children and branch tags, if these siblings are left. -/
def lowerWith (form : Form) (kept tags left : List Form) : Option (Form × List Form) := do
  if form.hasOnly ["test", "for"] then
    let test ← form.code? "test"
    let kind ← checked (.branch (some test))
    let others ← branches false tags
    let conditional := construct .conditional (construct kind kept :: others)
    match form.attribute? "for" with
    | none => return (conditional, left)
    | some header => do
        let loop ← loop? header.value.asCode
        return (construct loop [conditional], left)
  else none

theorem lowerIf_eq (form : Form) (rest : List Form) : form.lowerIf rest =
    form.lowerWith (form.children.filter fun child => !child.isBranch)
      (form.children.filter isBranch ++ (takeFollowing rest).1) (takeFollowing rest).2 :=
  rfl

/-- What two forms stand for, with the siblings that they leave, is alike. -/
structure Goes (laws : Laws) (marks others : NodeId → Bool) (within : Bool) (given found : Form × List Form) : Prop where
  kind : given.1.kind = found.1.kind
  attributes : given.1.attributes = found.1.attributes
  marked : given.1.isMarked marks = found.1.isMarked others
  children : Alike laws marks others false given.1.children found.1.children
  left : Alike laws marks others within given.2 found.2

theorem goes_construct {kind : Kind} {below kept : List Form} (children : Alike laws marks others false below kept)
    (more : Alike laws marks others within rest left) :
    Goes laws marks others within (construct kind below, rest) (construct kind kept, left) :=
  ⟨rfl, rfl, rfl, children, more⟩

theorem lowerWith_goes {kept tags below found : List Form} (attributes : form.attributes = other.attributes)
    (children : Alike laws marks others false kept below)
    (alike : List.Forall₂ (BranchAlike laws marks others) tags found) (more : Alike laws marks others within rest left) :
    Option.Rel (Goes laws marks others within) (form.lowerWith kept tags rest) (other.lowerWith below found left) := by
  unfold lowerWith hasOnly code? attribute?
  rw [attributes]
  split
  · refine rel_bind_same fun test _ => rel_bind_same fun kind passes => ?_
    refine rel_bind (branches_alike alike false) fun _ _ following => ?_
    obtain ⟨-, rfl⟩ := checked_eq_some_iff.1 passes
    have conditional := @Alike.construct _ _ laws marks others _ (.branch (some test)) _ _ rfl children following
    split
    · exact .some (goes_construct conditional more)
    · exact rel_bind_same fun loop _ => .some (goes_construct (.construct rfl conditional .nil) more)
  · exact .none

theorem lowerFor_goes (attributes : form.attributes = other.attributes)
    (children : Alike laws marks others false form.children other.children)
    (more : Alike laws marks others within rest left) :
    Option.Rel (fun head found => Goes laws marks others within (head, rest) (found, left)) form.lowerFor other.lowerFor := by
  unfold lowerFor hasOnly code? attribute?
  rw [attributes]
  split
  · refine rel_bind_same fun header _ => rel_bind_same fun loop _ => ?_
    split
    · exact .some (goes_construct children more)
    · refine rel_bind_same fun test _ => ?_
      simp only [conditional?, Option.bind_eq_bind, Option.bind_assoc]
      refine rel_bind_same fun kind passes => ?_
      obtain ⟨-, rfl⟩ := checked_eq_some_iff.1 passes
      exact .some (goes_construct (.construct rfl (.construct rfl children .nil) .nil) more)
  · exact .none

/-- Where there is a tag there is no text. -/
theorem textOf_of_tagged (tagged : form.kind.tag? ≠ none) : textOf (form :: rest) = none := by
  rw [textOf]
  cases kind : form.kind <;> first | rfl | exact absurd (by rw [kind]; rfl) tagged

theorem textOf_alike (alike : Alike laws marks others within forms left) : textOf forms = textOf left := by
  induction alike with
  | nil => rfl
  | @cons within form other rest left kind _ _ _ _ _ hypothesis =>
      by_cases untagged : form.kind.tag? = none
      · rw [textOf, textOf, ← eq_of_modern kind untagged, hypothesis]
      · rw [textOf_of_tagged untagged, textOf_of_tagged (tag?_ne_none_of_modern kind untagged)]
  | spelledOut spelled =>
      rw [textOf_of_tagged (Kind.tag?_ne_none_of_isCommon spelled.common),
        textOf_of_tagged (by rw [spelled.loop_kind]; exact Option.some_ne_none "for")]
  | moved takes kind =>
      have tagged := tag?_ne_none_of_takesBranches takes
      rw [textOf_of_tagged tagged, textOf_of_tagged (tag?_ne_none_of_modern kind tagged)]

theorem lowerComment_goes (attributes : form.attributes = other.attributes)
    (children : Alike laws marks others false form.children other.children)
    (more : Alike laws marks others within rest left) :
    Option.Rel (fun head found => Goes laws marks others within (head, rest) (found, left)) form.lowerComment
      other.lowerComment := by
  unfold lowerComment hasOnly
  rw [attributes, textOf_alike children]
  split
  · exact rel_bind_same fun value _ => rel_bind_same fun kind _ => .some (goes_construct .nil more)
  · exact .none

theorem lowerDirective_goes (common : form.kind.isCommon = true) (kind : form.kind = other.kind)
    (attributes : form.attributes = other.attributes) (marked : form.isMarked marks = other.isMarked others)
    (children : Alike laws marks others false form.children other.children)
    (more : Alike laws marks others within rest left) :
    Option.Rel (fun head found => Goes laws marks others within (head, rest) (found, left)) form.lowerDirective
      other.lowerDirective := by
  have bare : ∀ name, Alike laws marks others false [form.without name] [other.without name] := by
    intro name
    refine .cons (congrArg Kind.modern kind) ?_ marked ?_ .nil
    · simp only [without, Form.attributes] at attributes ⊢
      rw [attributes]
    · rw [show (form.without name).kind = form.kind from rfl, takesBranches_of_isCommon common]
      exact children
  unfold lowerDirective
  have header : form.loopHeader? = other.loopHeader? := by
    unfold loopHeader? attribute?
    rw [attributes]
  have condition : form.attribute? "if" = other.attribute? "if" := by
    unfold attribute?
    rw [attributes]
  rw [← header, ← condition]
  split
  · exact rel_bind_same fun loop _ => .some (goes_construct (bare "for") more)
  · split
    · split
      · exact .none
      · refine rel_bind_same fun kind passes => ?_
        obtain ⟨-, rfl⟩ := checked_eq_some_iff.1 passes
        exact .some (goes_construct (.construct rfl (bare "if") .nil) more)
    · exact .some ⟨kind, attributes, marked, children, more⟩

/-- Control tags have one of five modern names. -/
theorem modernTag_of_known {tag : String} (known : (entryOf tag).isSome = true) :
    modernTag tag ∈ ["if", "else-if", "else", "for", "html-comment"] := by
  obtain ⟨entry, found⟩ := Option.isSome_iff_exists.1 known
  obtain ⟨listed, name⟩ := mem_entries_of_entryOf found
  simp only [Control.entries, List.mem_cons, List.not_mem_nil, or_false] at listed
  rcases listed with rfl | rfl | rfl | rfl | rfl | rfl | rfl | rfl | rfl <;> subst name <;> decide

/-- What an element stands for that is written with a modern name. -/
theorem rewrite_goes {tag : String} (kind : form.kind = .element tag) (otherKind : other.kind = .element tag)
    (attributes : form.attributes = other.attributes) (marked : form.isMarked marks = other.isMarked others)
    (children : Alike laws marks others form.kind.takesBranches form.children other.children)
    (more : Alike laws marks others within rest left) :
    Option.Rel (Goes laws marks others within) (form.rewrite rest) (other.rewrite left) := by
  have plain : modernTag tag ≠ "if" → Alike laws marks others false form.children other.children := by
    intro different
    rw [kind, Kind.takesBranches, beq_eq_false_iff_ne.2 different] at children
    exact children
  have tagged : form.tag? = some tag := by rw [tag?, kind]
  have otherTagged : other.tag? = some tag := by rw [tag?, otherKind]
  cases listed : entryOf tag with
  | none =>
      have common : form.kind.isCommon = true := by rw [kind, Kind.isCommon, listed]; rfl
      rw [Walk.rewrite_of_unknown tagged listed, Walk.rewrite_of_unknown otherTagged listed]
      rw [takesBranches_of_isCommon common] at children
      exact rel_map (lowerDirective_goes common (kind.trans otherKind.symm) attributes marked children more)
  | some entry =>
      unfold rewrite
      rw [tagged, otherTagged]
      dsimp only
      split
      · next isIf =>
          rw [kind, Kind.takesBranches, isIf] at children
          obtain ⟨kept, tags⟩ := children.filter
          obtain ⟨following, remaining⟩ := more.takeFollowing
          rw [lowerIf_eq, lowerIf_eq]
          exact lowerWith_goes attributes kept (List.rel_append tags following) remaining
      · next isFor => exact rel_map (lowerFor_goes attributes (plain (by rw [isFor]; decide)) more)
      · next isComment => exact rel_map (lowerComment_goes attributes (plain (by rw [isComment]; decide)) more)
      · exact .none
      · exact .none
      · next notIf notFor notComment notElseIf notElse =>
          have named := modernTag_of_known (by rw [listed]; rfl)
          simp only [List.mem_cons, List.not_mem_nil, or_false] at named
          rcases named with same | same | same | same | same
          · exact absurd same notIf
          · exact absurd same notElseIf
          · exact absurd same notElse
          · exact absurd same notFor
          · exact absurd same notComment

/-- Forms of one kind with alike children stand for the same, in view of alike siblings. -/
theorem lower_goes (kind : form.kind = other.kind) (attributes : form.attributes = other.attributes)
    (marked : form.isMarked marks = other.isMarked others)
    (children : Alike laws marks others form.kind.takesBranches form.children other.children)
    (more : Alike laws marks others within rest left) :
    Option.Rel (Goes laws marks others within) (form.lower rest) (other.lower left) := by
  cases own : form.kind with
  | element tag =>
      rw [lower_element own, lower_element (kind.symm.trans own)]
      exact rewrite_goes own (kind.symm.trans own) attributes marked children more
  | customTag name renderer =>
      have otherOwn := kind.symm.trans own
      rw [lower_customTag own, lower_customTag otherOwn]
      split
      · next older =>
          refine @rewrite_goes (Walk.renamed form (modernTag name)) (Walk.renamed other (modernTag name)) _ _ laws marks
            others _ _ rfl rfl attributes marked ?_ more
          have same : (Kind.element (modernTag name)).takesBranches = form.kind.takesBranches := by
            have listed := modernTag_ne older
            rw [own]
            simp only [List.mem_cons, Prod.mk.injEq, List.not_mem_nil, or_false] at listed
            rcases listed with ⟨rfl, -⟩ | ⟨rfl, -⟩ | ⟨rfl, -⟩ | ⟨rfl, -⟩ <;> rfl
          rw [← same] at children
          exact children
      · next modern =>
          split
          · exact .none
          · next neither =>
              have common : form.kind.isCommon = true := by
                rw [own, Kind.isCommon]
                simpa [and_assoc] using And.intro (not_not.1 modern) neither
              rw [takesBranches_of_isCommon common] at children
              exact rel_map (lowerDirective_goes common kind attributes marked children more)
  | _ =>
      have untagged : form.kind.tag? = none := by rw [own]; rfl
      rw [lower_untagged untagged, lower_untagged (kind ▸ untagged)]
      rw [takesBranches_of_untagged untagged] at children
      exact .some ⟨kind, attributes, marked, children, more⟩

/-- Forms of one kind but for the names of their tags, with alike children, stand for the same under the laws. -/
theorem mean_goes (kind : form.kind.modern = other.kind.modern) (attributes : form.attributes = other.attributes)
    (marked : form.isMarked marks = other.isMarked others)
    (children : Alike laws marks others form.kind.takesBranches form.children other.children)
    (more : Alike laws marks others within rest left) :
    Option.Rel (Goes laws marks others within) (form.mean laws rest) (other.mean laws left) := by
  rw [← takesBranches_modern] at children
  rw [← mean_modern form, ← mean_modern other]
  have allowed : form.modern.isAllowed laws = other.modern.isAllowed laws := by
    rw [isAllowed, isAllowed, show form.modern.kind = other.modern.kind from kind,
      show form.modern.attributes = other.modern.attributes from attributes]
  unfold mean
  rw [allowed]
  split
  · exact @lower_goes form.modern other.modern _ _ laws marks others _ kind attributes marked children more
  · exact .none

/-- A control tag stands for what its modern name says. -/
theorem mean_of_known {tag : String} (kind : form.kind = .element tag) (known : (entryOf tag).isSome = true) :
    form.mean laws rest = (Walk.renamed form (modernTag tag)).rewrite rest := by
  have control : (Kind.element tag).isCommon = false := by rw [Kind.isCommon, Option.isNone_eq_false_iff, known]
  have allowed : form.isAllowed laws = true := by
    rw [isAllowed, kind, control]
    simp [Laws.passes, Laws.accepts, known]
  rw [mean, if_pos allowed, lower_element kind]
  by_cases older : modernTag tag = tag
  · rw [older, show Walk.renamed form tag = form from Form.ext rfl kind.symm rfl rfl]
  · exact (Walk.rewrite_renamed (by rw [tag?, kind]) (modernTag_ne older)).symm

/-- Tags that take branch tags stand for conditionals. -/
theorem mean_of_takesBranches (takes : form.kind.takesBranches = true) : form.mean laws rest = form.lowerIf rest := by
  cases kind : form.kind with
  | element tag =>
      rw [kind, Kind.takesBranches, beq_iff_eq] at takes
      have known : (entryOf tag).isSome = true := by
        by_contra unknown
        have common : (Kind.element tag).isCommon = true := by
          rw [Kind.isCommon, Option.isNone_iff_eq_none]
          simpa using unknown
        rw [← modern_of_isCommon common, Kind.modern, takes] at common
        cases common
      rw [mean_of_known kind known, takes]
      rfl
  | customTag name renderer =>
      rw [kind, Kind.takesBranches, beq_iff_eq] at takes
      subst takes
      have allowed : form.isAllowed laws = true := by
        rw [isAllowed, kind]
        rfl
      rw [mean, if_pos allowed, lower_customTag kind, if_pos (by decide)]
      rfl
  | _ =>
      rw [kind] at takes
      cases takes

theorem takeFollowing_append {tags : List Form} (branches : ∀ tag ∈ tags, tag.isBranch = true) :
    takeFollowing (tags ++ left) = (tags ++ (takeFollowing left).1, (takeFollowing left).2) := by
  induction tags with
  | nil => rfl
  | cons tag tags hypothesis =>
      have branch := branches tag List.mem_cons_self
      have others := hypothesis fun other member => branches other (List.mem_cons_of_mem _ member)
      rw [List.cons_append, takeFollowing, (of_isBranch branch).1, if_neg Bool.false_ne_true, if_pos branch, others]
      rfl

/-- An `<if>` with branch tags inside stands for what it stands for with the branch tags behind it. -/
theorem mean_moved {below : List Form} (takes : form.kind.takesBranches = true) (kind : form.kind.modern = other.kind.modern)
    (attributes : form.attributes = other.attributes) (inside : Alike laws marks others true form.children below)
    (children : other.children = below.filter fun child => !child.isBranch)
    (more : Alike laws marks others false rest left) :
    Option.Rel (Goes laws marks others false) (form.mean laws rest)
      (other.mean laws (below.filter isBranch ++ left)) := by
  have otherTakes : other.kind.takesBranches = true := by
    rw [← takesBranches_modern, ← kind, takesBranches_modern, takes]
  have branches : ∀ tag ∈ below.filter isBranch, tag.isBranch = true := fun _ member => (List.mem_filter.1 member).2
  have kept : (below.filter fun child => !child.isBranch).filter (fun child => !child.isBranch) =
      below.filter fun child => !child.isBranch := by
    rw [List.filter_filter]
    simp
  have none : (below.filter fun child => !child.isBranch).filter isBranch = [] := by
    rw [List.filter_filter]
    simp
  obtain ⟨alike, tags⟩ := inside.filter
  obtain ⟨following, remaining⟩ := more.takeFollowing
  rw [mean_of_takesBranches takes, mean_of_takesBranches otherTakes, lowerIf_eq, lowerIf_eq, children, kept, none,
    takeFollowing_append branches]
  exact lowerWith_goes attributes alike (List.rel_append tags following) remaining

/-! ## Directives that are spelled out -/

/-- A loop around a form stands for the loop, with the form in it. -/
theorem Encloses.mean_for {value : Value} (encloses : form.Encloses "for" "each" value inner)
    (given : value.asCode ≠ "") :
    form.mean laws rest = (loop? value.asCode).map fun kind => (construct kind [inner], rest) := by
  obtain ⟨position, attributes⟩ := encloses.attributes
  have lowers : form.lowerFor = (loop? value.asCode).map fun kind => construct kind [inner] := by
    unfold lowerFor hasOnly code? attribute?
    rw [attributes, encloses.children]
    simp [given, Option.map_eq_bind]
  rw [mean_of_known encloses.kind rfl]
  change form.lowerFor.map (fun head => (head, rest)) = _
  rw [lowers, Option.map_map]
  rfl

/-- A conditional around a form that no branch tag follows. -/
theorem Encloses.mean_if {value : Value} (encloses : form.Encloses "if" "test" value inner)
    (given : value.asCode ≠ "") (plain : inner.isBranch = false) :
    form.mean laws [] =
      (checked (.branch (some value.asCode))).map fun kind => (construct .conditional [construct kind [inner]], []) := by
  obtain ⟨position, attributes⟩ := encloses.attributes
  rw [mean_of_takesBranches (by rw [encloses.kind]; rfl), lowerIf_eq]
  unfold lowerWith hasOnly code? attribute?
  rw [attributes, encloses.children]
  simp [given, plain, takeFollowing, branches, Option.map_eq_bind]

theorem attribute?_without {other : String} (different : other ≠ name) :
    (form.without name).attribute? other = form.attribute? other := by
  rw [attribute?_eq_head?, attribute?_eq_head?, without, attributes]
  refine congrArg List.head? (filter_eraseP_of_disjoint _ fun one named => ?_)
  rw [beq_iff_eq] at named
  rw [beq_eq_false_iff_ne, named]
  exact different.symm

/-- A tag with a loop header stands for a loop around the tag without it. -/
theorem mean_of_header {header : Attribute} (common : form.kind.isCommon = true) (passes : laws.passes form.kind = true)
    (bounded : directives form.attributes ≤ laws.bound) (carried : form.attribute? "for" = some header)
    (loops : isHeader header = true) :
    form.mean laws rest = (loop? header.value.asCode).map fun kind => (construct kind [form.without "for"], rest) := by
  have allowed : form.isAllowed laws = true := by simp [isAllowed, passes, bounded]
  have found : form.loopHeader? = some header.value.asCode := loopHeader?_eq_some_iff.2 ⟨header, carried, loops, rfl⟩
  rw [mean, if_pos allowed, lower_of_common common, lowerDirective, found]
  simp [Option.map_eq_bind, Option.bind_assoc]

/-- A tag with a condition alone stands for a conditional around the tag without it. -/
theorem mean_of_condition {test : Attribute} (common : form.kind.isCommon = true) (passes : laws.passes form.kind = true)
    (bounded : directives form.attributes ≤ laws.bound) (none : form.loopHeader? = none)
    (carried : form.attribute? "if" = some test) (given : test.value.asCode ≠ "") :
    form.mean laws rest = (checked (.branch (some test.value.asCode))).map fun kind =>
      (construct .conditional [construct kind [form.without "if"]], rest) := by
  have allowed : form.isAllowed laws = true := by simp [isAllowed, passes, bounded]
  rw [mean, if_pos allowed, lower_of_common common, lowerDirective, none, carried]
  simp [conditional?, given, Option.map_eq_bind, Option.bind_assoc]

/-! ## What alike forms come to -/

/-- Siblings with the same kinds, attributes and marks, and so on below. -/
inductive Same (marks others : NodeId → Bool) : List Form → List Form → Prop
  | nil : Same marks others [] []
  | cons {form other : Form} {rest left : List Form} : form.kind = other.kind → form.attributes = other.attributes →
      form.isMarked marks = other.isMarked others → Same marks others form.children other.children →
      Same marks others rest left → Same marks others (form :: rest) (other :: left)

/-- What two forms stand for looks the same, and what is below and beside comes to the same. -/
structure Meets (laws : Laws) (marks others : NodeId → Bool) (given found : Form × List Form) : Prop where
  kind : given.1.kind = found.1.kind
  attributes : given.1.attributes = found.1.attributes
  marked : given.1.isMarked marks = found.1.isMarked others
  children : Option.Rel (Same marks others) (settle laws given.1.children) (settle laws found.1.children)
  left : Option.Rel (Same marks others) (settle laws given.2) (settle laws found.2)

theorem settle_meets (meets : Option.Rel (Meets laws marks others) (form.mean laws rest) (other.mean laws left)) :
    Option.Rel (Same marks others) (settle laws (form :: rest)) (settle laws (other :: left)) := by
  rw [settle_cons, settle_cons]
  refine rel_bind meets fun given found alike => ?_
  refine rel_bind alike.children fun _ _ below => rel_bind alike.left fun _ _ beside => .some ?_
  obtain ⟨⟨source, kind, attributes, kids⟩, _⟩ := given
  obtain ⟨⟨otherSource, otherKind, otherAttributes, otherKids⟩, _⟩ := found
  exact .cons alike.kind alike.attributes alike.marked below beside

/-- Nothing comes to anything if nothing below does. -/
theorem settle_cons_eq_none
    (below : ∀ head left, form.mean laws rest = some (head, left) → settle laws head.children = none) :
    settle laws (form :: rest) = none := by
  rw [settle_cons]
  cases means : form.mean laws rest with
  | none => rfl
  | some given =>
      obtain ⟨head, left⟩ := given
      simp [below head left means]

variable {condition : Form}

/-- A tag that is refused comes to nothing inside of a loop and a conditional either. -/
theorem settle_encloses_eq_none {header test : Value} (outer : loop.Encloses "for" "each" header condition)
    (middle : condition.Encloses "if" "test" test inner) (headed : header.asCode ≠ "") (tested : test.asCode ≠ "")
    (plain : inner.isBranch = false) (refused : ∀ rest, inner.mean laws rest = none) : settle laws (loop :: left) = none := by
  have inside : ∀ rest, settle laws (inner :: rest) = none := fun rest => by rw [settle_cons, refused]; rfl
  refine settle_cons_eq_none fun head _ means => ?_
  rw [outer.mean_for headed] at means
  obtain ⟨kind, -, same⟩ := Option.map_eq_some_iff.1 means
  obtain ⟨rfl, -⟩ := Prod.mk.inj same
  refine settle_cons_eq_none fun head _ means => ?_
  rw [middle.mean_if tested plain] at means
  obtain ⟨kind, passes, same⟩ := Option.map_eq_some_iff.1 means
  obtain ⟨-, rfl⟩ := checked_eq_some_iff.1 passes
  obtain ⟨rfl, -⟩ := Prod.mk.inj same
  refine settle_cons_eq_none fun head _ means => ?_
  rw [mean_untagged rfl] at means
  obtain ⟨rfl, -⟩ := Prod.mk.inj (Option.some.inj means)
  exact inside []

/-- Directives come to what they come to when they are spelled out, if lighter forms that are alike come to the same. -/
theorem SpelledOut.settles (spelled : SpelledOut laws marks others form loop inner)
    (children : Alike laws marks others false form.children inner.children)
    (beside : Option.Rel (Same marks others) (settle laws rest) (settle laws left))
    (onward : ∀ first second, weightAll first < weightAll (form :: rest) → Alike laws marks others false first second →
      Option.Rel (Same marks others) (settle laws first) (settle laws second)) :
    Option.Rel (Same marks others) (settle laws (form :: rest)) (settle laws (loop :: left)) := by
  obtain ⟨header, test, condition, carried, loops, tested, given, outer, middle⟩ := spelled.spells
  have common := spelled.common
  have headed : header.value.asCode ≠ "" := by
    intro empty
    rw [isHeader, empty] at loops
    simp [show LoopHeader.parse? "" = none from rfl] at loops
  have plain : inner.isBranch = false := (of_isCommon (by rw [spelled.kind, common])).2
  have lost := directives_without_for (loopHeader?_eq_some_iff.2 ⟨header, carried, loops, rfl⟩)
  have testedThere : (form.without "for").attribute? "if" = some test := by
    rw [attribute?_without (by decide), tested]
  have less := directives_without_if testedThere
  cases allowed : form.isAllowed laws with
  | false =>
      have refused : inner.isAllowed laws = false := by
        have bounded := spelled.bounded
        rw [isAllowed, common] at allowed
        rw [isAllowed, spelled.kind, common, spelled.attributes]
        simp only [Bool.not_true, Bool.false_or, Bool.and_eq_false_imp, decide_eq_false_iff_not] at allowed ⊢
        intro passes
        have excess := allowed passes
        omega
      have none : settle laws (form :: rest) = Option.none := by
        rw [settle_cons, mean_of_refused allowed]
        rfl
      rw [none, settle_encloses_eq_none outer middle headed given plain fun rest => mean_of_refused refused]
      exact .none
  | true =>
      obtain ⟨passes, bounded⟩ : laws.passes form.kind = true ∧ directives form.attributes ≤ laws.bound := by
        rw [isAllowed, common] at allowed
        simpa using allowed
      have first := @weight_without form "for" (by rw [carried]; rfl)
      have second := @weight_without (form.without "for") "if" (by rw [testedThere]; rfl)
      refine settle_meets ?_
      rw [mean_of_header common passes bounded carried loops, outer.mean_for headed]
      refine rel_map (rel_self fun kind _ => ⟨rfl, rfl, rfl, settle_meets ?_, beside⟩)
      rw [@mean_of_condition (form.without "for") _ _ _ common passes (by omega) spelled.single testedThere given,
        middle.mean_if given plain]
      refine rel_map (rel_self fun kind passes => ?_)
      obtain ⟨-, rfl⟩ := checked_eq_some_iff.1 passes
      refine ⟨rfl, rfl, rfl, onward _ _ ?_ (.construct rfl ?_ .nil), ?_⟩
      · change weightAll [construct (.branch (some test.value.asCode)) [(form.without "for").without "if"]] < _
        simp only [weight_construct, weightAll, ownWeight]
        omega
      · refine .cons ?_ spelled.attributes.symm spelled.marked ?_ .nil
        · exact congrArg Kind.modern spelled.kind.symm
        · rw [show ((form.without "for").without "if").kind = form.kind from rfl, takesBranches_of_isCommon common]
          exact children
      · change Option.Rel (Same marks others) (settle laws []) (settle laws [])
        rw [settle_nil]
        exact .some .nil

/-- Forms that differ in spellings only come to the same, or all to nothing. The induction is on what there is to
rewrite. -/
theorem settle_alike (alike : Alike laws marks others false forms left) :
    Option.Rel (Same marks others) (settle laws forms) (settle laws left) := by
  induction size : weightAll forms using Nat.strong_induction_on generalizing forms left with
  | h weight hypothesis =>
      subst size
      have ofGoes : ∀ {form other : Form} {rest left : List Form}, weightAll (form :: rest) ≤ weightAll forms →
          Option.Rel (Goes laws marks others false) (form.mean laws rest) (other.mean laws left) →
          Option.Rel (Same marks others) (settle laws (form :: rest)) (settle laws (other :: left)) := by
        intro form other rest left within goes
        refine settle_meets ?_
        have lighter := fun head left => @weight_mean form head rest left laws
        generalize form.mean laws rest = given at goes lighter ⊢
        generalize other.mean laws left = found at goes ⊢
        cases goes with
        | none => exact .none
        | @some given found goes =>
            have less := lighter given.1 given.2 rfl
            refine .some ⟨goes.kind, goes.attributes, goes.marked, ?_, ?_⟩
            · exact hypothesis _ (by omega) goes.children rfl
            · exact hypothesis _ (by omega) goes.left rfl
      generalize outside : false = within at alike
      cases alike with
      | nil =>
          rw [settle_nil]
          exact .some .nil
      | cons kind attributes marked children more =>
          subst outside
          exact ofGoes (Nat.le_refl _) (mean_goes kind attributes marked children more)
      | @spelledOut _ form loop inner rest left spelled children more =>
          subst outside
          have positive := form.weight_pos
          refine spelled.settles children (hypothesis _ ?_ more rfl) fun first second less alike =>
            hypothesis _ less alike rfl
          rw [weightAll_cons]
          omega
      | moved takes kind attributes inside children more =>
          exact ofGoes (Nat.le_refl _) (mean_moved takes kind attributes inside children more)

end Form
end HtmlTemplate
