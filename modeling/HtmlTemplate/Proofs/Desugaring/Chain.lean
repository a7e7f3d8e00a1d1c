import HtmlTemplate.Proofs.Desugaring.Approach
import HtmlTemplate.Proofs.Desugaring.Interchange

/-!
# Chains

An `<if>` and the branch tags behind it are a chain. If no branch tags follow an `<if>` among the children of another
one, then each chain comes to a conditional in its place, with a branch for the `<if>`, for each branch tag among its
children and for each branch tag of the chain, in order. Nothing else depends on the chain. The branch tags of a chain
among the children of another `<if>` become branches of the latter.
-/

namespace HtmlTemplate

open HtmlTemplate.Tree

/-- Branch tags with nothing but blank text before each of them. -/
inductive Run : List Form → Prop
  | nil : Run []
  | text {blank next : Form} {run : List Form} : blank.isBlank = true → Run (next :: run) → Run (blank :: next :: run)
  | tag {tag : Form} {run : List Form} : tag.isBranch = true → Run run → Run (tag :: run)

/-- No branch tag is first among the forms, and none comes after blank text. -/
def Stops (forms : List Form) : Prop :=
  ∀ blanks next rest, forms = blanks ++ next :: rest → (∀ blank ∈ blanks, blank.isBlank = true) → next.isBranch = false

theorem stops_nil : Stops [] :=
  fun blanks _ _ same _ => absurd (congrArg List.length same) (by simp)

/-- A chain in a gap, as long as can be: an `<if>`, by whatever name, and the branch tags behind it with nothing but
blank text between them. -/
structure Chain (gap : Gap) (opener : Form) (run : List Form) : Prop where
  opens : opener.kind.takesBranches = true
  runs : Run run
  stops : Stops gap.behind

namespace Form

variable {laws : Laws} {form opener tag made : Form} {forms run rest after below tags : List Form}

/-- What a branch tag comes to: a branch with its test, and with what its children come to. -/
def BranchOf (laws : Laws) (tag branch : Form) : Prop :=
  ∃ test below, tag.test? = some test ∧ settle laws tag.children = some below ∧ branch = construct (.branch test) below

/-- What a chain comes to: a conditional, in a loop if the `<if>` is repeated. Its branches are those of the `<if>`, of
the branch tags among its children, and of the branch tags behind it, in order. -/
def ConditionalOf (laws : Laws) (opener : Form) (run : List Form) (made : Form) : Prop :=
  ∃ test loop first others, opener.Opens test loop ∧
    settle laws (opener.children.filter fun child => !child.isBranch) = some first ∧
      List.Forall₂ (BranchOf laws) (opener.children.filter isBranch ++ run.filter isBranch) others ∧
        made = looped loop (construct .conditional (construct (.branch (some test)) first :: others))

/-! ## Branches -/

/-- Constructs stay, with what the forms below come to. -/
theorem settle_construct {kind : Kind} (untagged : kind.tag? = none) :
    settle laws (construct kind forms :: rest) = (settle laws forms).bind fun below =>
      (settle laws rest).map fun others => construct kind below :: others := by
  have means : (construct kind forms).mean laws rest = some (construct kind forms, rest) := mean_untagged untagged
  rw [settle_cons, means]
  simp only [Option.bind_eq_bind, Option.bind_some, Option.map_eq_bind]
  rfl

theorem branchOf_of_settle {closed : Bool} {branches : List Form} (found : Form.branches closed tags = some branches)
    (settles : settle laws branches = some below) : List.Forall₂ (BranchOf laws) tags below := by
  induction tags generalizing closed branches below with
  | nil =>
      obtain rfl : [] = branches := by
        cases closed <;> exact Option.some.inj found
      rw [settle_nil] at settles
      obtain rfl := Option.some.inj settles
      exact .nil
  | cons tag tags hypothesis =>
      cases closed with
      | true => cases found
      | false =>
          simp only [Form.branches, Option.bind_eq_bind, Option.bind_eq_some_iff] at found
          obtain ⟨test, tested, kind, passes, others, rest, same⟩ := found
          obtain ⟨-, rfl⟩ := checked_eq_some_iff.1 passes
          obtain rfl := Option.some.inj same
          rw [settle_construct rfl] at settles
          obtain ⟨inside, under, settles⟩ := Option.bind_eq_some_iff.1 settles
          obtain ⟨beside, found, rfl⟩ := Option.map_eq_some_iff.1 settles
          exact .cons ⟨test, inside, tested, under, rfl⟩ (hypothesis rest found)

/-! ## The branch tags behind an `<if>` -/

theorem untagged_of_isBlank (blank : form.isBlank = true) : form.kind.tag? = none := by
  by_contra tagged
  rw [isBlank_of_tagged tagged] at blank
  cases blank

/-- Branch tags that no `<if>` takes come to nothing. -/
theorem settle_run (runs : Run (form :: run)) : settle laws (form :: run ++ rest) = none := by
  generalize all : form :: run = tags at runs
  induction runs generalizing form run with
  | nil => cases all
  | @text blank next run isBlank _ hypothesis =>
      rw [List.cons_append, settle_cons, mean_untagged (untagged_of_isBlank isBlank)]
      have later := hypothesis rfl
      rw [List.cons_append] at later
      simp [later]
  | tag branch =>
      rw [List.cons_append, settle_cons, mean_of_isBranch branch]
      rfl

theorem takeFollowing_of_stops (stops : Stops forms) : takeFollowing forms = ([], forms) := by
  cases forms with
  | nil => rfl
  | cons next more =>
      have other := stops [] next more rfl fun _ none => by cases none
      cases blank : next.isBlank with
      | true =>
          have behind : more.head?.any isBranch = false := by
            cases more with
            | nil => rfl
            | cons second more => exact stops [next] second more rfl (by simpa using blank)
          simp [takeFollowing, blank, behind]
      | false => simp [takeFollowing, blank, other]

/-- The run of a chain is taken by its `<if>`, and what is behind the chain is left, if all comes to something. -/
theorem takeFollowing_run (laws : Laws) (runs : Run run) (stops : Stops after) :
    takeFollowing (run ++ after) = (run.filter isBranch, after) ∨ settle laws (takeFollowing (run ++ after)).2 = none := by
  induction runs with
  | nil => exact .inl (takeFollowing_of_stops stops)
  | @text blank next run isBlank more hypothesis =>
      have plain : blank.isBranch = false := by
        cases branch : blank.isBranch with
        | true => rw [(of_isBranch branch).1] at isBlank; cases isBlank
        | false => rfl
      cases branch : next.isBranch with
      | true =>
          have takes : takeFollowing (blank :: next :: run ++ after) = takeFollowing (next :: run ++ after) := by
            rw [List.cons_append, takeFollowing, if_pos isBlank, if_pos (by simpa using branch)]
          rwa [takes, List.filter_cons_of_neg (by simp [plain])]
      | false =>
          have breaks : takeFollowing (blank :: next :: run ++ after) = ([], blank :: next :: run ++ after) := by
            rw [List.cons_append, takeFollowing, if_pos isBlank, if_neg (by simpa using branch)]
          exact .inr (by rw [breaks]; exact settle_run (.text isBlank more))
  | @tag tag run branch _ hypothesis =>
      have takes : takeFollowing (tag :: run ++ after) =
          (tag :: (takeFollowing (run ++ after)).1, (takeFollowing (run ++ after)).2) := by
        rw [List.cons_append, takeFollowing, if_neg (by simp [(of_isBranch branch).1]), if_pos branch]
      rw [takes, List.filter_cons_of_pos branch]
      exact hypothesis.imp_left fun taken => by rw [taken]

/-- A chain comes to its conditional, and what is behind it to what it comes to by itself. -/
theorem conditionalOf_of_settle (opens : opener.kind.takesBranches = true) (runs : Run run) (stops : Stops after)
    (settles : settle laws (opener :: run ++ after) = some below) :
    ∃ made others, below = made :: others ∧ ConditionalOf laws opener run made ∧ settle laws after = some others := by
  rw [List.cons_append, settle_cons, mean_of_takesBranches opens, lowerIf_eq] at settles
  obtain ⟨⟨head, left⟩, lowers, onward⟩ := Option.bind_eq_some_iff.1 settles
  obtain ⟨test, loop, branches, opened, found, rfl, rfl⟩ := lowerWith_eq_some_iff.1 lowers
  simp only [Option.bind_eq_bind, Option.bind_eq_some_iff] at onward
  obtain ⟨under, inside, others, beside, same⟩ := onward
  obtain rfl := Option.some.inj same
  rcases takeFollowing_run laws runs stops with taken | none
  · rw [taken] at found beside
    refine ⟨_, others, rfl, ?_, beside⟩
    have conditional : ∀ {made}, settle laws (construct (.branch (some test))
        (opener.children.filter fun child => !child.isBranch) :: branches) = some made → ∃ first others,
          made = construct (.branch (some test)) first :: others ∧
          settle laws (opener.children.filter fun child => !child.isBranch) = some first ∧
            List.Forall₂ (BranchOf laws) (opener.children.filter isBranch ++ run.filter isBranch) others := by
      intro made within
      rw [settle_construct rfl] at within
      obtain ⟨first, kept, further⟩ := Option.bind_eq_some_iff.1 within
      obtain ⟨others, rest, rfl⟩ := Option.map_eq_some_iff.1 further
      exact ⟨first, others, rfl, kept, branchOf_of_settle found rest⟩
    cases loop with
    | none =>
        obtain ⟨first, others, rfl, kept, tags⟩ := conditional inside
        exact ⟨test, none, first, others, opened, kept, tags, rfl⟩
    | some kind =>
        change settle laws [construct .conditional _] = some under at inside
        rw [settle_construct rfl, settle_nil] at inside
        obtain ⟨branches, within, same⟩ := Option.bind_eq_some_iff.1 inside
        obtain rfl := Option.some.inj same
        obtain ⟨first, others, rfl, kept, tags⟩ := conditional within
        exact ⟨test, some kind, first, others, opened, kept, tags, rfl⟩
  · rw [none] at beside
    cases beside

end Form

namespace Chain

open Form

variable {laws : Laws} {gap : Gap} {opener : Form} {run below : List Form}

/-- A chain comes to its conditional, in its place, unless its branch tags stand among the children of another `<if>`.
Around it there is what would be around a text in its place. -/
theorem settles (chain : Chain gap opener run) (contained : gap.Contained) (apart : gap.takes false = true → run = [])
    (settles : settle laws (gap.fill (opener :: run)) = some below) :
    ∃ (around : Gap) (made : Form), below = around.fill [made] ∧ ConditionalOf laws opener run made ∧
      ∀ text value, text.kind = .text value → text.isBlank = false → text.children = [] →
        settle laws (gap.fill [text]) = some (around.fill [text]) := by
  have plain := of_takesBranches chain.opens
  have fits : Gap.Fits (gap.takes false) (opener :: run) := by
    refine ⟨⟨opener, run, rfl, plain⟩, fun within form member => ?_⟩
    rw [apart within, List.mem_singleton] at member
    rw [member, plain.2]
  have tagged : ∀ first ∈ (opener :: run).head?, first.kind.tag? ≠ none := by
    intro first same
    obtain rfl := Option.some.inj same
    exact tag?_ne_none_of_takesBranches chain.opens
  obtain ⟨around, after, behind, comes⟩ := Gap.settles_around contained fits tagged settles
  have stops : Stops after := by
    rcases behind with rfl | plain
    · exact chain.stops
    · rintro blanks next rest rfl -
      exact plain next (by simp)
  rw [comes _ fits] at settles
  obtain ⟨forms, found, rfl⟩ := Option.map_eq_some_iff.1 settles
  obtain ⟨made, others, rfl, conditional, beside⟩ := conditionalOf_of_settle chain.opens chain.runs stops found
  have placed : ∀ form, around.fill (form :: others) = (around.comp (.here [] others)).fill [form] := by simp [Gap.fill]
  refine ⟨around.comp (.here [] others), made, placed made, conditional, fun text value kind solid childless => ?_⟩
  have untagged : text.kind.tag? = none := by rw [kind]; rfl
  have fit : Gap.Fits (gap.takes false) [text] := by
    have other : text.isBranch = false := by simp [isBranch, isTested, tag?, kind]
    exact ⟨⟨text, [], rfl, solid, other⟩, fun _ form member => by rw [List.mem_singleton.1 member, other]⟩
  have stays : settle laws ([text] ++ after) = some (text :: others) := by
    rw [List.singleton_append, settle_cons, mean_untagged untagged]
    simp only [Option.bind_eq_bind, Option.bind_some, childless, settle_nil, beside]
    rw [← childless, withChildren_children]
    rfl
  rw [comes _ fit, stays, Option.map_some, placed]

end Chain

/-! ## Walks -/

/-- Forms in a gap are shown by a tree that shows all. -/
theorem Gap.exists_shows {tree : Tree} {limit : Nat} {gap : Gap} {forms : List Form} {form : Form} {ids : List NodeId}
    (shown : List.Forall₂ (tree.Shows limit) (gap.fill forms) ids) (member : form ∈ forms) :
    ∃ id, tree.Shows limit form id := by
  induction gap generalizing ids with
  | here before after =>
      have among : form ∈ before ++ (forms ++ after) := List.mem_append_right before (List.mem_append_left after member)
      obtain ⟨id, -, shows⟩ := Construct.exists_of_mem_right shown.flip among
      exact ⟨id, shows⟩
  | inside before host gap after hypothesis =>
      obtain ⟨id, -, shows⟩ := Construct.exists_of_mem_right shown.flip (List.mem_append_right before List.mem_cons_self)
      have below := (shows_iff.1 shows).2.2.2
      rw [Form.children_withChildren] at below
      exact hypothesis below

/-- A gap in a well-formed tree is in nodes that may have children. -/
theorem Gap.contained_of_shows {tree : Tree} {limit : Nat} {gap : Gap} {forms : List Form} {ids : List NodeId}
    (wellFormed : tree.WellFormed) (shown : List.Forall₂ (tree.Shows limit) (gap.fill forms) ids)
    (filled : forms ≠ []) : gap.Contained := by
  induction gap generalizing ids with
  | here before after => exact trivial
  | inside before host gap after hypothesis =>
      obtain ⟨id, -, shows⟩ := Construct.exists_of_mem_right shown.flip (List.mem_append_right before List.mem_cons_self)
      obtain ⟨-, kind, -, below⟩ := shows_iff.1 shows
      rw [Form.children_withChildren] at below
      rw [Form.kind_withChildren] at kind
      refine ⟨?_, hypothesis below⟩
      rw [← kind]
      refine wellFormed.contained id fun none => ?_
      rw [none, List.forall₂_nil_right_iff] at below
      cases gap <;> simp [fill, filled] at below

/-- If a walk with the core taglib over a document succeeds, each chain has come to its conditional, in its place, unless
its branch tags stand among the children of another `<if>`. All else is as it would be around a text in its place. -/
theorem Context.walk_chain {tree : Tree} {options : Options} {root : NodeId} {fuel : Nat} {progress : Progress}
    {final : Context} {gap : Gap} {opener : Form} {run : List Form} (wellFormed : tree.WellFormed)
    (document : tree.kind root = .document) (chain : Chain gap opener run)
    (stands : (tree.form tree.size root).children = gap.fill (opener :: run)) (apart : gap.takes false = true → run = [])
    (walked : (Context.start tree options Registry.core).walk Registry.core fuel root = (.ok progress, final)) :
    ∃ (around : Gap) (made : Form), Form.ConditionalOf options.laws opener run made ∧
      final.tree.Shows tree.size ((tree.form tree.size root).withChildren (around.fill [made])) root ∧
        ∀ text value, text.kind = .text value → text.isBlank = false → text.children = [] →
          Form.settle options.laws (gap.fill [text]) = some (around.fill [text]) := by
  obtain ⟨-, -, -, shown⟩ := shows_iff.1 (wellFormed.shows_form tree.size root)
  rw [stands] at shown
  have contained := Gap.contained_of_shows wellFormed shown (List.cons_ne_nil _ _)
  have present : tree.Has root := by
    cases listed : tree.children root with
    | nil =>
        rw [listed, List.forall₂_nil_right_iff] at shown
        cases gap <;> simp [Gap.fill] at shown
    | cons child rest => exact has_of_mem_children (by rw [listed]; exact List.mem_cons_self)
  have stays := @Context.start_stays tree options root wellFormed (by rw [document]; rfl) present fuel
  unfold Walk.Holds at stays
  rw [Context.walk] at walked
  generalize Walk.start Registry.core fuel root {} (Context.start tree options Registry.core) = result at stays walked
  rcases result with ⟨⟨halt | value, after⟩, last⟩
  · cases walked
  · obtain ⟨-, rfl⟩ := Prod.mk.inj walked
    obtain ⟨below, settles, leaves⟩ := stays
    rw [stands] at settles
    obtain ⟨around, made, rfl, conditional, others⟩ := chain.settles contained apart settles
    exact ⟨around, made, conditional, leaves.shown, others⟩

/-- A chain of an `<if>` and an `<else>` behind it, among the children of a `<div>`. -/
theorem Context.walk_chain_div :
    let test : Attribute := { name := "test", value := { raw := "a", segments := [.static "a"] }, position := {} }
    let tree : Tree := { file := "page", nodes := [{ kind := .document, children := [⟨1⟩] },
      { kind := .element "div", parent := some ⟨0⟩, children := [⟨2⟩, ⟨3⟩, ⟨4⟩] },
      { kind := .element "if", parent := some ⟨1⟩, attributes := [test] },
      { kind := .text " ", parent := some ⟨1⟩ },
      { kind := .element "else", parent := some ⟨1⟩, children := [⟨5⟩] },
      { kind := .text "C", parent := some ⟨4⟩ }] }
    let opener := tree.form tree.size ⟨2⟩
    let run := [tree.form tree.size ⟨3⟩, tree.form tree.size ⟨4⟩]
    let gap : Gap := .inside [] (tree.form tree.size ⟨1⟩) (.here [] []) []
    ∃ progress final, (Context.start tree {} Registry.core).walk Registry.core 29 ⟨0⟩ = (.ok progress, final) ∧
      ∃ (around : Gap) (made : Form), Form.ConditionalOf (Options.laws {}) opener run made ∧
        final.tree.Shows tree.size ((tree.form tree.size ⟨0⟩).withChildren (around.fill [made])) ⟨0⟩ ∧
          ∀ text value, text.kind = .text value → text.isBlank = false → text.children = [] →
            Form.settle (Options.laws {}) (gap.fill [text]) = some (around.fill [text]) := by
  intro test tree opener run gap
  have wellFormed : tree.WellFormed := Tree.Ordered.wellFormed (by decide)
  have chain : Chain gap opener run := ⟨rfl, .text (by decide) (.tag (by decide) .nil), stops_nil⟩
  have ends : ((Context.start tree {} Registry.core).walk Registry.core 29 ⟨0⟩).1.isOk = true := by decide +kernel
  generalize walked : (Context.start tree {} Registry.core).walk Registry.core 29 ⟨0⟩ = result at ends
  rcases result with ⟨_ | progress, final⟩
  · cases ends
  · exact ⟨progress, final, rfl, Context.walk_chain wellFormed rfl chain rfl (fun inside => by cases inside) walked⟩

/-- Among the children of an `<if>`, an `<else>` behind another `<if>` becomes a branch of the outer one. -/
theorem Context.walk_crosses :
    let given (text : String) : Attribute :=
      { name := "test", value := { raw := text, segments := [.static text] }, position := {} }
    let tree : Tree := { file := "page", nodes := [{ kind := .document, children := [⟨1⟩] },
      { kind := .element "if", parent := some ⟨0⟩, attributes := [given "a"], children := [⟨2⟩, ⟨3⟩] },
      { kind := .element "if", parent := some ⟨1⟩, attributes := [given "b"] },
      { kind := .element "else", parent := some ⟨1⟩, children := [⟨4⟩] },
      { kind := .text "C", parent := some ⟨3⟩ }] }
    let opener := tree.form tree.size ⟨2⟩
    let run := [tree.form tree.size ⟨3⟩]
    let gap : Gap := .inside [] (tree.form tree.size ⟨1⟩) (.here [] []) []
    tree.WellFormed ∧ Chain gap opener run ∧ (tree.form tree.size ⟨0⟩).children = gap.fill (opener :: run) ∧
      ∃ progress final, (Context.start tree {} Registry.core).walk Registry.core 29 ⟨0⟩ = (.ok progress, final) ∧
        (∃ id, (final.tree.children id).map final.tree.kind = [.branch (some "a"), .branch none]) ∧
          ¬∃ (around : Gap) (made : Form), Form.ConditionalOf (Options.laws {}) opener run made ∧
            final.tree.Shows tree.size ((tree.form tree.size ⟨0⟩).withChildren (around.fill [made])) ⟨0⟩ := by
  intro given tree opener run gap
  refine ⟨Tree.Ordered.wellFormed (by decide), ⟨rfl, .tag (by decide) .nil, stops_nil⟩, rfl, ?_⟩
  have ends : ((Context.start tree {} Registry.core).walk Registry.core 29 ⟨0⟩).1.isOk = true := by decide +kernel
  let kinds (context : Context) (id : NodeId) : List Kind := (context.tree.children id).map context.tree.kind
  have outer : kinds ((Context.start tree {} Registry.core).walk Registry.core 29 ⟨0⟩).2 ⟨6⟩ =
      [.branch (some "a"), .branch none] := by decide +kernel
  have inner : ∀ index < ((Context.start tree {} Registry.core).walk Registry.core 29 ⟨0⟩).2.tree.size,
      kinds ((Context.start tree {} Registry.core).walk Registry.core 29 ⟨0⟩).2 ⟨index⟩ ≠ [.branch (some "b"), .branch none] := by
    decide +kernel
  generalize (Context.start tree {} Registry.core).walk Registry.core 29 ⟨0⟩ = result at ends outer inner
  rcases result with ⟨_ | progress, final⟩
  · cases ends
  · refine ⟨progress, final, rfl, ⟨_, outer⟩, ?_⟩
    rintro ⟨around, made, ⟨test, loop, first, others, opens, -, tags, rfl⟩, shown⟩
    obtain rfl : none = loop := Option.some.inj opens.repeated
    have tested : opener.code? "test" = some "b" := by decide
    obtain rfl : "b" = test := Option.some.inj (tested.symm.trans opens.tested)
    have listed : opener.children.filter Form.isBranch ++ run.filter Form.isBranch = run := rfl
    rw [listed] at tags
    obtain ⟨branch, _, ⟨own, below, found, -, rfl⟩, none, rfl⟩ := List.forall₂_cons_left_iff.1 tags
    obtain rfl := List.forall₂_nil_left_iff.1 none
    have untested : (tree.form tree.size ⟨3⟩).test? = some Option.none := by decide
    obtain rfl : Option.none = own := Option.some.inj (untested.symm.trans found)
    have below := (shows_iff.1 shown).2.2.2
    rw [Form.children_withChildren] at below
    obtain ⟨id, shows⟩ := Gap.exists_shows below (List.mem_singleton.2 rfl)
    obtain ⟨-, -, -, branches⟩ := shows_iff.1 shows
    obtain ⟨one, row, ofFirst, rest, listed⟩ := List.forall₂_cons_left_iff.1 branches
    obtain ⟨other, none, ofOther, last, rfl⟩ := List.forall₂_cons_left_iff.1 rest
    obtain rfl := List.forall₂_nil_left_iff.1 last
    refine inner id.index (has_of_mem_children (by rw [listed]; exact List.mem_cons_self)) ?_
    simp only [kinds, listed, List.map_cons, List.map_nil, (shows_iff.1 ofFirst).2.1, (shows_iff.1 ofOther).2.1]
    rfl

end HtmlTemplate
