import HtmlTemplate.Compiler
import HtmlTemplate.Proofs.Desugaring.Interchange
import HtmlTemplate.Proofs.Lowering.Rendering
import HtmlTemplate.Proofs.Placement.Reading
import HtmlTemplate.Proofs.Text.Bytes
import HtmlTemplate.Proofs.Text.Space

/-!
# Texts are kept

Desugaring with the core taglib moves the texts of a template and keeps them, but for blank text in front of a branch
tag; only comments take in what is below them. What is written for a text keeps all characters that are not whitespace.
Whitespace is more than what HTML knows as whitespace here: a no-break space is one.
-/

namespace HtmlTemplate

/-- Does text below nodes of this kind stay text? There is nothing below text, and an `<html-comment>` takes in all text. -/
def Kind.isOpen : Kind → Bool
  | text _ => false
  | element tag => tag != "html-comment"
  | _ => true

/-! ## Texts in forms -/

namespace Form

/-- The form holds the text of the node, and no `<html-comment>` is around it. -/
inductive Holds (id : NodeId) (value : String) : Form → Prop
  | text {form : Form} : form.source = some id → form.kind = .text value → Holds id value form
  | inside {form child : Form} :
      form.kind.isOpen = true → child ∈ form.children → Holds id value child → Holds id value form

variable {id : NodeId} {value : String} {form child head : Form} {forms rest left made below : List Form} {laws : Laws}
variable {name : String}

theorem Holds.construct {kind : Kind} (isOpen : kind.isOpen = true) (member : child ∈ below)
    (holds : child.Holds id value) : (construct kind below).Holds id value :=
  .inside isOpen member holds

theorem Holds.without (holds : form.Holds id value) (name : String) : (form.without name).Holds id value := by
  cases holds with
  | text source kind => exact .text source kind
  | inside isOpen member holds => exact .inside isOpen member holds

theorem Holds.withChildren (isOpen : head.kind.isOpen = true) (member : child ∈ below) (holds : child.Holds id value) :
    (head.withChildren below).Holds id value := by
  cases head
  exact .inside isOpen member holds

/-- What a tag holds is held below it. -/
theorem Holds.of_tag? {tag : String} (holds : form.Holds id value) (tagged : form.kind.tag? = some tag) :
    form.kind.isOpen = true ∧ ∃ child ∈ form.children, child.Holds id value := by
  cases holds with
  | text source kind =>
      rw [kind] at tagged
      cases tagged
  | inside isOpen member holds => exact ⟨isOpen, _, member, holds⟩

theorem isOpen_of_loop? {header : String} {kind : Kind} (found : loop? header = some kind) : kind.isOpen = true := by
  simp only [loop?, Option.bind_eq_bind, Option.bind_eq_some_iff] at found
  obtain ⟨loop, -, found⟩ := found
  obtain ⟨-, rfl⟩ := checked_eq_some_iff.1 found
  rfl

/-- Constructs, and tags without directives, hold what the tag holds that they stand for. -/
theorem Holds.lowerDirective (holds : form.Holds id value) (found : form.lowerDirective = some head) :
    head.Holds id value := by
  unfold Form.lowerDirective at found
  split at found
  · obtain ⟨loop, looped, found⟩ := Option.bind_eq_some_iff.1 found
    obtain rfl := Option.some.inj found
    exact .construct (isOpen_of_loop? looped) List.mem_cons_self (holds.without "for")
  · split at found
    · split at found
      · cases found
      · simp only [conditional?, Option.bind_eq_bind, Option.bind_eq_some_iff] at found
        obtain ⟨kind, passes, found⟩ := found
        obtain rfl := Option.some.inj found
        obtain ⟨-, rfl⟩ := checked_eq_some_iff.1 passes
        exact .construct rfl List.mem_cons_self (.construct rfl List.mem_cons_self (holds.without "if"))
    · obtain rfl := Option.some.inj found
      exact holds

theorem holds_of_lowerFor (found : form.lowerFor = some head) (member : child ∈ form.children)
    (holds : child.Holds id value) : head.Holds id value := by
  unfold lowerFor at found
  split at found
  · simp only [Option.bind_eq_bind, Option.bind_eq_some_iff] at found
    obtain ⟨header, -, loop, looped, found⟩ := found
    have isOpen := isOpen_of_loop? looped
    split at found
    · obtain rfl := Option.some.inj found
      exact .construct isOpen member holds
    · simp only [conditional?, Option.bind_eq_bind, Option.bind_eq_some_iff] at found
      obtain ⟨test, -, conditional, ⟨kind, passes, made⟩, found⟩ := found
      obtain rfl := Option.some.inj found
      obtain rfl := Option.some.inj made
      obtain ⟨-, rfl⟩ := checked_eq_some_iff.1 passes
      exact .construct isOpen List.mem_cons_self (.construct rfl List.mem_cons_self (.construct rfl member holds))
  · cases found

/-- Branches hold what their tags hold. -/
theorem holds_of_branches {closed : Bool} (found : branches closed forms = some made) (member : form ∈ forms)
    (inside : child ∈ form.children) (holds : child.Holds id value) : ∃ branch ∈ made, branch.Holds id value := by
  induction forms generalizing closed made with
  | nil => cases member
  | cons first forms hypothesis =>
      cases closed with
      | true => cases found
      | false =>
          simp only [branches, Option.bind_eq_bind, Option.bind_eq_some_iff] at found
          obtain ⟨test, -, kind, passes, others, rest, done⟩ := found
          obtain rfl := Option.some.inj done
          rcases List.mem_cons.1 member with rfl | later
          · obtain ⟨-, rfl⟩ := checked_eq_some_iff.1 passes
            exact ⟨_, List.mem_cons_self, .construct rfl inside holds⟩
          · obtain ⟨branch, among, holds⟩ := hypothesis rest later
            exact ⟨branch, List.mem_cons_of_mem _ among, holds⟩

/-- Nothing but blank text gets lost between an `<if>` and the branch tags behind it. -/
theorem mem_takeFollowing (member : form ∈ forms) :
    form.isBlank = true ∨ form ∈ (takeFollowing forms).1 ∨ form ∈ (takeFollowing forms).2 := by
  induction forms with
  | nil => cases member
  | cons first forms hypothesis =>
      unfold takeFollowing
      split
      · next blank =>
          split
          · rcases List.mem_cons.1 member with rfl | later
            · exact .inl blank
            · exact hypothesis later
          · exact .inr (.inr member)
      · split
        · rcases List.mem_cons.1 member with rfl | later
          · exact .inr (.inl List.mem_cons_self)
          · exact (hypothesis later).imp_right (Or.imp_left (List.mem_cons_of_mem _))
        · exact .inr (.inr member)

theorem isBlank_of_holds (blank : form.isBlank = true) (holds : form.Holds id value) :
    Text.isBlank value.toList = true := by
  unfold Form.isBlank at blank
  split at blank
  · next other kind =>
      cases holds with
      | text _ same =>
          obtain rfl := Kind.text.inj (kind.symm.trans same)
          exact blank
      | inside isOpen _ _ =>
          rw [kind] at isOpen
          cases isOpen
  · cases blank

theorem exists_tag_of_isBranch (branch : form.isBranch = true) : ∃ tag, form.kind.tag? = some tag := by
  unfold Form.isBranch Form.isTested Form.tag? at branch
  cases kind : form.kind with
  | element tag => exact ⟨tag, rfl⟩
  | _ => simp [kind] at branch

/-- What an `<if>` stands for holds what is below it, and below the branch tags behind it. -/
theorem holds_of_lowerIf {tag : String} (tagged : form.kind.tag? = some tag)
    (found : form.lowerIf rest = some (head, left)) (member : child ∈ form :: rest) (holds : child.Holds id value) :
    Text.isBlank value.toList = true ∨ head.Holds id value ∨ ∃ other ∈ left, other.Holds id value := by
  unfold Form.lowerIf at found
  split at found
  · simp only [Option.bind_eq_bind, Option.bind_eq_some_iff] at found
    obtain ⟨test, -, kind, passes, others, added, found⟩ := found
    obtain ⟨-, rfl⟩ := checked_eq_some_iff.1 passes
    -- The conditional is the head, or the only child of the loop that is the head.
    have ofConditional : ∀ part ∈ construct (.branch (some test)) (form.children.filter (!·.isBranch)) :: others,
        part.Holds id value → head.Holds id value := by
      intro part among holds
      split at found
      · obtain ⟨rfl, -⟩ := Prod.mk.inj (Option.some.inj found)
        exact .construct rfl among holds
      · obtain ⟨loop, looped, found⟩ := Option.bind_eq_some_iff.1 found
        obtain ⟨rfl, -⟩ := Prod.mk.inj (Option.some.inj found)
        exact .construct (isOpen_of_loop? looped) List.mem_cons_self (.construct rfl among holds)
    have leftover : left = (takeFollowing rest).2 := by
      split at found
      · exact (Prod.mk.inj (Option.some.inj found)).2.symm
      · obtain ⟨loop, -, found⟩ := Option.bind_eq_some_iff.1 found
        exact (Prod.mk.inj (Option.some.inj found)).2.symm
    have ofBranch : ∀ part ∈ form.children.filter isBranch ++ (takeFollowing rest).1, part.isBranch = true →
        part.Holds id value → head.Holds id value := by
      intro part among branch holds
      obtain ⟨tag, tagged⟩ := exists_tag_of_isBranch branch
      obtain ⟨-, inner, below, holds⟩ := holds.of_tag? tagged
      obtain ⟨made, listed, holds⟩ := holds_of_branches added among below holds
      exact ofConditional made (List.mem_cons_of_mem _ listed) holds
    rcases List.mem_cons.1 member with rfl | behind
    · obtain ⟨-, part, below, holds⟩ := holds.of_tag? tagged
      cases branch : part.isBranch with
      | true =>
          exact .inr (.inl (ofBranch part (List.mem_append_left _ (List.mem_filter.2 ⟨below, branch⟩)) branch holds))
      | false =>
          have kept : part ∈ child.children.filter (!·.isBranch) :=
            List.mem_filter.2 ⟨below, by rw [branch]; rfl⟩
          exact .inr (.inl (ofConditional _ List.mem_cons_self (.construct rfl kept holds)))
    · rcases mem_takeFollowing behind with blank | taken | remains
      · exact .inl (isBlank_of_holds blank holds)
      · have branch := Construct.isBranch_of_mem_takeFollowing taken
        exact .inr (.inl (ofBranch child (List.mem_append_right _ taken) branch holds))
      · exact .inr (.inr ⟨child, leftover ▸ remains, holds⟩)
  · cases found

/-- A tag stands for what holds all that it holds, and no text behind it gets lost that is not blank. -/
theorem holds_of_rewrite {tag : String} (tagged : form.tag? = some tag) (found : form.rewrite rest = some (head, left))
    (member : child ∈ form :: rest) (holds : child.Holds id value) :
    Text.isBlank value.toList = true ∨ head.Holds id value ∨ ∃ other ∈ left, other.Holds id value := by
  have kind : form.kind = .element tag := by
    unfold Form.tag? at tagged
    split at tagged
    · next kind => rw [kind, Option.some.inj tagged]
    · cases tagged
  have named : form.kind.tag? = some tag := by rw [kind]; rfl
  -- All tags but `<if>` leave the forms behind them alone.
  have alone : ∀ {lowered : Option Form}, (lowered.map fun head => (head, rest)) = some (head, left) →
      (∀ made, lowered = some made → form.Holds id value → made.Holds id value) →
      Text.isBlank value.toList = true ∨ head.Holds id value ∨ ∃ other ∈ left, other.Holds id value := by
    intro lowered found keeps
    obtain ⟨made, lowered, same⟩ := Option.map_eq_some_iff.1 found
    obtain ⟨rfl, rfl⟩ := Prod.mk.inj same
    rcases List.mem_cons.1 member with rfl | behind
    · exact .inr (.inl (keeps made lowered holds))
    · exact .inr (.inr ⟨child, behind, holds⟩)
  unfold Form.rewrite at found
  rw [tagged] at found
  dsimp only at found
  split at found
  · exact holds_of_lowerIf named found member holds
  · refine alone found fun made lowered holds => ?_
    obtain ⟨-, part, below, holds⟩ := holds.of_tag? named
    exact holds_of_lowerFor lowered below holds
  · next modern =>
      refine alone found fun made lowered holds => ?_
      obtain ⟨isOpen, -⟩ := holds.of_tag? named
      have comment : tag = "html-comment" := by
        unfold modernTag at modern
        split at modern <;> first | exact modern | exact absurd modern (by decide)
      rw [kind, comment] at isOpen
      cases isOpen
  · cases found
  · cases found
  · exact alone found fun made lowered holds => holds.lowerDirective lowered

/-- What forms stand for holds what they hold, but for blank text. -/
theorem holds_of_lower (found : form.lower rest = some (head, left)) (member : child ∈ form :: rest)
    (holds : child.Holds id value) :
    Text.isBlank value.toList = true ∨ head.Holds id value ∨ ∃ other ∈ left, other.Holds id value := by
  cases kind : form.kind with
  | element tag =>
      rw [lower_element kind] at found
      exact holds_of_rewrite (by rw [tag?, kind]) found member holds
  | customTag name renderer =>
      rw [lower_customTag kind] at found
      split at found
      · next older =>
          rcases List.mem_cons.1 member with rfl | behind
          · refine holds_of_rewrite rfl found List.mem_cons_self ?_
            obtain ⟨-, part, below, holds⟩ := holds.of_tag? (by rw [kind]; rfl)
            refine .inside ?_ below holds
            have listed := modernTag_ne older
            simp only [List.mem_cons, Prod.mk.injEq, List.not_mem_nil, or_false] at listed
            rcases listed with ⟨-, modern⟩ | ⟨-, modern⟩ | ⟨-, modern⟩ | ⟨-, modern⟩ <;> rw [modern] <;> rfl
          · exact holds_of_rewrite rfl found (List.mem_cons_of_mem _ behind) holds
      · split at found
        · cases found
        · obtain ⟨made, lowered, same⟩ := Option.map_eq_some_iff.1 found
          obtain ⟨rfl, rfl⟩ := Prod.mk.inj same
          rcases List.mem_cons.1 member with rfl | behind
          · exact .inr (.inl (holds.lowerDirective lowered))
          · exact .inr (.inr ⟨child, behind, holds⟩)
  | _ =>
      rw [lower_untagged (by rw [kind]; rfl)] at found
      obtain ⟨rfl, rfl⟩ := Prod.mk.inj (Option.some.inj found)
      rcases List.mem_cons.1 member with rfl | behind
      · exact .inr (.inl holds)
      · exact .inr (.inr ⟨child, behind, holds⟩)

/-- What forms come to holds what they hold, but for blank text. The induction is on what is left to rewrite. -/
theorem holds_of_settle (settles : settle laws forms = some made) (member : form ∈ forms) (holds : form.Holds id value) :
    Text.isBlank value.toList = true ∨ ∃ other ∈ made, other.Holds id value := by
  induction forms using settle.induct laws generalizing form made with
  | case1 => cases member
  | case2 first rest means =>
      rw [settle_cons, means] at settles
      cases settles
  | case3 first rest head left means ofBelow ofOthers =>
      rw [settle_cons, means] at settles
      simp only [Option.bind_eq_bind, Option.bind_some, Option.bind_eq_some_iff] at settles
      obtain ⟨below, settledBelow, others, settledOthers, same⟩ := settles
      obtain rfl := Option.some.inj same
      rcases holds_of_lower (mean_eq_some_iff.1 means).2 member holds with blank | inside | ⟨other, among, holds⟩
      · exact .inl blank
      · cases inside with
        | text source kind =>
            refine .inr ⟨head.withChildren below, List.mem_cons_self, .text ?_ ?_⟩
            · cases head
              exact source
            · cases head
              exact kind
        | inside isOpen among holds =>
            refine (ofBelow settledBelow among holds).imp_right ?_
            rintro ⟨part, listed, holds⟩
            exact ⟨_, List.mem_cons_self, holds.withChildren isOpen listed⟩
      · refine (ofOthers settledOthers among holds).imp_right ?_
        rintro ⟨part, listed, holds⟩
        exact ⟨part, List.mem_cons_of_mem _ listed, holds⟩

end Form

/-! ## Texts in trees -/

namespace Tree

variable {tree : Tree} {root id other : NodeId} {limit : Nat} {form : Form} {value : String}

/-- The node is below the root, and no `<html-comment>` is around it. -/
def OutsideComments (tree : Tree) (root id : NodeId) : Prop :=
  tree.OnPath root id ∧
    ∀ above, tree.OnPath root above → tree.OnPath above id → tree.kind above ≠ .element "html-comment"

/-- Texts outside of comments are held by what is shown. -/
theorem holds_of_outsideComments (wellFormed : tree.WellFormed) (shown : tree.Shows limit form root)
    (outside : tree.OutsideComments root id) (kind : tree.kind id = .text value) (old : id.index < limit) :
    form.Holds id value := by
  obtain ⟨onPath, open_⟩ := outside
  induction form using Form.induction generalizing root with
  | node form below =>
      obtain ⟨source, same, -, kids⟩ := shows_iff.1 shown
      rcases Tree.onPath_iff_below.1 onPath with rfl | ⟨child, linked, under⟩
      · refine .text ?_ (same.symm.trans kind)
        rw [source, sourceOf, if_pos old]
      · have listed := (wellFormed.linked root child).2 linked
        obtain ⟨kid, member, shown⟩ := Construct.exists_of_mem_right kids listed
        have within := below kid member shown under fun above inner => open_ above (.trans (.step linked .self) inner)
        refine .inside ?_ member within
        have container := wellFormed.contained root (List.ne_nil_of_mem listed)
        have other := open_ root .self onPath
        rw [same] at container other
        cases own : form.kind with
        | text value =>
            rw [own] at container
            cases container
        | element tag =>
            rw [own] at other
            simpa [Kind.isOpen] using other
        | _ => rfl

/-- Texts that are held by what is shown are there. -/
theorem text_of_holds (wellFormed : tree.WellFormed) (shown : tree.Shows limit form root) (holds : form.Holds id value) :
    tree.OnPath root id ∧ tree.kind id = .text value := by
  induction holds generalizing root with
  | text source kind =>
      obtain ⟨same, sameKind, -⟩ := shows_iff.1 shown
      rw [source, sourceOf] at same
      split at same
      · obtain rfl := Option.some.inj same
        exact ⟨.self, sameKind.trans kind⟩
      · cases same
  | inside _ member _ hypothesis =>
      obtain ⟨-, -, -, kids⟩ := shows_iff.1 shown
      obtain ⟨child, listed, shown⟩ := Construct.exists_of_mem_right kids.flip member
      obtain ⟨onPath, kind⟩ := hypothesis shown
      exact ⟨.trans (.step ((wellFormed.linked root child).1 listed) .self) onPath, kind⟩

end Tree

/-- A walk over a template keeps its texts, but for blank ones and those in comments. -/
theorem Walk.Leaves.text {tree : Tree} {options : Options} {root id : NodeId} {final : Context} {below : List Form}
    {value : String} (wellFormed : tree.WellFormed) (document : tree.kind root = .document)
    (settles : Form.settle options.laws (tree.form tree.size root).children = some below)
    (leaves : Walk.Leaves root ((tree.form tree.size root).withChildren below)
      (Context.start tree options Registry.core) final)
    (outside : tree.OutsideComments root id) (kind : tree.kind id = .text value) :
    final.tree.OnPath root id ∧ final.tree.kind id = .text value ∨ Text.isBlank value.toList = true := by
  have shown := wellFormed.shows_form tree.size root
  have there : tree.Has id := by
    by_contra absent
    rw [Tree.kind, Tree.node_of_not_has absent] at kind
    cases kind
  have formKind := (Tree.shows_iff.1 shown).2.1
  cases Tree.holds_of_outsideComments wellFormed shown outside kind there with
  | text source ofText =>
      rw [← formKind, document] at ofText
      cases ofText
  | inside isOpen member holds =>
      refine (Form.holds_of_settle settles member holds).symm.imp_left ?_
      rintro ⟨part, among, holds⟩
      exact Tree.text_of_holds leaves.wellFormed leaves.shown (holds.withChildren isOpen among)

/-! ## Texts in fragments -/

namespace Text

/-- What HTML knows as whitespace is whitespace. -/
theorem isSpace_of_isGap {c : Char} (gap : Markup.isGap c = true) : isSpace c = true := by
  simp only [Markup.isGap, Bool.or_eq_true, beq_iff_eq] at gap
  rcases gap with (((rfl | rfl) | rfl) | rfl) | rfl <;> rfl

end Text

namespace Lowering

/-- The characters of the texts in a row of fragments. -/
def characters (fragments : List Fragment) : List Char :=
  fragments.flatMap fun
    | .text value _ => value.toList
    | _ => []

/-- All whitespace in the text is whitespace to HTML, too. -/
def OnlyGaps (value : String) : Prop :=
  ∀ c ∈ value.toList, Text.isSpace c = true → Markup.isGap c = true

/-- What is written for a text keeps the characters that are not whitespace. It keeps all that HTML does not know as
whitespace exactly if it is the text itself, or there is no other whitespace in the text. -/
structure Keeps (value : String) (fragments : List Fragment) : Prop where
  visible : (characters fragments).filter (fun c => !Text.isSpace c) = value.toList.filter fun c => !Text.isSpace c
  whole : (value.toList.filter fun c => !Markup.isGap c).Sublist (characters fragments) ↔
    (∃ escape, fragments = [.text value escape]) ∨ OnlyGaps value

/-- What is written for a node keeps the text that the node is. -/
def KeepsText (tree : Tree) (id : NodeId) (fragments : List Fragment) : Prop :=
  ∀ value, tree.kind id = .text value → Keeps value fragments

variable {value : String} {fragments : List Fragment}

theorem keeps_self (value : String) (escape : Bool) : Keeps value [.text value escape] := by
  have same : characters [.text value escape] = value.toList := List.append_nil _
  refine ⟨by rw [same], fun _ => .inl ⟨escape, rfl⟩, fun _ => ?_⟩
  rw [same]
  exact List.filter_sublist

/-- Texts whose whitespace is written as spaces are kept. -/
theorem keeps_of_spaces (visible : (characters fragments).filter (fun c => !Text.isSpace c) =
      value.toList.filter fun c => !Text.isSpace c)
    (spaces : ∀ c ∈ characters fragments, Text.isSpace c = true → c = ' ') : Keeps value fragments := by
  refine ⟨visible, fun kept => .inr fun c member space => ?_, ?_⟩
  · by_contra other
    have written := kept.subset (List.mem_filter.2 ⟨member, by simpa using other⟩)
    exact other (spaces c written space ▸ rfl)
  · rintro (⟨escape, rfl⟩ | onlyGaps)
    · exact (keeps_self value escape).whole.2 (.inl ⟨escape, rfl⟩)
    · have same : value.toList.filter (fun c => !Markup.isGap c) = value.toList.filter fun c => !Text.isSpace c := by
        exact List.filter_congr fun c member =>
          congrArg _ (Bool.eq_iff_iff.2 ⟨Text.isSpace_of_isGap, onlyGaps c member⟩)
      rw [same, ← visible]
      exact List.filter_sublist

theorem keeps_textFragment (region : Region) (value : String) : Keeps value (textFragment region value) := by
  unfold textFragment
  split
  · exact keeps_self value false
  · split
    · exact keeps_self value true
    · have visible := (Text.collapse?_normal value.toList).2.2.2.1
      split
      · next kept collapsed =>
          rw [collapsed] at visible
          have same : characters [.text (String.ofList kept) true] = kept := by
            simp [characters]
          refine keeps_of_spaces (by rw [same]; exact visible) fun c member space => ?_
          rw [same] at member
          exact Text.eq_space_of_mem_collapse? collapsed member space
      · next none =>
          rw [none] at visible
          exact keeps_of_spaces visible fun c member => absurd member List.not_mem_nil

/-- Nothing has to be written for a blank text. -/
theorem keeps_nil (blank : Text.isBlank value.toList = true) : Keeps value [] := by
  have none : value.toList.filter (fun c => !Text.isSpace c) = [] := by
    simpa [Text.isBlank] using blank
  exact keeps_of_spaces none.symm fun c member => absurd member List.not_mem_nil

end Lowering

/-! ## Texts in compilations -/

/-- A compilation with the core taglib keeps the texts of a template. -/
theorem Compilation.keepsText {options : Options} {fuel : Nat} {root : NodeId} {tree : Tree} {module : CodeModule}
    (template : tree.IsTemplate root) (compiled : (ofTree Registry.core options fuel root tree).result = .ok module) :
    ∃ progress final,
      (Context.start tree options Registry.core).walk Registry.core fuel root = (.ok progress, final) ∧
      Lowering.Renders final.tree (Lowering.KeepsText final.tree) root module.fragments ∧
      ∀ id value, tree.OutsideComments root id → tree.kind id = .text value →
        final.tree.OnPath root id ∧ final.tree.kind id = .text value ∨
          Text.isBlank value.toList = true ∧ Lowering.Keeps value [] := by
  have untagged : (tree.kind root).tag? = none := by
    rw [template.document]
    rfl
  have stays := @Context.start_stays tree options root template.wellFormed untagged template.present fuel
  unfold Walk.Holds at stays
  rw [ofTree, Context.walk] at compiled
  rw [Context.walk]
  generalize Walk.start Registry.core fuel root {} (Context.start tree options Registry.core) = result at stays compiled ⊢
  rcases result with ⟨⟨halt | value, progress⟩, final⟩
  · cases compiled
  · obtain ⟨below, settles, leaves⟩ := stays
    obtain ⟨_, -, finished⟩ := bind_eq_ok_iff.1 (mapError_eq_ok_iff.1 compiled)
    obtain ⟨generated, generates, finished⟩ := bind_eq_ok_iff.1 finished
    obtain rfl := Except.ok.inj finished
    refine ⟨progress, final, rfl, ?_, fun id value outside kind => ?_⟩
    · obtain ⟨⟨fragments, hoisted⟩, lowered, generates⟩ := bind_eq_ok_iff.1 generates
      obtain rfl := Except.ok.inj generates
      refine Tree.lower_renders leaves.wellFormed lowered fun {id region value} _ kind other same => ?_
      obtain rfl := Kind.text.inj (kind.symm.trans same)
      exact Lowering.keeps_textFragment region value
    · exact (leaves.text template.wellFormed template.document settles outside kind).imp_right fun blank =>
        ⟨blank, Lowering.keeps_nil blank⟩

/-- A compilation with the core taglib keeps the texts of a template. The fragments of the module are those of the tree
that the walk leaves, and each text in it is written with all its characters that are not whitespace. Each text of the
template that is in no comment is there, or is blank. What HTML does not know as whitespace gets lost only as whitespace
of a text that is not written as it is. -/
theorem Compiler.compile_keepsText {compiler : Compiler} (core : compiler.registry = Registry.core)
    {file source : String} {module : CodeModule} (compiled : (compiler.compile file source).result = .ok module) :
    ∃ root tree progress final, Template.read file source = .ok (root, tree) ∧
      (Context.start tree compiler.options compiler.registry).walk compiler.registry compiler.fuel root =
        (.ok progress, final) ∧
      Lowering.Renders final.tree (Lowering.KeepsText final.tree) root module.fragments ∧
      ∀ id value, tree.OutsideComments root id → tree.kind id = .text value →
        final.tree.OnPath root id ∧ final.tree.kind id = .text value ∨
          Text.isBlank value.toList = true ∧ Lowering.Keeps value [] := by
  rw [Compiler.compile, core, Compilation.run] at compiled
  rw [core]
  rcases Template.read_cases file source with ⟨fault, refused, -⟩ | ⟨root, tree, done, template, -⟩
  · rw [refused] at compiled
    cases compiled
  · rw [done] at compiled
    obtain ⟨progress, final, walked, kept⟩ := Compilation.keepsText template compiled
    exact ⟨root, tree, progress, final, done, walked, kept⟩

/-- A no-break space in a `<pre>`, and a blank text between an `<if>` and its other branch. -/
theorem Compiler.compile_keepsText_branches :
    let source := "<if test=\"a\">b &lt; c</if> <else><pre>d&nbsp;e</pre></else><html-comment>f</html-comment>"
    let compiler : Compiler := { registry := Registry.core, options := {}, fuel := 60 }
    ∃ module root tree progress final, (compiler.compile "page" source).result = .ok module ∧
      Template.read "page" source = .ok (root, tree) ∧
      (Context.start tree compiler.options compiler.registry).walk compiler.registry compiler.fuel root =
        (.ok progress, final) ∧
      Lowering.Renders final.tree (Lowering.KeepsText final.tree) root module.fragments ∧
      ∀ id value, tree.OutsideComments root id → tree.kind id = .text value →
        final.tree.OnPath root id ∧ final.tree.kind id = .text value ∨
          Text.isBlank value.toList = true ∧ Lowering.Keeps value [] := by
  intro source compiler
  -- The compilation is run on the letters of the source, whose bytes would be slow to decode.
  have letters : source.toList = _ := String.toList_ofList
  have ends : (compiler.compile "page" source).result.isOk = true := by
    change (Compilation.run Registry.core {} 60 "page" source).result.isOk = true
    rw [Compilation.run, Template.read, letters]
    decide +kernel
  generalize compiled : (compiler.compile "page" source).result = result at ends
  rcases result with _ | module
  · cases ends
  · obtain ⟨root, tree, progress, final, kept⟩ := Compiler.compile_keepsText rfl compiled
    exact ⟨module, root, tree, progress, final, rfl, kept⟩

/-- A no-break space between two words is no whitespace to HTML, and is written as a space. -/
theorem Compiler.compile_joins_words :
    let compiler : Compiler := { registry := Registry.core, options := {}, fuel := 40 }
    ∃ module root tree, (compiler.compile "page" "<p>a&nbsp;b</p>").result = .ok module ∧
      Template.read "page" "<p>a&nbsp;b</p>" = .ok (root, tree) ∧
      tree.OutsideComments root ⟨2⟩ ∧ tree.kind ⟨2⟩ = .text "a\u00a0b" ∧ Markup.isGap '\u00a0' = false ∧
      '\u00a0' ∉ module.code.toList := by
  intro compiler
  let page : Tree := { file := "page", nodes := [
    { kind := .document, children := [⟨1⟩], position := .first },
    { kind := .element "p", children := [⟨2⟩], parent := some ⟨0⟩, position := .first },
    { kind := .text "a\u00a0b", parent := some ⟨1⟩, position := .first }] }
  have reads : Template.read "page" "<p>a&nbsp;b</p>" = .ok (⟨0⟩, page) := by decide +kernel
  have compiles : (compiler.compile "page" "<p>a&nbsp;b</p>").result =
      (Compilation.ofTree Registry.core {} 40 ⟨0⟩ page).result := by
    rw [Compiler.compile, Compilation.run, reads]
  -- The code is looked through by its bytes, of which a no-break space has two.
  have ends : (Compilation.ofTree Registry.core {} 40 ⟨0⟩ page).result.toOption.map
      (fun module => module.code.toByteArray.data.toList.contains 0xA0) = some false := by decide +kernel
  have uncommented : ∀ id, page.kind id ≠ .element "html-comment" := by
    rintro ⟨_ | _ | _ | index⟩
    · decide
    · decide
    · decide
    · exact fun impossible => by cases impossible
  rw [compiles]
  generalize (Compilation.ofTree Registry.core {} 40 ⟨0⟩ page).result = result at ends
  rcases result with _ | module
  · cases ends
  · refine ⟨module, ⟨0⟩, page, rfl, reads, ⟨.step rfl (.step rfl .self), fun above _ _ => uncommented above⟩, rfl, rfl, ?_⟩
    intro member
    have written : 0xA0 ∈ module.code.toByteArray.data.toList := Text.mem_toByteArray (by decide) member
    exact absurd written (by simpa using Option.some.inj ends)

end HtmlTemplate
