import HtmlTemplate.Control
import HtmlTemplate.Proofs.Desugaring.Form

/-!
# What control tags stand for

The meaning of control tags, as a rewriting of forms in one pass from the top down. A control tag becomes
the construct that it stands for, and takes the branch tags behind it with it. What is then below the
construct is rewritten in the same way. There are no numbers of nodes here, no links and no states.
-/

namespace HtmlTemplate
namespace Form

/-! ## Reading a form -/

/-- The tag of a form that is an element. -/
def tag? (form : Form) : Option String :=
  match form.kind with
  | .element tag => some tag
  | _ => none

/-- The name of a tag that is not an older one. -/
def modernTag : String → String
  | "c-if" => "if"
  | "c-else-if" => "else-if"
  | "c-else" => "else"
  | "c-for" => "for"
  | tag => tag

/-- Is the form a tag for a branch with a test of its own? -/
def isTested (form : Form) : Bool :=
  form.tag?.any fun tag => modernTag tag == "else-if"

/-- Is the form a tag for a branch? -/
def isBranch (form : Form) : Bool :=
  form.isTested || form.tag?.any fun tag => modernTag tag == "else"

/-- Is the form text of whitespace only? -/
def isBlank (form : Form) : Bool :=
  match form.kind with
  | .text value => Text.isBlank value.toList
  | _ => false

/-- The first attribute with a name. -/
def attribute? (form : Form) (name : String) : Option Attribute :=
  form.attributes.find? fun candidate => candidate.name == name

/-- Does the form have no attributes but these? -/
def hasOnly (form : Form) (allowed : List String) : Bool :=
  form.attributes.all fun candidate => allowed.contains candidate.name

/-- The code in an attribute, if there is any. -/
def code? (form : Form) (name : String) : Option String := do
  let found ← form.attribute? name
  if found.value.asCode.isEmpty then none else some found.value.asCode

/-- The form without the first attribute of a name. -/
def without (form : Form) (name : String) : Form :=
  .node form.source form.kind (form.attributes.eraseP fun candidate => candidate.name == name) form.children

/-- The kind, if nodes may be of it. -/
def checked (kind : Kind) : Option Kind :=
  match kind.check with
  | .ok () => some kind
  | .error _ => none

/-- The kind of loops with a header. -/
def loop? (header : String) : Option Kind := do
  let loop ← LoopHeader.parse? header
  checked (.iteration loop.item loop.index loop.source)

/-! ## Control tags -/

/-- The branch tags at the start of the siblings behind an `<if>`, and what is left. Blank text is dropped if
a branch tag follows it. -/
def takeFollowing : List Form → List Form × List Form
  | [] => ([], [])
  | sibling :: rest =>
      if sibling.isBlank then
        if rest.head?.any isBranch then takeFollowing rest else ([], sibling :: rest)
      else if sibling.isBranch then
        (sibling :: (takeFollowing rest).1, (takeFollowing rest).2)
      else ([], sibling :: rest)

/-- The test of a branch tag, if it has one. -/
def test? (form : Form) : Option (Option String) :=
  if form.isTested then
    if form.hasOnly ["test"] then (form.code? "test").map some else none
  else if form.hasOnly [] then some none
  else none

/-- The branches that branch tags stand for. None may follow one without a test. -/
def branches : Bool → List Form → Option (List Form)
  | _, [] => some []
  | true, _ :: _ => none
  | false, form :: rest => do
      let test ← form.test?
      let kind ← checked (.branch test)
      let others ← branches test.isNone rest
      return construct kind form.children :: others

/-- A conditional with one branch. -/
def conditional? (test : String) (children : List Form) : Option Form := do
  let kind ← checked (.branch (some test))
  return construct .conditional [construct kind children]

/-- What an `<if>` stands for, and the siblings that it leaves. -/
def lowerIf (form : Form) (rest : List Form) : Option (Form × List Form) := do
  if form.hasOnly ["test", "for"] then
    let test ← form.code? "test"
    let kind ← checked (.branch (some test))
    let (following, left) := takeFollowing rest
    let others ← branches false (form.children.filter isBranch ++ following)
    let first := construct kind (form.children.filter fun child => !child.isBranch)
    let conditional := construct .conditional (first :: others)
    match form.attribute? "for" with
    | none => return (conditional, left)
    | some header => do
        let loop ← loop? header.value.asCode
        return (construct loop [conditional], left)
  else none

/-- What a `<for>` stands for. -/
def lowerFor (form : Form) : Option Form := do
  if form.hasOnly ["each", "if"] then
    let header ← form.code? "each"
    let loop ← loop? header
    match form.attribute? "if" with
    | none => return construct loop form.children
    | some _ => do
        let test ← form.code? "if"
        let conditional ← conditional? test form.children
        return construct loop [conditional]
  else none

/-- The text of forms, all of which have to be text. -/
def textOf : List Form → Option String
  | [] => some ""
  | form :: rest =>
      match form.kind with
      | .text value => (textOf rest).map fun others => value ++ others
      | _ => none

/-- What an `<html-comment>` stands for. -/
def lowerComment (form : Form) : Option Form := do
  if form.hasOnly [] then
    let value ← textOf form.children
    let kind ← checked (.comment value true)
    return construct kind []
  else none

/-! ## Directives -/

/-- The loop header in an attribute. Values that are no loop headers are left alone. -/
def loopHeader? (form : Form) : Option String := do
  let found ← form.attribute? "for"
  let header := found.value.asCode
  if found.value.isStatic && (LoopHeader.parse? header).isSome then some header else none

/-- What a tag with directives stands for: a loop, or else a conditional, around the tag without the directive. -/
def lowerDirective (form : Form) : Option Form :=
  match form.loopHeader? with
  | some header => do
      let loop ← loop? header
      return construct loop [form.without "for"]
  | none =>
      match form.attribute? "if" with
      | some found =>
          if found.value.asCode.isEmpty then none else conditional? found.value.asCode [form.without "if"]
      | none => some form

/-! ## All forms -/

/-- What a form stands for in view of the siblings behind it, and the siblings that it leaves. The forms
below are still to be rewritten. -/
def rewrite (form : Form) (rest : List Form) : Option (Form × List Form) :=
  match form.tag? with
  | none => some (form, rest)
  | some tag =>
      match modernTag tag with
      | "if" => form.lowerIf rest
      | "for" => form.lowerFor.map fun head => (head, rest)
      | "html-comment" => form.lowerComment.map fun head => (head, rest)
      | "else-if" => none
      | "else" => none
      | _ => form.lowerDirective.map fun head => (head, rest)

/-- What a node itself counts. -/
def ownWeight : Kind → Nat
  | .element _ => 2
  | _ => 1

mutual

/-- A measure that rewriting lowers: attributes count twice, and elements more than constructs. -/
def weight : Form → Nat
  | .node _ kind attributes children =>
      ownWeight kind + 2 * attributes.length + weightAll children

/-- The measure of a list of forms. -/
def weightAll : List Form → Nat
  | [] => 0
  | form :: forms => form.weight + weightAll forms

end

variable {form head : Form} {rest left : List Form}

theorem weight_eq (form : Form) :
    form.weight = ownWeight form.kind + 2 * form.attributes.length + weightAll form.children := by
  cases form
  rw [weight]
  rfl

theorem weight_construct (kind : Kind) (children : List Form) :
    (construct kind children).weight = ownWeight kind + weightAll children := by
  rw [construct, weight]
  rfl

theorem weightAll_cons (form : Form) (forms : List Form) :
    weightAll (form :: forms) = form.weight + weightAll forms := by
  rw [weightAll]

theorem weightAll_append (forms others : List Form) :
    weightAll (forms ++ others) = weightAll forms + weightAll others := by
  induction forms with
  | nil => simp [weightAll]
  | cons form forms hypothesis => rw [List.cons_append, weightAll_cons, weightAll_cons, hypothesis, Nat.add_assoc]

theorem weightAll_filter (keep : Form → Bool) (forms : List Form) :
    weightAll (forms.filter keep) + weightAll (forms.filter fun form => !keep form) = weightAll forms := by
  induction forms with
  | nil => simp [weightAll]
  | cons form forms hypothesis =>
      rw [weightAll_cons, ← hypothesis]
      cases kept : keep form <;> simp [kept, weightAll_cons] <;> omega

theorem weight_without {name : String} (present : (form.attribute? name).isSome) :
    (form.without name).weight + 2 = form.weight := by
  rw [weight_eq, weight_eq form]
  obtain ⟨found, equal⟩ := Option.isSome_iff_exists.1 present
  have member := List.mem_of_find?_eq_some equal
  have named := List.find?_some equal
  have length : (form.attributes.eraseP fun candidate => candidate.name == name).length =
      form.attributes.length - 1 := List.length_eraseP_of_mem member (by simpa using named)
  have positive := List.length_pos_of_mem member
  change ownWeight form.kind + 2 * (form.attributes.eraseP fun candidate => candidate.name == name).length +
    weightAll form.children + 2 = _
  rw [length]
  omega

theorem weightAll_takeFollowing (forms : List Form) :
    weightAll (takeFollowing forms).1 + weightAll (takeFollowing forms).2 ≤ weightAll forms := by
  induction forms with
  | nil => simp [takeFollowing, weightAll]
  | cons form forms hypothesis =>
      unfold takeFollowing
      split
      · split
        · rw [weightAll_cons]
          omega
        · simp [weightAll]
      · split
        · simp only [weightAll_cons]
          omega
        · simp [weightAll]

theorem weight_pos (form : Form) : 0 < form.weight := by
  have own : 0 < ownWeight form.kind := by cases form.kind <;> simp [ownWeight]
  rw [weight_eq]
  omega

theorem weight_of_tag? {tag : String} (tagged : form.tag? = some tag) :
    form.weight = 2 + 2 * form.attributes.length + weightAll form.children := by
  rw [weight_eq]
  unfold tag? at tagged
  split at tagged
  · next kind => rw [kind, ownWeight]
  · cases tagged

theorem ownWeight_checked {kind made : Kind} (passes : checked kind = some made) : made = kind := by
  unfold checked at passes
  split at passes
  · exact (Option.some.inj passes).symm
  · cases passes

/-- A branch weighs no more than its tag. -/
theorem weightAll_branches {closed : Bool} {forms made : List Form} (found : branches closed forms = some made) :
    weightAll made ≤ weightAll forms := by
  induction forms generalizing closed made with
  | nil =>
      obtain rfl : [] = made := by
        cases closed <;> exact Option.some.inj found
      exact Nat.le_refl _
  | cons form forms hypothesis =>
      cases closed with
      | true => cases found
      | false =>
          simp only [branches, Option.bind_eq_bind, Option.bind_eq_some_iff] at found
          obtain ⟨test, -, kind, passes, others, rest, done⟩ := found
          obtain rfl := Option.some.inj done
          have below := hypothesis rest
          rw [weightAll_cons, weightAll_cons, weight_construct, ownWeight_checked passes, weight_eq form]
          have own : ownWeight (.branch test) ≤ ownWeight form.kind := by
            cases form.kind <;> simp [ownWeight]
          omega

theorem weight_conditional? {test : String} {children : List Form} {made : Form}
    (found : conditional? test children = some made) : made.weight = 2 + weightAll children := by
  simp only [conditional?, Option.bind_eq_bind, Option.bind_eq_some_iff] at found
  obtain ⟨kind, passes, done⟩ := found
  obtain rfl := Option.some.inj done
  rw [weight_construct, weightAll_cons, weight_construct, ownWeight_checked passes]
  simp only [ownWeight, weightAll]
  omega

theorem attribute?_isSome_of_code? {name code : String} (found : form.code? name = some code) :
    (form.attribute? name).isSome := by
  simp only [code?, Option.bind_eq_bind, Option.bind_eq_some_iff] at found
  obtain ⟨given, found, -⟩ := found
  rw [found]
  rfl

theorem length_attributes_pos {name : String} (present : (form.attribute? name).isSome) :
    0 < form.attributes.length := by
  obtain ⟨found, equal⟩ := Option.isSome_iff_exists.1 present
  exact List.length_pos_of_mem (List.mem_of_find?_eq_some equal)

theorem weight_lowerIf {tag : String} (tagged : form.tag? = some tag)
    (found : form.lowerIf rest = some (head, left)) :
    weightAll head.children + weightAll left + 1 < form.weight + weightAll rest := by
  unfold lowerIf at found
  split at found
  · simp only [Option.bind_eq_bind, Option.bind_eq_some_iff] at found
    obtain ⟨test, tested, kind, passes, others, added, found⟩ := found
    have own := weight_of_tag? tagged
    have attributed := length_attributes_pos (attribute?_isSome_of_code? tested)
    have below := weightAll_branches added
    have taken := weightAll_takeFollowing rest
    have parted := weightAll_filter isBranch form.children
    rw [weightAll_append] at below
    have first : ownWeight kind = 1 := by
      rw [ownWeight_checked passes]
      rfl
    split at found
    · obtain ⟨rfl, rfl⟩ := Prod.mk.inj (Option.some.inj found)
      rw [construct, children, weightAll_cons, weight_construct, first]
      omega
    · obtain ⟨loop, -, found⟩ := Option.bind_eq_some_iff.1 found
      obtain ⟨rfl, rfl⟩ := Prod.mk.inj (Option.some.inj found)
      rw [construct, children, weightAll_cons, weight_construct, weightAll_cons, weight_construct, first]
      simp only [ownWeight, weightAll]
      omega
  · cases found

theorem weight_lowerFor {tag : String} (tagged : form.tag? = some tag) (found : form.lowerFor = some head) :
    weightAll head.children + 1 < form.weight := by
  unfold lowerFor at found
  split at found
  · simp only [Option.bind_eq_bind, Option.bind_eq_some_iff] at found
    obtain ⟨header, named, loop, -, found⟩ := found
    have own := weight_of_tag? tagged
    have attributed := length_attributes_pos (attribute?_isSome_of_code? named)
    split at found
    · obtain rfl := Option.some.inj found
      rw [construct, children]
      omega
    · simp only [Option.bind_eq_some_iff] at found
      obtain ⟨test, -, conditional, made, found⟩ := found
      obtain rfl := Option.some.inj found
      rw [construct, children, weightAll_cons, weight_conditional? made]
      simp only [weightAll]
      omega
  · cases found

theorem weight_lowerComment (found : form.lowerComment = some head) :
    weightAll head.children < form.weight := by
  unfold lowerComment at found
  split at found
  · simp only [Option.bind_eq_bind, Option.bind_eq_some_iff] at found
    obtain ⟨value, -, kind, -, found⟩ := found
    obtain rfl := Option.some.inj found
    exact weight_pos form
  · cases found

theorem weight_lowerDirective (found : form.lowerDirective = some head) :
    weightAll head.children < form.weight := by
  unfold lowerDirective at found
  split at found
  · next header carried =>
      simp only [Option.bind_eq_bind, Option.bind_eq_some_iff] at found
      obtain ⟨loop, -, found⟩ := found
      obtain rfl := Option.some.inj found
      have present : (form.attribute? "for").isSome := by
        simp only [loopHeader?, Option.bind_eq_bind, Option.bind_eq_some_iff] at carried
        obtain ⟨given, carried, -⟩ := carried
        rw [carried]
        rfl
      have lighter := weight_without present
      rw [construct, children, weightAll_cons, weightAll]
      omega
  · split at found
    · next given carried =>
        split at found
        · cases found
        · simp only [conditional?, Option.bind_eq_bind, Option.bind_eq_some_iff] at found
          obtain ⟨kind, passes, done⟩ := found
          obtain rfl := Option.some.inj done
          have lighter : (form.without "if").weight + 2 = form.weight := weight_without (by rw [carried]; rfl)
          rw [construct, children, weightAll_cons, weight_construct, ownWeight_checked passes]
          simp only [ownWeight, weightAll]
          omega
    · obtain rfl := Option.some.inj found
      rw [weight_eq]
      have own : 0 < ownWeight form.kind := by cases form.kind <;> simp [ownWeight]
      omega

/-- What is left to rewrite weighs less. -/
theorem weight_rewrite (found : form.rewrite rest = some (head, left)) :
    weightAll head.children + weightAll left < weightAll (form :: rest) := by
  rw [weightAll_cons]
  unfold rewrite at found
  split at found
  · obtain ⟨rfl, rfl⟩ := Prod.mk.inj (Option.some.inj found)
    rw [weight_eq]
    have own : 0 < ownWeight form.kind := by cases form.kind <;> simp [ownWeight]
    omega
  · next tag tagged =>
      split at found
      · exact Nat.lt_of_succ_lt (weight_lowerIf tagged found)
      · obtain ⟨made, lowered, equal⟩ := Option.map_eq_some_iff.1 found
        obtain ⟨rfl, rfl⟩ := Prod.mk.inj equal
        exact Nat.add_lt_add_right (Nat.lt_of_succ_lt (weight_lowerFor tagged lowered)) _
      · obtain ⟨made, lowered, equal⟩ := Option.map_eq_some_iff.1 found
        obtain ⟨rfl, rfl⟩ := Prod.mk.inj equal
        exact Nat.add_lt_add_right (weight_lowerComment lowered) _
      · cases found
      · cases found
      · obtain ⟨made, lowered, equal⟩ := Option.map_eq_some_iff.1 found
        obtain ⟨rfl, rfl⟩ := Prod.mk.inj equal
        exact Nat.add_lt_add_right (weight_lowerDirective lowered) _

/-- What forms stand for, if they stand for anything: from the top down and from the left to the right. -/
def expand (forms : List Form) : Option (List Form) :=
  match forms with
  | [] => some []
  | form :: rest =>
      match _found : form.rewrite rest with
      | none => none
      | some (head, left) => do
          let below ← expand head.children
          let others ← expand left
          return head.withChildren below :: others
termination_by weightAll forms
decreasing_by
  · have lighter := weight_rewrite _found
    omega
  · have lighter := weight_rewrite _found
    omega

theorem expand_nil : expand [] = some [] := by
  rw [expand]

theorem expand_cons (form : Form) (rest : List Form) :
    expand (form :: rest) = do
      let (head, left) ← form.rewrite rest
      let below ← expand head.children
      let others ← expand left
      return head.withChildren below :: others := by
  rw [expand]
  split
  · next found => rw [found]; rfl
  · next head left found => rw [found]; rfl

end Form
end HtmlTemplate
