import HtmlTemplate.CodeModule
import Mathlib.Data.List.SplitBy

/-!
# Static markup is written by one statement

Fragments come to static texts and statements, one behind the other and each at a level of indentation. In the
code that is generated for them each run of static texts between two statements is written by one statement, and
all else stays where it is: static markup is held back while nothing else is printed, and neither a statement nor
the end of a block overtakes it.
-/

namespace HtmlTemplate
namespace Fragment

/-! ## Portions of code -/

/-- What stands around code that is indented. -/
inductive Block
  | branch
  | loop
  /-- The attributes that a handler is called with. -/
  | call
  /-- The function that a handler renders the body of its tag with. -/
  | body
  deriving DecidableEq

/-- What a statement does to the blocks that are open before it. -/
inductive Turn
  | stays
  | opens (block : Block)
  | closes (block : Block)
  /-- It closes a block and opens another one of the kind. -/
  | continues (block : Block)

/-- A portion of the code for fragments, at a level of indentation. -/
inductive Portion
  | static (depth : Nat) (text : String)
  | statement (depth : Nat) (turn : Turn) (text : String)

namespace Portion

/-- Is the portion static? -/
def isStatic : Portion → Bool
  | static _ _ => true
  | statement _ _ _ => false

/-- The text of the portion. -/
def text : Portion → String
  | static _ text => text
  | statement _ _ text => text

/-- The level of the portion. -/
def depth : Portion → Nat
  | static depth _ => depth
  | statement depth _ _ => depth

end Portion

/-- An attribute in a start tag. -/
def attributePortion (depth : Nat) (written : WrittenAttribute) : Portion :=
  match written.value with
  | .static value =>
      .static depth (" " ++ written.name ++ if value.isEmpty then "" else "=\"" ++ Text.escapeAttribute value ++ "\"")
  | .dynamic code =>
      .statement depth .stays ("out.w(attr(" ++ Text.jsonString written.name ++ ", " ++ code ++ "));")

/-- Attributes that a handler is called with. The flag tells whether there is a body too. -/
def fieldPortions (depth : Nat) (more : Bool) : List WrittenAttribute → List Portion
  | [] => []
  | written :: rest =>
      .statement depth .stays (Text.jsonString written.name ++ ": " ++ written.value.toScript ++
        if rest.isEmpty && !more then "" else ",") :: fieldPortions depth more rest

/-- The lines of a comment that stays in the code. -/
def remarkPortions (depth : Nat) (value : String) : List Portion :=
  (((splitLines value.toList).map Text.trim).filter fun line => !line.isEmpty).map fun line =>
    .statement depth .stays ("// " ++ String.ofList line)

mutual

/-- The portions of a fragment in document order. -/
def portions (depth : Nat) : Fragment → List Portion
  | element tag attributes children =>
      .static depth ("<" ++ tag) :: attributes.map (attributePortion depth) ++ .static depth ">" ::
        if Name.isVoid tag then [] else portionsAll depth children ++ [.static depth ("</" ++ tag ++ ">")]
  | text value escape => [.static depth (if escape then Text.escapeText value else value)]
  | write code escape =>
      [.statement depth .stays ("out.w(" ++ (if escape then "escapeXml" else "str") ++ "(" ++ code ++ "));")]
  | comment value true => [.static depth ("<!--" ++ value ++ "-->")]
  | comment value false => remarkPortions depth value
  | doctype name => [.static depth ("<!DOCTYPE " ++ name ++ ">")]
  | tagCall _ handler attributes body =>
      if attributes.isEmpty && body.isEmpty then [.statement depth .stays (handler ++ "(\x7b\x7d, out);")]
      else
        let rendered := if body.isEmpty then [] else
          .statement (depth + 1) (.opens .body) "renderBody: function(out) \x7b" :: portionsAll (depth + 2) body ++
            [.statement (depth + 1) (.closes .body) "\x7d"]
        .statement depth (.opens .call) (handler ++ "(\x7b") ::
          (fieldPortions (depth + 1) (!body.isEmpty) attributes ++ rendered) ++
            [.statement depth (.closes .call) "\x7d, out);"]
  | branching branches =>
      branchPortions depth true branches ++
        if branches.isEmpty then [] else [.statement depth (.closes .branch) "\x7d"]
  | loop item index list source body =>
      [.statement depth .stays ("var " ++ item ++ ", " ++ index ++ ", " ++ list ++ ";"),
       .statement depth (.opens .loop) ("for (" ++ list ++ " = (" ++ source ++ ") || [], " ++ index ++ " = 0; " ++
         index ++ " < " ++ list ++ ".length; " ++ index ++ "++) \x7b"),
       .statement (depth + 1) .stays (item ++ " = " ++ list ++ "[" ++ index ++ "];")] ++
        portionsAll (depth + 1) body ++ [.statement depth (.closes .loop) "\x7d"]

/-- The portions of fragments in document order. -/
def portionsAll (depth : Nat) : List Fragment → List Portion
  | [] => []
  | fragment :: fragments => portions depth fragment ++ portionsAll depth fragments

/-- The portions of branches. The flag tells whether the first of them is the first of its conditional. -/
def branchPortions (depth : Nat) (first : Bool) : List (Option String × List Fragment) → List Portion
  | [] => []
  | (test, body) :: branches =>
      .statement depth (if first then .opens .branch else .continues .branch) (branchHead first test) ::
        portionsAll (depth + 1) body ++ branchPortions depth false branches

end

/-! ## Runs of static texts -/

/-- The portions cut into single statements and runs of static texts, which are as long as can be. -/
def runs (portions : List Portion) : List (List Portion) :=
  portions.splitBy fun first second => first.isStatic && second.isStatic

/-- A run of static texts is written by one statement, if there is anything to write. Other statements stay. -/
def runLines : List Portion → List String
  | [] => []
  | .statement depth _ content :: _ => [Layout.indented depth content]
  | .static depth content :: rest =>
      let whole := String.join (content :: rest.map Portion.text)
      if whole.isEmpty then [] else [Layout.indented depth ("out.w(" ++ Text.jsonString whole ++ ");")]

/-- The lines of code for the portions. -/
def coalesced (portions : List Portion) : List String :=
  (runs portions).flatMap runLines

/-! ## Blocks -/

/--
The blocks that are open behind a portion, the innermost first, if the portion may stand where these blocks are open:
it has to be at their level, and only the innermost block can be closed.
-/
def Portion.step (base : Nat) (blocks : List Block) : Portion → Option (List Block)
  | .static depth _ => if depth = base + blocks.length then some blocks else none
  | .statement depth .stays _ => if depth = base + blocks.length then some blocks else none
  | .statement depth (.opens block) _ => if depth = base + blocks.length then some (block :: blocks) else none
  | .statement depth (.closes block) _ =>
      match blocks with
      | [] => none
      | innermost :: outer => if innermost = block ∧ depth = base + outer.length then some outer else none
  | .statement depth (.continues block) _ =>
      match blocks with
      | [] => none
      | innermost :: outer => if innermost = block ∧ depth = base + outer.length then some blocks else none

/-- Blocks are closed in the reverse of the order in which they are opened, and what is between is at their level. -/
def Nests (base : Nat) (portions : List Portion) : Prop :=
  portions.foldlM (Portion.step base) [] = some []

/-! ## The lines of portions, one by one -/

/-- The lines for portions behind static text that is held back, which has a level too. -/
def linesFrom (depth : Nat) (held : String) : List Portion → List String
  | [] => Layout.flush depth held
  | .static level content :: rest => linesFrom level (held ++ content) rest
  | .statement level _ content :: rest =>
      Layout.flush depth held ++ Layout.indented level content :: linesFrom level "" rest

theorem linesFrom_static (depth level : Nat) (held content : String) (rest : List Portion) :
    linesFrom depth held (.static level content :: rest) = linesFrom level (held ++ content) rest :=
  rfl

theorem linesFrom_statement (depth level : Nat) (held : String) (turn : Turn) (content : String)
    (rest : List Portion) :
    linesFrom depth held (.statement level turn content :: rest) =
      Layout.flush depth held ++ Layout.indented level content :: linesFrom level "" rest :=
  rfl

@[simp]
theorem flush_empty (depth : Nat) : Layout.flush depth "" = [] :=
  rfl

/-- Where nothing is held back its level does not matter. -/
theorem linesFrom_empty (depth other : Nat) (portions : List Portion) :
    linesFrom depth "" portions = linesFrom other "" portions := by
  cases portions with
  | nil => rfl
  | cons portion rest => cases portion <;> rfl

/-- Static texts side by side are at one level. -/
def Level (first second : Portion) : Prop :=
  first.isStatic = true → second.isStatic = true → first.depth = second.depth

theorem coalesced_statement (depth : Nat) (turn : Turn) (content : String) (rest : List Portion) :
    coalesced (.statement depth turn content :: rest) = Layout.indented depth content :: coalesced rest := by
  have cut : runs (.statement depth turn content :: rest) = [.statement depth turn content] :: runs rest := by
    refine (List.splitBy_append (l := [Portion.statement depth turn content]) ?_).trans rfl
    rintro portion member other -
    obtain rfl := Option.some.inj member
    rfl
  rw [coalesced, cut, List.flatMap_cons, runLines]
  rfl

/-- A run ends before a statement. -/
theorem coalesced_append (run : List Portion) (depth : Nat) (turn : Turn) (content : String) (rest : List Portion) :
    coalesced (run ++ Portion.statement depth turn content :: rest) =
      coalesced run ++ coalesced (Portion.statement depth turn content :: rest) := by
  have cut : runs (run ++ Portion.statement depth turn content :: rest) =
      runs run ++ runs (Portion.statement depth turn content :: rest) :=
    List.splitBy_append_cons _ fun portion member => by simp [Portion.isStatic]
  rw [coalesced, cut, List.flatMap_append]
  rfl

/-- A run at one level is written by one statement. -/
theorem coalesced_of_static {run : List Portion} {depth : Nat} (full : run ≠ [])
    (allStatic : ∀ portion ∈ run, portion.isStatic = true) (level : ∀ portion ∈ run, portion.depth = depth) :
    coalesced run = Layout.flush depth (String.join (run.map Portion.text)) := by
  have whole : runs run = [run] := by
    refine List.splitBy_of_isChain full (List.Pairwise.isChain ?_)
    refine List.pairwise_of_forall_mem_list fun first member second other => ?_
    rw [allStatic first member, allStatic second other]
    rfl
  rw [coalesced, whole, List.flatMap_singleton]
  cases run with
  | nil => exact absurd rfl full
  | cons portion rest =>
      cases portion with
      | statement => cases allStatic _ List.mem_cons_self
      | static own content =>
          obtain rfl : own = depth := level _ List.mem_cons_self
          rfl

/-- Text that is held back is written at the end of its run. The induction is on what is behind the run. -/
theorem linesFrom_eq_coalesced (portions : List Portion) (chain : portions.IsChain Level) :
    (∀ depth, linesFrom depth "" portions = coalesced portions) ∧
      ∀ run depth, run ≠ [] → (∀ portion ∈ run, portion.isStatic = true) → (∀ portion ∈ run, portion.depth = depth) →
        (∀ portion ∈ portions.head?, portion.isStatic = true → portion.depth = depth) →
        linesFrom depth (String.join (run.map Portion.text)) portions = coalesced (run ++ portions) := by
  induction portions with
  | nil =>
      refine ⟨fun depth => rfl, fun run depth full allStatic level _ => ?_⟩
      rw [List.append_nil, coalesced_of_static full allStatic level, linesFrom]
  | cons portion rest hypothesis =>
      obtain ⟨empty, behind⟩ := hypothesis (List.IsChain.tail chain)
      cases portion with
      | statement own turn content =>
          refine ⟨fun depth => ?_, fun run depth full allStatic level _ => ?_⟩
          · rw [linesFrom_statement, flush_empty, List.nil_append, empty, coalesced_statement]
          · rw [linesFrom_statement, empty, coalesced_append, coalesced_of_static full allStatic level,
              coalesced_statement]
      | static own content =>
          have next : ∀ portion ∈ rest.head?, portion.isStatic = true → portion.depth = own := by
            intro portion member static
            cases rest with
            | nil => cases member
            | cons other rest =>
                obtain rfl := Option.some.inj member
                exact ((List.isChain_cons_cons.1 chain).1 rfl static).symm
          refine ⟨fun depth => ?_, fun run depth full allStatic level level' => ?_⟩
          · have single := behind [.static own content] own (List.cons_ne_nil _ _) (by simp [Portion.isStatic])
              (by simp [Portion.depth]) next
            rw [linesFrom_static, ← List.singleton_append, ← single]
            simp [Portion.text]
          · obtain rfl : own = depth := level' _ rfl rfl
            have longer := behind (run ++ [Portion.static own content]) own (by simp)
              (by simpa [or_imp, forall_and, Portion.isStatic] using allStatic)
              (by simpa [or_imp, forall_and, Portion.depth] using level) next
            rw [linesFrom_static]
            simpa [Portion.text] using longer

/-! ## Portions in the layout of code -/

/-- Wherever the parts are laid out, their lines are those of the portions. -/
def Writes (depth : Nat) (parts : List Layout) (portions : List Portion) : Prop :=
  ∀ held rest, linesFrom depth held (portions ++ rest) =
    (Layout.linesOf depth held parts).1 ++ linesFrom depth (Layout.linesOf depth held parts).2 rest

/-- The same where a statement follows, which ends what the parts leave open. -/
def WritesUpTo (depth : Nat) (parts : List Layout) (portions : List Portion) : Prop :=
  ∀ held turn content rest, linesFrom depth held (portions ++ Portion.statement depth turn content :: rest) =
    (Layout.linesOf depth held parts).1 ++
      linesFrom depth (Layout.linesOf depth held parts).2 (.statement depth turn content :: rest)

variable {depth : Nat} {parts more : List Layout} {front back : List Portion}

theorem linesOf_cons (depth : Nat) (held : String) (part : Layout) (parts : List Layout) :
    Layout.linesOf depth held (part :: parts) =
      ((Layout.lines depth held part).1 ++ (Layout.linesOf depth (Layout.lines depth held part).2 parts).1,
        (Layout.linesOf depth (Layout.lines depth held part).2 parts).2) :=
  rfl

theorem linesOf_line (depth : Nat) (held content : String) :
    Layout.linesOf depth held [.line content] = (Layout.flush depth held ++ [Layout.indented depth content], "") :=
  Prod.ext (List.append_nil _) rfl

theorem linesOf_block (depth : Nat) (held : String) (parts : List Layout) :
    Layout.linesOf depth held [.block parts] =
      (Layout.flush depth held ++ (Layout.linesOf (depth + 1) "" parts).1 ++
        Layout.flush (depth + 1) (Layout.linesOf (depth + 1) "" parts).2, "") :=
  Prod.ext (List.append_nil _) rfl

theorem linesOf_append (depth : Nat) (held : String) (parts more : List Layout) :
    Layout.linesOf depth held (parts ++ more) =
      ((Layout.linesOf depth held parts).1 ++ (Layout.linesOf depth (Layout.linesOf depth held parts).2 more).1,
        (Layout.linesOf depth (Layout.linesOf depth held parts).2 more).2) := by
  induction parts generalizing held with
  | nil => rfl
  | cons part parts hypothesis => simp [linesOf_cons, hypothesis]

theorem writes_nil : Writes depth [] [] :=
  fun _ _ => rfl

theorem Writes.append (first : Writes depth parts front) (second : Writes depth more back) :
    Writes depth (parts ++ more) (front ++ back) := by
  intro held rest
  rw [List.append_assoc, first, second, linesOf_append, List.append_assoc]

theorem writes_markup (content : String) : Writes depth [.markup content] [.static depth content] :=
  fun _ _ => rfl

theorem writes_line (turn : Turn) (content : String) : Writes depth [.line content] [.statement depth turn content] := by
  intro held rest
  rw [linesOf_line, List.singleton_append, linesFrom_statement, List.append_assoc, List.singleton_append]

theorem Writes.upTo (writes : Writes depth parts front) : WritesUpTo depth parts front :=
  fun held _ _ _ => writes held _

theorem WritesUpTo.close (writes : WritesUpTo depth parts front) (turn : Turn) (content : String) :
    Writes depth (parts ++ [Layout.line content]) (front ++ [Portion.statement depth turn content]) := by
  intro held rest
  rw [List.append_assoc, List.singleton_append, writes, linesOf_append, linesOf_line, linesFrom_statement]
  simp

theorem WritesUpTo.append {turn : Turn} {content : String} (first : WritesUpTo depth parts front)
    (second : WritesUpTo depth more (.statement depth turn content :: back)) :
    WritesUpTo depth (parts ++ more) (front ++ Portion.statement depth turn content :: back) := by
  intro held next after rest
  rw [List.append_assoc, List.cons_append, first, ← List.cons_append, second, linesOf_append, List.append_assoc]

/-- What a block holds is written before the statement behind it. -/
theorem Writes.block (writes : Writes (depth + 1) parts front) (turn : Turn) (content : String) :
    WritesUpTo depth [.line content, .block parts] (.statement depth turn content :: front) := by
  intro held next after rest
  have inside := writes "" (.statement depth next after :: rest)
  have written : Layout.linesOf depth held [.line content, .block parts] = _ :=
    linesOf_append depth held [.line content] [.block parts]
  rw [linesFrom_empty (depth + 1) depth] at inside
  rw [List.cons_append, linesFrom_statement, inside, written, linesOf_line, linesOf_block, linesFrom_statement,
    linesFrom_statement]
  simp

/-! ## Portions of fragments -/

theorem writes_attribute (written : WrittenAttribute) :
    Writes depth [written.layout] [attributePortion depth written] := by
  obtain ⟨name, value | code⟩ := written
  · unfold WrittenAttribute.layout attributePortion
    cases empty : value.isEmpty with
    | true => simpa [empty] using writes_markup (" " ++ name)
    | false =>
        simpa [empty, String.append_assoc] using
          writes_markup (" " ++ name ++ "=\"" ++ Text.escapeAttribute value ++ "\"")
  · exact writes_line _ _

theorem writes_attributes (attributes : List WrittenAttribute) :
    Writes depth (attributes.map WrittenAttribute.layout) (attributes.map (attributePortion depth)) := by
  induction attributes with
  | nil => exact writes_nil
  | cons written rest hypothesis => exact (writes_attribute written).append hypothesis

theorem writes_fields (more : Bool) (attributes : List WrittenAttribute) :
    Writes depth (WrittenAttribute.fields more attributes) (fieldPortions depth more attributes) := by
  induction attributes with
  | nil => exact writes_nil
  | cons written rest hypothesis => exact (writes_line _ _).append hypothesis

theorem writes_remark (value : String) : Writes depth (codeComment value) (remarkPortions depth value) := by
  unfold codeComment remarkPortions
  generalize ((splitLines value.toList).map Text.trim).filter _ = lines
  induction lines with
  | nil => exact writes_nil
  | cons line rest hypothesis => exact (writes_line _ _).append hypothesis

mutual

theorem writes_layout (depth : Nat) : ∀ fragment, Writes depth (layout fragment) (portions depth fragment)
  | element tag attributes children => by
      have start := ((writes_markup ("<" ++ tag)).append (writes_attributes attributes)).append
        (@writes_markup depth ">")
      unfold layout portions
      cases void : Name.isVoid tag with
      | true => simpa [void] using start
      | false =>
          have inside := (writes_layoutAll depth children).append (writes_markup ("</" ++ tag ++ ">"))
          simpa [void] using start.append inside
  | text value escape => by
      unfold layout portions
      exact writes_markup _
  | write code escape => by
      unfold layout portions
      exact writes_line _ _
  | comment value true => by
      unfold layout portions
      exact writes_markup _
  | comment value false => by
      unfold layout portions
      exact writes_remark value
  | doctype name => by
      unfold layout portions
      exact writes_markup _
  | tagCall name handler attributes body => by
      have rendered : Writes (depth + 1)
          (if body.isEmpty then [] else
            [.line "renderBody: function(out) \x7b", .block (layoutAll body), .line "\x7d"])
          (if body.isEmpty then [] else
            .statement (depth + 1) (.opens .body) "renderBody: function(out) \x7b" :: portionsAll (depth + 2) body ++
              [.statement (depth + 1) (.closes .body) "\x7d"]) := by
        cases body.isEmpty with
        | true => exact writes_nil
        | false => exact ((writes_layoutAll (depth + 2) body).block _ _).close _ _
      have inside := (writes_fields (!body.isEmpty) attributes).append rendered
      unfold layout portions
      split
      · exact writes_line _ _
      · exact (inside.block _ _).close _ _
  | branching branches => by
      have inside := writes_layoutBranches depth true branches
      unfold layout portions
      cases branches with
      | nil => simpa [layoutBranches, branchPortions] using writes_nil
      | cons branch branches => exact inside.close _ _
  | loop item index list source body => by
      have inside := (writes_line .stays (item ++ " = " ++ list ++ "[" ++ index ++ "];")).append
        (writes_layoutAll (depth + 1) body)
      unfold layout portions
      exact (writes_line _ _).append ((inside.block _ _).close _ _)

theorem writes_layoutAll (depth : Nat) : ∀ fragments, Writes depth (layoutAll fragments) (portionsAll depth fragments)
  | [] => by
      unfold layoutAll portionsAll
      exact writes_nil
  | fragment :: fragments => by
      unfold layoutAll portionsAll
      exact (writes_layout depth fragment).append (writes_layoutAll depth fragments)

theorem writes_layoutBranches (depth : Nat) (first : Bool) : ∀ branches,
    WritesUpTo depth (layoutBranches first branches) (branchPortions depth first branches)
  | [] => by
      unfold layoutBranches branchPortions
      exact writes_nil.upTo
  | (test, body) :: branches => by
      have head := (writes_layoutAll (depth + 1) body).block (if first then .opens .branch else .continues .branch)
        (branchHead first test)
      have tail := writes_layoutBranches depth false branches
      unfold layoutBranches branchPortions
      cases branches with
      | nil => simpa [layoutBranches, branchPortions] using head
      | cons branch branches =>
          unfold layoutBranches branchPortions at tail ⊢
          exact head.append tail

end

/-! ## Blocks of fragments -/

/-- Where these blocks are open, the portions may follow, and leave the other blocks open. -/
def Leads (base : Nat) (blocks : List Block) (portions : List Portion) (after : List Block) : Prop :=
  portions.foldlM (Portion.step base) blocks = some after

variable {base : Nat} {blocks between after : List Block} {inside : List Portion}

theorem leads_nil : Leads base blocks [] blocks :=
  rfl

theorem Leads.append (first : Leads base blocks front between) (second : Leads base between back after) :
    Leads base blocks (front ++ back) after := by
  rw [Leads, List.foldlM_append, first]
  exact second

theorem leads_single {portion : Portion} (step : portion.step base blocks = some after) :
    Leads base blocks [portion] after := by
  rw [Leads, List.foldlM_cons, step]
  rfl

theorem leads_static (content : String) : Leads base blocks [.static (base + blocks.length) content] blocks :=
  leads_single (if_pos rfl)

theorem leads_stays (content : String) :
    Leads base blocks [.statement (base + blocks.length) .stays content] blocks :=
  leads_single (if_pos rfl)

theorem leads_opens (block : Block) (content : String) :
    Leads base blocks [.statement (base + blocks.length) (.opens block) content] (block :: blocks) :=
  leads_single (if_pos rfl)

theorem leads_closes (block : Block) (content : String) :
    Leads base (block :: blocks) [.statement (base + blocks.length) (.closes block) content] blocks :=
  leads_single (if_pos ⟨rfl, rfl⟩)

theorem leads_continues (block : Block) (content : String) :
    Leads base (block :: blocks) [.statement (base + blocks.length) (.continues block) content] (block :: blocks) :=
  leads_single (if_pos ⟨rfl, rfl⟩)

/-- What is in a block is one level further in. -/
theorem Leads.inBlock {block : Block} (leads : Leads base (block :: blocks) inside (block :: blocks))
    (head tail : String) :
    Leads base blocks (.statement (base + blocks.length) (.opens block) head :: inside ++
      [.statement (base + blocks.length) (.closes block) tail]) blocks :=
  ((leads_opens block head).append leads).append (leads_closes block tail)

theorem leads_attributes (attributes : List WrittenAttribute) :
    Leads base blocks (attributes.map (attributePortion (base + blocks.length))) blocks := by
  induction attributes with
  | nil => exact leads_nil
  | cons written rest hypothesis =>
      have first : Leads base blocks [attributePortion (base + blocks.length) written] blocks := by
        obtain ⟨name, value | code⟩ := written
        · exact leads_static _
        · exact leads_stays _
      exact first.append hypothesis

theorem leads_fields (more : Bool) (attributes : List WrittenAttribute) :
    Leads base blocks (fieldPortions (base + blocks.length) more attributes) blocks := by
  induction attributes with
  | nil => exact leads_nil
  | cons written rest hypothesis => exact (leads_stays _).append hypothesis

theorem leads_remark (value : String) : Leads base blocks (remarkPortions (base + blocks.length) value) blocks := by
  unfold remarkPortions
  generalize ((splitLines value.toList).map Text.trim).filter _ = lines
  induction lines with
  | nil => exact leads_nil
  | cons line rest hypothesis => exact (leads_stays _).append hypothesis

mutual

theorem leads_portions (base : Nat) (blocks : List Block) :
    ∀ fragment, Leads base blocks (portions (base + blocks.length) fragment) blocks
  | element tag attributes children => by
      have start := ((leads_static ("<" ++ tag)).append (leads_attributes attributes)).append
        (@leads_static base blocks ">")
      unfold portions
      cases void : Name.isVoid tag with
      | true => simpa [void] using start
      | false =>
          have inside := (leads_portionsAll base blocks children).append (leads_static ("</" ++ tag ++ ">"))
          simpa [void] using start.append inside
  | text value escape => by
      unfold portions
      exact leads_static _
  | write code escape => by
      unfold portions
      exact leads_stays _
  | comment value true => by
      unfold portions
      exact leads_static _
  | comment value false => by
      unfold portions
      exact leads_remark value
  | doctype name => by
      unfold portions
      exact leads_static _
  | tagCall name handler attributes body => by
      have rendered : Leads base (.call :: blocks)
          (if body.isEmpty then [] else
            .statement (base + blocks.length + 1) (.opens .body) "renderBody: function(out) \x7b" ::
              portionsAll (base + blocks.length + 2) body ++
              [.statement (base + blocks.length + 1) (.closes .body) "\x7d"]) (.call :: blocks) := by
        cases body.isEmpty with
        | true => exact leads_nil
        | false => exact (leads_portionsAll base (.body :: .call :: blocks) body).inBlock _ _
      have inside := (@leads_fields base (.call :: blocks) (!body.isEmpty) attributes).append rendered
      unfold portions
      split
      · exact leads_stays _
      · exact inside.inBlock _ _
  | branching branches => by
      have inside := leads_branchPortions base blocks true branches
      unfold portions
      cases branches with
      | nil => simpa [branchPortions] using leads_nil
      | cons branch branches => exact inside.append (leads_closes .branch _)
  | loop item index list source body => by
      have inside := (@leads_stays base (.loop :: blocks)
        (item ++ " = " ++ list ++ "[" ++ index ++ "];")).append (leads_portionsAll base (.loop :: blocks) body)
      unfold portions
      exact (leads_stays _).append (inside.inBlock _ _)

theorem leads_portionsAll (base : Nat) (blocks : List Block) :
    ∀ fragments, Leads base blocks (portionsAll (base + blocks.length) fragments) blocks
  | [] => by
      unfold portionsAll
      exact leads_nil
  | fragment :: fragments => by
      unfold portionsAll
      exact (leads_portions base blocks fragment).append (leads_portionsAll base blocks fragments)

theorem leads_branchPortions (base : Nat) (blocks : List Block) (first : Bool) : ∀ branches,
    Leads base (if first then blocks else .branch :: blocks) (branchPortions (base + blocks.length) first branches)
      (if first && branches.isEmpty then blocks else .branch :: blocks)
  | [] => by
      unfold branchPortions
      cases first <;> exact leads_nil
  | (test, body) :: branches => by
      have inside := (leads_portionsAll base (.branch :: blocks) body).append
        (leads_branchPortions base blocks false branches)
      unfold branchPortions
      cases first with
      | true => exact (leads_opens .branch _).append inside
      | false => exact (leads_continues .branch _).append inside

end

/-- Static texts side by side are in the same blocks, so they are at one level. -/
theorem Leads.chain {portions : List Portion} (leads : Leads base blocks portions after) : portions.IsChain Level := by
  induction portions generalizing blocks with
  | nil => exact .nil
  | cons first rest hypothesis =>
      obtain ⟨between, step, onward⟩ := Option.bind_eq_some_iff.1 leads
      refine List.isChain_cons.2 ⟨fun second member => ?_, hypothesis onward⟩
      cases first with
      | statement => exact fun static => absurd static Bool.false_ne_true
      | static depth content =>
          intro _ static
          cases rest with
          | nil => cases member
          | cons other rest =>
              obtain rfl := Option.some.inj member
              cases other with
              | statement => exact absurd static Bool.false_ne_true
              | static own text =>
                  obtain ⟨_, further, -⟩ := Option.bind_eq_some_iff.1 onward
                  simp only [Portion.step, Option.ite_none_right_eq_some, Option.some.injEq] at step further
                  obtain ⟨level, rfl⟩ := step
                  exact (level.trans further.1.symm : depth = own)

end Fragment

/-! ## The code that is printed -/

/-- The text of lines of code. -/
def CodeModule.textOf (lines : List String) : String :=
  String.join (lines.map fun line => line ++ "\n")

/-- The text that is printed for fragments at a level of indentation, where nothing is held back. -/
def Fragment.print (depth : Nat) (fragments : List Fragment) : String :=
  let (lines, held) := Layout.linesOf depth "" (layoutAll fragments)
  CodeModule.textOf (lines ++ Layout.flush depth held)

theorem Fragment.linesOf_declarations (hoisted : List Declaration) :
    Layout.linesOf 1 "" (hoisted.map Declaration.layout) =
      (hoisted.map fun declaration => "  var " ++ declaration.name ++ " = " ++ declaration.init ++ ";", "") := by
  induction hoisted with
  | nil => rfl
  | cons declaration rest hypothesis =>
      have line : Layout.indented 1 ("var " ++ declaration.name ++ " = " ++ declaration.init ++ ";") =
          "  var " ++ declaration.name ++ " = " ++ declaration.init ++ ";" :=
        String.toList_inj.1 (by simp [Layout.indented])
      simp only [List.map_cons, Layout.linesOf, Declaration.layout, Layout.lines, hypothesis, line]
      rfl

/-- What the function that creates the module is made of: declarations, and the function that renders the template. -/
theorem Fragment.linesOf_module (hoisted : List Declaration) (fragments : List Fragment) :
    Layout.linesOf 1 ""
      ([Layout.line "var str = __helpers.s,", Layout.line "  escapeXml = __helpers.x,",
        Layout.line "  attr = __helpers.a,", Layout.line "  loadTag = __helpers.t;"] ++
        hoisted.map Declaration.layout ++
        [Layout.blank, Layout.line "return function render(data, out) \x7b", Layout.block (layoutAll fragments),
          Layout.line "\x7d;"]) =
      (["  var str = __helpers.s,", "    escapeXml = __helpers.x,", "    attr = __helpers.a,",
        "    loadTag = __helpers.t;"] ++
        hoisted.map (fun declaration => "  var " ++ declaration.name ++ " = " ++ declaration.init ++ ";") ++
        (["", "  return function render(data, out) \x7b"] ++ ((Layout.linesOf 2 "" (layoutAll fragments)).1 ++
          Layout.flush 2 (Layout.linesOf 2 "" (layoutAll fragments)).2 ++ ["  \x7d;"])), "") := by
  rw [linesOf_append, linesOf_append]
  simp only [Layout.linesOf, Layout.lines, linesOf_declarations]
  rfl

theorem Fragment.linesOf_layoutAll (depth : Nat) (fragments : List Fragment) :
    (Layout.linesOf depth "" (layoutAll fragments)).1 ++
      Layout.flush depth (Layout.linesOf depth "" (layoutAll fragments)).2 = coalesced (portionsAll depth fragments) := by
  have written := writes_layoutAll depth fragments "" []
  have chain : (portionsAll depth fragments).IsChain Level := (leads_portionsAll depth [] fragments).chain
  rw [List.append_nil] at written
  rw [← (linesFrom_eq_coalesced _ chain).1 depth, written, linesFrom]

/--
What is printed for fragments, at any level of indentation, are the lines of their portions in document order, with
each run of static texts between two statements written by one statement. Blocks are closed in the reverse of the order
in which they are opened, and static text is at the level of the blocks around it. In a module these lines are those of
the function that renders the template.
-/
theorem Fragment.print_coalesces (depth : Nat) (fragments : List Fragment) (hoisted : List Declaration) :
    print depth fragments = CodeModule.textOf (coalesced (portionsAll depth fragments)) ∧
      Nests depth (portionsAll depth fragments) ∧
      CodeModule.codeOf fragments hoisted = CodeModule.textOf
        (["module.exports = function create(__helpers) \x7b", "  var str = __helpers.s,",
          "    escapeXml = __helpers.x,", "    attr = __helpers.a,", "    loadTag = __helpers.t;"] ++
          hoisted.map (fun declaration => "  var " ++ declaration.name ++ " = " ++ declaration.init ++ ";") ++
          ["", "  return function render(data, out) \x7b"] ++ coalesced (portionsAll 2 fragments) ++
          ["  \x7d;", "\x7d;"]) := by
  refine ⟨?_, leads_portionsAll depth [] fragments, ?_⟩
  · change CodeModule.textOf (_ ++ _) = _
    rw [linesOf_layoutAll]
  · rw [← linesOf_layoutAll]
    simp only [CodeModule.codeOf, Layout.render, Layout.linesOf, Layout.lines]
    refine congrArg CodeModule.textOf ?_
    rw [Nat.zero_add, linesOf_module]
    simp [Layout.flush, Layout.indented]

/-- Markup on both sides of the end of a branch is written by two statements. -/
example :
    Fragment.print 0 [.branching [(some "a", [.element "b" [] [.text "c" true]])], .text "d" true, .doctype "e"] =
      "if (a) \x7b\n  out.w(\"<b>c</b>\");\n\x7d\nout.w(\"d<!DOCTYPE e>\");\n" := by
  decide +kernel

end HtmlTemplate
