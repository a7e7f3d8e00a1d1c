import HtmlTemplate.Proofs.Markup.Content
import HtmlTemplate.Proofs.Markup.Rules

/-!
# Where the names in content come from

The names in the content of a document are names of the tokens that were taken of its text, spelled as their
vocabulary spells them, or names that the rules write of their own accord.
-/

namespace HtmlTemplate
namespace Markup

open Std.Do

set_option mvcgen.warning false

variable {accepts : String → Prop}

/-! ## Tokens -/

namespace Build

/-- The tokens that are taken of a text from a state on, in order. Text that is read as raw text gives texts. -/
def tokensOf : Nat → List Char → Construction → List Token
  | 0, _, _ => []
  | rounds + 1, text, state =>
      let (tokens, rest) := readTokens (inForeign.run state).1 text
      match (takeTokens .done tokens).run state with
      | (.raw kind tag, state) =>
          let (raw, rest) := readRawTokens kind tag rest
          tokens ++ raw ++ tokensOf rounds rest ((takeTokens .done raw).run state).2
      | (.plaintext, _) => tokens ++ rawTokens rest
      | (_, state) => if text.isEmpty then tokens else tokens ++ tokensOf rounds rest state

@[spec]
theorem keeps_takeDoctype {declared : Doctype} (accepted : accepts declared.name) :
    Keeps accepts (takeDoctype declared) := by
  mvcgen [takeDoctype] with grind

@[spec]
theorem passes_treat (own : AcceptsOwn accepts) (budget : Nat) {token : Token} (named : token.Named accepts) :
    Passes accepts (treat budget token) := by
  induction budget generalizing token with
  | zero => mvcgen [treat]
  | succ budget hypothesis => mvcgen [treat, hypothesis] with grind

theorem named_withoutLineFeed {token rest : Token} (named : token.Named accepts) {drops : Bool}
    (left : (if drops then withoutLineFeed token else some token) = some rest) : rest.Named accepts := by
  split at left
  · unfold withoutLineFeed at left
    split at left <;> cases left
    · exact trivial
    · exact named
  · cases left
    exact named

@[spec]
theorem passes_takeToken (own : AcceptsOwn accepts) {token : Token} (named : token.Named accepts) :
    Passes accepts (takeToken token) := by
  mvcgen [takeToken]
  case vc3.accepted left => exact named_withoutLineFeed named left
  case vc7.named left => exact named_withoutLineFeed named left
  all_goals grind

@[spec]
theorem keeps_takeTokens (own : AcceptsOwn accepts) {tokens : List Token}
    (named : ∀ token ∈ tokens, token.Named accepts) (next : Next) : Keeps accepts (takeTokens next tokens) := by
  induction tokens generalizing next with
  | nil => mvcgen [takeTokens]
  | cons token rest hypothesis =>
    obtain ⟨first, later⟩ := List.forall_mem_cons.1 named
    have begins := passes_takeToken own first
    have goesOn := hypothesis later
    mvcgen [takeTokens, begins, goesOn] with grind

theorem named_takeTokens (own : AcceptsOwn accepts) {tokens : List Token}
    (named : ∀ token ∈ tokens, token.Named accepts) (next : Next) {state : Construction} (before : state.Named accepts) :
    ((takeTokens next tokens).run state).2.Named accepts :=
  keeps_takeTokens own named next state before

theorem run_bind {α β : Type} (first : Build α) (next : α → Build β) (state : Construction) :
    (first >>= next).run state = (next (first.run state).1).run (first.run state).2 :=
  rfl

theorem run_takeText_succ (rounds : Nat) (text : List Char) (state : Construction) :
    (takeText (rounds + 1) text).run state =
      let (tokens, rest) := readTokens (inForeign.run state).1 text
      match (takeTokens .done tokens).run state with
      | (.raw kind tag, state) =>
          let (raw, rest) := readRawTokens kind tag rest
          (takeText rounds rest).run ((takeTokens .done raw).run state).2
      | (.plaintext, state) => ((), ((takeToken .done).run ((takeTokens .done (rawTokens rest)).run state).2).2)
      | (_, state) => if text.isEmpty then ((), state) else (takeText rounds rest).run state := by
  have asks : (inForeign.run state).2 = state := rfl
  rw [takeText, run_bind, asks]
  dsimp only
  rw [run_bind]
  cases (takeTokens .done (readTokens (inForeign.run state).1 text).1).run state with
  | mk next after =>
    cases next with
    | raw kind tag => rfl
    | plaintext => rfl
    | done => exact apply_ite (fun work : Build Unit => work.run after) _ _ _
    | again token => exact apply_ite (fun work : Build Unit => work.run after) _ _ _
/-- What a whole run preserves: text whose tokens have accepted names leads to accepted names only. The induction is
on the rounds. -/
theorem named_takeText (own : AcceptsOwn accepts) (rounds : Nat) (text : List Char) {state : Construction}
    (before : state.Named accepts) (named : ∀ token ∈ tokensOf rounds text state, token.Named accepts) :
    ((takeText rounds text).run state).2.Named accepts := by
  induction rounds generalizing text state with
  | zero => exact before
  | succ rounds hypothesis =>
    rw [tokensOf] at named
    rw [run_takeText_succ]
    cases read : readTokens (inForeign.run state).1 text with
    | mk tokens rest =>
      rw [read] at named
      dsimp only at named ⊢
      cases taken : (takeTokens .done tokens).run state with
      | mk next after =>
        rw [taken] at named
        have kept : (∀ token ∈ tokens, token.Named accepts) → after.Named accepts := by
          intro first
          have whole := named_takeTokens own first .done before
          rw [taken] at whole
          exact whole
        have goesOn : (∀ token ∈ if text.isEmpty then tokens else tokens ++ tokensOf rounds rest after,
              token.Named accepts) →
            (if text.isEmpty then ((), after) else (takeText rounds rest).run after).2.Named accepts := by
          intro named
          split at named
          · next empty =>
            rw [if_pos empty]
            exact kept named
          · next more =>
            obtain ⟨first, later⟩ := List.forall_mem_append.1 named
            rw [if_neg more]
            exact hypothesis _ (kept first) later
        cases next with
        | raw kind tag =>
          obtain ⟨both, later⟩ := List.forall_mem_append.1 named
          obtain ⟨first, raw⟩ := List.forall_mem_append.1 both
          exact hypothesis _ (named_takeTokens own raw .done (kept first)) later
        | plaintext =>
          obtain ⟨first, raw⟩ := List.forall_mem_append.1 named
          have done : Token.done.Named accepts := trivial
          exact (passes_takeToken own done _ (named_takeTokens own raw .done (kept first))).2
        | done => exact goesOn named
        | again token => exact goesOn named

end Build

/-- The tokens that are taken of a text. -/
def tokens (text : List Char) : List Token :=
  let text := joinLineEnds (withoutMark text)
  Build.tokensOf (text.length + 2) text {}

/-! ## Content -/

theorem Draft.Named.matter {draft : Draft} (named : draft.Named accepts) (ref : Ref) :
    (draft.matter ref).Named accepts := by
  unfold Draft.matter Draft.item
  rw [List.getD_eq_getElem?_getD]
  cases found : draft.items[ref.index]? with
  | none => exact trivial
  | some item => exact named item (List.mem_of_getElem? found)

/-- The content of a draft has the names of the draft. The induction is on the depth. -/
theorem Draft.Named.contentOf {draft : Draft} (named : draft.Named accepts) (budget : Nat) (ref : Ref) :
    ∀ content ∈ Content.deepAll (draft.contentOf budget ref), ∀ name ∈ content.names, accepts name := by
  induction budget generalizing ref with
  | zero => exact fun content member => absurd member List.not_mem_nil
  | succ budget hypothesis =>
    have below : ∀ refs : List Ref, ∀ content ∈ Content.deepAll (refs.flatMap (draft.contentOf budget)),
        ∀ name ∈ content.names, accepts name := by
      intro refs content member
      obtain ⟨child, -, inside⟩ := Content.mem_deepAll_flatMap.1 member
      exact hypothesis child content inside
    have own := named.matter ref
    rw [Draft.contentOf]
    cases matter : draft.matter ref with
    | holder => exact below _
    | doctype declared =>
      rw [matter] at own
      intro content member name written
      obtain rfl := List.mem_singleton.1 member
      obtain rfl := List.mem_singleton.1 written
      exact own
    | text value =>
      intro content member name written
      obtain rfl := List.mem_singleton.1 member
      cases written
    | comment value =>
      intro content member name written
      obtain rfl := List.mem_singleton.1 member
      cases written
    | element tag attributes inside =>
      rw [matter] at own
      dsimp only
      rw [Content.deepAll, Content.deepAll, List.append_nil, Content.deep]
      refine List.forall_mem_cons.2 ⟨?_, below _⟩
      refine List.forall_mem_cons.2 ⟨own.1, fun name written => ?_⟩
      obtain ⟨given, present, rfl⟩ := List.mem_map.1 written
      exact own.2 given present

/-- Names in the content of a document are accepted, if those of the tokens that were taken of the text are, and
those that the rules write of their own accord. -/
theorem accepts_of_mem_names_read (own : AcceptsOwn accepts) {text : List Char}
    (named : ∀ token ∈ tokens text, token.Named accepts) :
    ∀ content ∈ Content.deepAll (read text), ∀ name ∈ content.names, accepts name := by
  have empty : ({} : Construction).Named accepts :=
    ⟨Draft.named_empty, fun entry member => absurd member List.not_mem_nil,
      fun token member => absurd member List.not_mem_nil⟩
  exact (Build.named_takeText own _ _ empty named).draft.contentOf _ _

end Markup
end HtmlTemplate
