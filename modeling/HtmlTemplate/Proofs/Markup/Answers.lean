import HtmlTemplate.Markup.Document
import Mathlib.Tactic.SplitIfs

/-!
# What the rules ask for

The rules answer a token by asking for the same token once more, for raw text or for nothing. Raw text is asked for
by start tags only, and it ends with the end tag of the same name.
-/

namespace HtmlTemplate
namespace Markup

/-- The tags of elements whose content is raw text. -/
def rawTags : List String :=
  ["title", "noframes", "style", "script", "noscript", "textarea", "xmp", "iframe", "noembed"]

/-- What a token may be answered by. -/
@[grind =]
def Next.Suits (token : Token) : Next → Prop
  | .done => True
  | .again other => other = token
  | .raw kind name => name ∈ rawTags ∧ (kind = .script → name = "script") ∧ ∃ tag, token = .start tag ∧ tag.name = name
  | .plaintext => ∃ tag, token = .start tag ∧ tag.name = "plaintext"

namespace Build

variable {α : Type} {token : Token} {tag : Tag}

/-- Whatever the state is, the token is answered by something that suits it. -/
def Answers (token : Token) (work : Build Next) : Prop :=
  ∀ state, (work.run state).1.Suits token

@[grind ←]
theorem answers_pure (next : Next) (suits : next.Suits token) : Answers token (pure next) :=
  fun _ => suits

@[grind ←]
theorem Answers.bind {work : Build α} {next : α → Build Next} (each : ∀ value, Answers token (next value)) :
    Answers token (work >>= next) :=
  fun state => each (work.run state).1 (work.run state).2

/-- What follows an answer does not change it. -/
theorem Answers.keep {work : Build Next} {behind : Build α} (answers : Answers token work) :
    Answers token (work >>= fun next => behind >>= fun _ => pure next) :=
  fun state => answers state

@[grind .]
theorem answers_againIn (mode : Mode) : Answers token (againIn mode token) :=
  .bind fun _ => answers_pure _ rfl

@[grind .]
theorem answers_againAfterReset : Answers token (againAfterReset token) :=
  .bind fun _ => answers_pure _ rfl

@[grind ←]
theorem answers_insertRaw {kind : RawKind} (raw : tag.name ∈ rawTags) (script : kind = .script → tag.name = "script") :
    Answers (.start tag) (insertRaw kind tag) :=
  .bind fun _ => .bind fun _ => answers_pure _ ⟨raw, script, tag, rfl, rfl⟩

/-! ## Head -/

@[grind .]
theorem answers_openTemplate : Answers token (openTemplate tag) := by
  grind [openTemplate]

@[grind .]
theorem answers_stopTemplate : Answers token stopTemplate := by
  grind [stopTemplate]

theorem answers_startInHead : Answers (.start tag) (startInHead tag) := by
  have raw : "title" ∈ rawTags ∧ "noframes" ∈ rawTags ∧ "style" ∈ rawTags ∧ "script" ∈ rawTags := by decide
  grind [startInHead]

theorem answers_startHtml : Answers token (startHtml tag) := by
  unfold startHtml
  refine .bind fun inTemplate => ?_
  split
  · exact answers_pure _ trivial
  · refine .bind fun state => ?_
    split <;> grind

theorem answers_stepInitial : Answers token (stepInitial token) := by
  cases token <;> grind [stepInitial]

theorem answers_stepBeforeHtml : Answers token (stepBeforeHtml token) := by
  cases token <;> grind [stepBeforeHtml]

theorem answers_stepBeforeHead : Answers token (stepBeforeHead token) := by
  have html (tag : Tag) : Answers token (startHtml tag) := answers_startHtml
  cases token <;> grind [stepBeforeHead]

theorem answers_stepInHead : Answers token (stepInHead token) := by
  have html (tag : Tag) : Answers token (startHtml tag) := answers_startHtml
  have head (tag : Tag) : Answers (.start tag) (startInHead tag) := answers_startInHead
  have raw : "noscript" ∈ rawTags := by decide
  cases token <;> grind [stepInHead]

theorem answers_startLateInHead : Answers (.start tag) (startLateInHead tag) := by
  unfold startLateInHead
  refine .bind fun state => ?_
  split
  · exact answers_startInHead
  · exact .bind fun _ => answers_startInHead.keep

theorem answers_stepAfterHead : Answers token (stepAfterHead token) := by
  have html (tag : Tag) : Answers token (startHtml tag) := answers_startHtml
  have late (tag : Tag) : Answers (.start tag) (startLateInHead tag) := answers_startLateInHead
  cases token <;> grind [stepAfterHead]

/-! ## Body -/

theorem answers_startRaw {work : Build Next} (raw : startRaw? tag = some work) : Answers (.start tag) work := by
  have known : "textarea" ∈ rawTags ∧ "xmp" ∈ rawTags ∧ "iframe" ∈ rawTags ∧ "noembed" ∈ rawTags ∧
      "noscript" ∈ rawTags := by decide
  grind [startRaw?]

theorem answers_startInBody : Answers (.start tag) (startInBody tag) := by
  unfold startInBody
  split_ifs with html head plaintext
  · exact answers_startHtml
  · exact answers_startInHead
  · exact .bind fun _ => answers_pure .plaintext ⟨tag, rfl, beq_iff_eq.1 plaintext⟩
  · exact .bind fun _ => answers_pure _ trivial
  · exact .bind fun _ => answers_pure _ trivial
  · split
    · next raw => exact answers_startRaw raw
    · exact .bind fun _ => answers_pure _ trivial
    · exact .bind fun _ => answers_pure _ trivial

theorem answers_stopInBody (name : String) : Answers (.stop name) (stopInBody name) := by
  grind [stopInBody]

theorem answers_endInTemplate : Answers .done endInTemplate := by
  grind [endInTemplate]

theorem answers_stepInBody : Answers token (stepInBody token) := by
  have starts (tag : Tag) : Answers (.start tag) (startInBody tag) := answers_startInBody
  have stops (name : String) : Answers (.stop name) (stopInBody name) := answers_stopInBody name
  have ends : Answers .done endInTemplate := answers_endInTemplate
  cases token <;> grind [stepInBody]

theorem answers_stepRawText : Answers token (stepRawText token) := by
  cases token <;> grind [stepRawText]

theorem answers_stepInTemplate : Answers token (stepInTemplate token) := by
  have head (tag : Tag) : Answers (.start tag) (startInHead tag) := answers_startInHead
  have body : Answers token (stepInBody token) := answers_stepInBody
  have ends : Answers .done endInTemplate := answers_endInTemplate
  cases token <;> grind [stepInTemplate]

/-! ## Tables and selections -/

theorem answers_foster : Answers token (foster token) :=
  .bind fun _ => answers_stepInBody.keep

theorem answers_gatherText : Answers token (gatherText token) := by
  have fostered : Answers token (foster token) := answers_foster
  grind [gatherText]

theorem answers_startPart (mode : Mode) : Answers token (startPart tag mode) := by
  grind [startPart]

theorem answers_startInPart (part : String) (mode : Mode) : Answers token (startInPart part mode token) := by
  grind [startInPart]

theorem answers_startInTable : Answers (.start tag) (startInTable tag) := by
  have head : Answers (.start tag) (startInHead tag) := answers_startInHead
  have fostered : Answers (.start tag) (foster (.start tag)) := answers_foster
  have part (mode : Mode) : Answers (.start tag) (startPart tag mode) := answers_startPart mode
  have inPart (part : String) (mode : Mode) : Answers (.start tag) (startInPart part mode (.start tag)) :=
    answers_startInPart part mode
  grind [startInTable]

theorem answers_stepInTable : Answers token (stepInTable token) := by
  have body : Answers token (stepInBody token) := answers_stepInBody
  have fostered : Answers token (foster token) := answers_foster
  have gathered : Answers token (gatherText token) := answers_gatherText
  have starts (tag : Tag) : Answers (.start tag) (startInTable tag) := answers_startInTable
  cases token <;> grind [stepInTable]

theorem answers_stepInTableText : Answers token (stepInTableText token) := by
  cases token <;> grind [stepInTableText]

theorem answers_stepInCaption : Answers token (stepInCaption token) := by
  have body : Answers token (stepInBody token) := answers_stepInBody
  cases token <;> grind [stepInCaption]

theorem answers_stepInColumns : Answers token (stepInColumns token) := by
  have html (tag : Tag) : Answers token (startHtml tag) := answers_startHtml
  have head (tag : Tag) : Answers (.start tag) (startInHead tag) := answers_startInHead
  have body : Answers token (stepInBody token) := answers_stepInBody
  cases token <;> grind [stepInColumns]

theorem answers_closeRowGroup : Answers token (closeRowGroup token) := by
  grind [closeRowGroup]

theorem answers_stepInRowGroup : Answers token (stepInRowGroup token) := by
  have table : Answers token (stepInTable token) := answers_stepInTable
  have group : Answers token (closeRowGroup token) := answers_closeRowGroup
  cases token <;> grind [stepInRowGroup]

theorem answers_stepInRow : Answers token (stepInRow token) := by
  have table : Answers token (stepInTable token) := answers_stepInTable
  cases token <;> grind [stepInRow]

theorem answers_stepInCell : Answers token (stepInCell token) := by
  have body : Answers token (stepInBody token) := answers_stepInBody
  cases token <;> grind [stepInCell]

theorem answers_startInSelect : Answers (.start tag) (startInSelect tag) := by
  have html : Answers (.start tag) (startHtml tag) := answers_startHtml
  have head : Answers (.start tag) (startInHead tag) := answers_startInHead
  grind [startInSelect]

theorem answers_stopInSelect (name : String) : Answers (.stop name) (stopInSelect name) := by
  unfold stopInSelect
  split <;> grind

theorem answers_stepInSelect : Answers token (stepInSelect token) := by
  have body : Answers token (stepInBody token) := answers_stepInBody
  have selects (tag : Tag) : Answers (.start tag) (startInSelect tag) := answers_startInSelect
  have unselects (name : String) : Answers (.stop name) (stopInSelect name) := answers_stopInSelect name
  cases token <;> grind [stepInSelect]

theorem answers_stepInSelectInTable : Answers token (stepInSelectInTable token) := by
  have select : Answers token (stepInSelect token) := answers_stepInSelect
  cases token <;> grind [stepInSelectInTable]

/-! ## What follows the content -/

theorem answers_stepAfterBody : Answers token (stepAfterBody token) := by
  have html (tag : Tag) : Answers token (startHtml tag) := answers_startHtml
  have body : Answers token (stepInBody token) := answers_stepInBody
  cases token <;> grind [stepAfterBody]

theorem answers_stepAfterAfterBody : Answers token (stepAfterAfterBody token) := by
  have html (tag : Tag) : Answers token (startHtml tag) := answers_startHtml
  have body : Answers token (stepInBody token) := answers_stepInBody
  cases token <;> grind [stepAfterAfterBody]

theorem answers_stepInFrames : Answers token (stepInFrames token) := by
  have html (tag : Tag) : Answers token (startHtml tag) := answers_startHtml
  have head (tag : Tag) : Answers (.start tag) (startInHead tag) := answers_startInHead
  cases token <;> grind [stepInFrames]

theorem answers_stepAfterFrames : Answers token (stepAfterFrames token) := by
  have html (tag : Tag) : Answers token (startHtml tag) := answers_startHtml
  have head (tag : Tag) : Answers (.start tag) (startInHead tag) := answers_startInHead
  cases token <;> grind [stepAfterFrames]

theorem answers_stepAfterAfterFrames : Answers token (stepAfterAfterFrames token) := by
  have html (tag : Tag) : Answers token (startHtml tag) := answers_startHtml
  have head (tag : Tag) : Answers (.start tag) (startInHead tag) := answers_startInHead
  have body : Answers token (stepInBody token) := answers_stepInBody
  cases token <;> grind [stepAfterAfterFrames]

/-! ## All modes, and foreign content -/

theorem answers_step (mode : Mode) : Answers token (step mode token) := by
  cases mode with
  | initial => exact answers_stepInitial
  | beforeHtml => exact answers_stepBeforeHtml
  | beforeHead => exact answers_stepBeforeHead
  | inHead => exact answers_stepInHead
  | afterHead => exact answers_stepAfterHead
  | inBody => exact answers_stepInBody
  | rawText => exact answers_stepRawText
  | inTable => exact answers_stepInTable
  | inTableText => exact answers_stepInTableText
  | inCaption => exact answers_stepInCaption
  | inColumns => exact answers_stepInColumns
  | inRowGroup => exact answers_stepInRowGroup
  | inRow => exact answers_stepInRow
  | inCell => exact answers_stepInCell
  | inSelect => exact answers_stepInSelect
  | inSelectInTable => exact answers_stepInSelectInTable
  | inTemplate => exact answers_stepInTemplate
  | afterBody => exact answers_stepAfterBody
  | inFrames => exact answers_stepInFrames
  | afterFrames => exact answers_stepAfterFrames
  | afterAfterBody => exact answers_stepAfterAfterBody
  | afterAfterFrames => exact answers_stepAfterAfterFrames

theorem answers_stopForeign (mode : Mode) (name : String) (innermost : Bool) (stack : List Open) :
    Answers (.stop name) (stopForeign mode name innermost stack) := by
  have steps : Answers (.stop name) (step mode (.stop name)) := answers_step mode
  induction stack generalizing innermost with
  | nil => grind [stopForeign]
  | cons element outer hypothesis =>
      cases outer with
      | nil => grind [stopForeign]
      | cons next outer =>
          unfold stopForeign
          split
          · exact steps
          · split
            · exact .bind fun _ => answers_pure _ trivial
            · exact hypothesis false

theorem answers_stepForeign (element : Open) : Answers token (stepForeign element token) := by
  have stops (mode : Mode) (name : String) (innermost : Bool) (stack : List Open) :
      Answers (.stop name) (stopForeign mode name innermost stack) := answers_stopForeign mode name innermost stack
  cases token <;> grind [stepForeign, leaveForeign]

/-- Wherever the construction stands, it answers a token by something that suits it. -/
theorem answers_stepAnywhere : Answers token (stepAnywhere token) := by
  have steps (mode : Mode) : Answers token (step mode token) := answers_step mode
  have foreign (element : Open) : Answers token (stepForeign element token) := answers_stepForeign element
  cases token <;> grind [stepAnywhere]

end Build
end Markup
end HtmlTemplate
