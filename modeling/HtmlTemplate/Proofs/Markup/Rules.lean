import HtmlTemplate.Proofs.Markup.Naming

/-!
# The names that the rules write

Whatever the mode, a token whose names are accepted leads to accepted names only. The rules are gone through in
the order in which they build on each other.
-/

namespace HtmlTemplate
namespace Markup

open Std.Do

set_option mvcgen.warning false

variable {accepts : String → Prop} {tag : Tag} {token : Token}

/-! ## Spellings -/

theorem Build.respell_mem (spellings : List String) (name : String) :
    Build.respell spellings name = name ∨ Build.respell spellings name ∈ spellings := by
  unfold Build.respell
  cases found : spellings.find? fun spelling => spelling.toLower == name with
  | none => exact .inl rfl
  | some spelling => exact .inr (List.mem_of_find?_eq_some found)

theorem AcceptsOwn.foreignAttribute (own : AcceptsOwn accepts) (vocabulary : Vocabulary) {name : String}
    (accepted : accepts name) : accepts (Build.foreignAttribute vocabulary name) := by
  unfold Build.foreignAttribute
  split
  · exact own.rule _ (by decide)
  · rcases Build.respell_mem (Build.foreignAttributes vocabulary) name with same | spelled
    · rw [same]
      exact accepted
    · exact own.foreign vocabulary _ spelled

theorem Tag.Named.withForeignAttributes (own : AcceptsOwn accepts) (vocabulary : Vocabulary)
    (named : tag.Named accepts) : (Build.withForeignAttributes vocabulary tag).Named accepts := by
  refine ⟨named.name, fun given member => ?_⟩
  obtain ⟨old, present, rfl⟩ := List.mem_map.1 member
  exact own.foreignAttribute vocabulary (named.attributes old present)

namespace Build

/-! ## Head -/

@[spec]
theorem passes_openTemplate (named : tag.Named accepts) : Passes accepts (openTemplate tag) := by
  mvcgen [openTemplate] with grind

@[spec]
theorem keeps_leaveTemplate : Keeps accepts leaveTemplate := by
  mvcgen [leaveTemplate] with grind

@[spec]
theorem passes_stopTemplate : Passes accepts stopTemplate := by
  mvcgen [stopTemplate]

@[spec]
theorem passes_startInHead (named : tag.Named accepts) : Passes accepts (startInHead tag) := by
  mvcgen [startInHead] with grind

@[spec]
theorem passes_startHtml (named : tag.Named accepts) : Passes accepts (startHtml tag) := by
  mvcgen [startHtml] with grind

@[spec]
theorem keeps_makeRoot {attributes : Attributes} (own : AcceptsOwn accepts) (named : attributes.Named accepts) :
    Keeps accepts (makeRoot attributes) := by
  have root := own.rule "html" (by decide)
  mvcgen [makeRoot] with grind

@[spec]
theorem keeps_openHead {attributes : Attributes} (own : AcceptsOwn accepts) (named : attributes.Named accepts) :
    Keeps accepts (openHead attributes) := by
  have head := own.rule "head" (by decide)
  mvcgen [openHead] with grind

@[spec]
theorem passes_startLateInHead (named : tag.Named accepts) : Passes accepts (startLateInHead tag) := by
  mvcgen [startLateInHead] with grind

@[spec]
theorem passes_stepInitial (named : token.Named accepts) : Passes accepts (stepInitial token) := by
  mvcgen [stepInitial] with grind

@[spec]
theorem passes_stepBeforeHtml (own : AcceptsOwn accepts) (named : token.Named accepts) :
    Passes accepts (stepBeforeHtml token) := by
  mvcgen [stepBeforeHtml] with grind

@[spec]
theorem passes_stepBeforeHead (own : AcceptsOwn accepts) (named : token.Named accepts) :
    Passes accepts (stepBeforeHead token) := by
  mvcgen [stepBeforeHead] with grind

@[spec]
theorem passes_stepInHead (named : token.Named accepts) : Passes accepts (stepInHead token) := by
  mvcgen [stepInHead] with grind

@[spec]
theorem passes_stepAfterHead (own : AcceptsOwn accepts) (named : token.Named accepts) :
    Passes accepts (stepAfterHead token) := by
  have body := own.rule "body" (by decide)
  mvcgen [stepAfterHead] with grind

/-! ## Body -/

@[spec]
theorem keeps_insertInText (named : tag.Named accepts) : Keeps accepts (insertInText tag) := by
  mvcgen [insertInText]

@[spec]
theorem keeps_insertBlock (named : tag.Named accepts) : Keeps accepts (insertBlock tag) := by
  mvcgen [insertBlock]

@[spec]
theorem keeps_insertVoidInText (named : tag.Named accepts) : Keeps accepts (insertVoidInText tag) := by
  mvcgen [insertVoidInText]

@[spec]
theorem keeps_insertForeign (vocabulary : Vocabulary) (named : tag.Named accepts) :
    Keeps accepts (insertForeign vocabulary tag) := by
  mvcgen [insertForeign] with grind

@[spec]
theorem keeps_startBody (named : tag.Named accepts) : Keeps accepts (startBody tag) := by
  mvcgen [startBody] with grind

@[spec]
theorem keeps_startFrames (named : tag.Named accepts) : Keeps accepts (startFrames tag) := by
  mvcgen [startFrames] with grind

@[spec]
theorem keeps_startItem (closing : List String) (named : tag.Named accepts) : Keeps accepts (startItem closing tag) := by
  mvcgen [startItem] with grind

@[spec]
theorem keeps_startForm (named : tag.Named accepts) : Keeps accepts (startForm tag) := by
  mvcgen [startForm] with grind

@[spec]
theorem keeps_startButton (named : tag.Named accepts) : Keeps accepts (startButton tag) := by
  mvcgen [startButton]

@[spec]
theorem keeps_startUnbroken (named : tag.Named accepts) : Keeps accepts (startUnbroken tag) := by
  mvcgen [startUnbroken] with grind

@[spec]
theorem keeps_startTable (named : tag.Named accepts) : Keeps accepts (startTable tag) := by
  mvcgen [startTable]

@[spec]
theorem keeps_startSelect (named : tag.Named accepts) : Keeps accepts (startSelect tag) := by
  mvcgen [startSelect] with grind

@[spec]
theorem keeps_startRuby {close : Build Unit} (closes : Keeps accepts close) (named : tag.Named accepts) :
    Keeps accepts (startRuby close tag) := by
  mvcgen [startRuby, closes]

theorem passes_startRaw? (named : tag.Named accepts) {start : Build Next} (found : startRaw? tag = some start) :
    Passes accepts start := by
  unfold startRaw? at found
  split at found <;> cases found <;> mvcgen with grind

theorem keeps_startParticular? (own : AcceptsOwn accepts) (named : tag.Named accepts) {start : Build Unit}
    (found : startParticular? tag = some start) : Keeps accepts start := by
  have image := own.rule "img" (by decide)
  unfold startParticular? at found
  split at found <;> cases found <;> mvcgen with grind

@[spec]
theorem keeps_startCommon (named : tag.Named accepts) : Keeps accepts (startCommon tag) := by
  mvcgen [startCommon] with grind

@[spec]
theorem passes_startInBody (own : AcceptsOwn accepts) (named : tag.Named accepts) : Passes accepts (startInBody tag) := by
  have foreign : ∀ vocabulary, (withForeignAttributes vocabulary tag).Named accepts :=
    fun vocabulary => named.withForeignAttributes own vocabulary
  unfold startInBody
  cases raw : startRaw? tag with
  | some start =>
    have passes := passes_startRaw? named raw
    mvcgen [passes]
    all_goals grind
  | none =>
    cases particular : startParticular? tag with
    | some start =>
      have keeps := keeps_startParticular? own named particular
      mvcgen [keeps]
      all_goals grind
    | none => mvcgen with grind

@[spec]
theorem keeps_closeThrough (tag : String) : Keeps accepts (closeThrough tag) := by
  mvcgen [closeThrough]

@[spec]
theorem keeps_stopForm : Keeps accepts stopForm := by
  mvcgen [stopForm] with grind

@[spec]
theorem keeps_stopParagraph (own : AcceptsOwn accepts) : Keeps accepts stopParagraph := by
  have paragraph := own.rule "p" (by decide)
  mvcgen [stopParagraph]

@[spec]
theorem keeps_stopHeading : Keeps accepts stopHeading := by
  mvcgen [stopHeading]

@[spec]
theorem keeps_stopItem (ends : ElementKind → Bool) (tag : String) : Keeps accepts (stopItem ends tag) := by
  mvcgen [stopItem]

@[spec]
theorem keeps_stopCommon (own : AcceptsOwn accepts) (tag : String) : Keeps accepts (stopCommon tag) := by
  have lineBreak := own.rule "br" (by decide)
  mvcgen [stopCommon] with grind

@[spec]
theorem passes_stopInBody (own : AcceptsOwn accepts) (tag : String) : Passes accepts (stopInBody tag) := by
  mvcgen [stopInBody]

@[spec]
theorem passes_endInTemplate : Passes accepts endInTemplate := by
  mvcgen [endInTemplate]

@[spec]
theorem passes_stepInBody (own : AcceptsOwn accepts) (named : token.Named accepts) :
    Passes accepts (stepInBody token) := by
  mvcgen [stepInBody] with grind

@[spec]
theorem passes_stepRawText (token : Token) : Passes accepts (stepRawText token) := by
  mvcgen [stepRawText]

@[spec]
theorem passes_stepInTemplate (own : AcceptsOwn accepts) (named : token.Named accepts) :
    Passes accepts (stepInTemplate token) := by
  mvcgen [stepInTemplate] with grind

/-! ## Selections -/

@[spec]
theorem keeps_closeOption : Keeps accepts closeOption := by
  mvcgen [closeOption]

@[spec]
theorem keeps_closeSelect : Keeps accepts closeSelect := by
  mvcgen [closeSelect]

@[spec]
theorem passes_startInSelect (named : tag.Named accepts) : Passes accepts (startInSelect tag) := by
  mvcgen [startInSelect] with grind

@[spec]
theorem passes_stopInSelect (tag : String) : Passes accepts (stopInSelect tag) := by
  mvcgen [stopInSelect]

@[spec]
theorem passes_stepInSelect (own : AcceptsOwn accepts) (named : token.Named accepts) :
    Passes accepts (stepInSelect token) := by
  mvcgen [stepInSelect] with grind

@[spec]
theorem passes_stepInSelectInTable (own : AcceptsOwn accepts) (named : token.Named accepts) :
    Passes accepts (stepInSelectInTable token) := by
  mvcgen [stepInSelectInTable] with grind

/-! ## Tables -/

@[spec]
theorem passes_foster (own : AcceptsOwn accepts) (named : token.Named accepts) : Passes accepts (foster token) := by
  mvcgen [foster] with grind

@[spec]
theorem passes_gatherText (own : AcceptsOwn accepts) (named : token.Named accepts) :
    Passes accepts (gatherText token) := by
  mvcgen [gatherText] with grind

@[spec]
theorem passes_startPart (named : tag.Named accepts) (mode : Mode) : Passes accepts (startPart tag mode) := by
  mvcgen [startPart]

@[spec]
theorem passes_startInPart {part : String} (accepted : accepts part) (mode : Mode) (named : token.Named accepts) :
    Passes accepts (startInPart part mode token) := by
  mvcgen [startInPart] with grind

@[spec]
theorem passes_startInTable (own : AcceptsOwn accepts) (named : tag.Named accepts) :
    Passes accepts (startInTable tag) := by
  have columns := own.rule "colgroup" (by decide)
  have rows := own.rule "tbody" (by decide)
  mvcgen [startInTable] with grind

@[spec]
theorem passes_stepInTable (own : AcceptsOwn accepts) (named : token.Named accepts) :
    Passes accepts (stepInTable token) := by
  mvcgen [stepInTable] with grind

@[spec]
theorem keeps_placeTableText (own : AcceptsOwn accepts) {tokens : List Token}
    (named : ∀ token ∈ tokens, token.Named accepts) : Keeps accepts (placeTableText tokens) := by
  induction tokens with
  | nil => mvcgen [placeTableText]
  | cons token rest hypothesis =>
    obtain ⟨first, later⟩ := List.forall_mem_cons.1 named
    have goesOn := hypothesis later
    mvcgen [placeTableText, goesOn] with grind

@[spec]
theorem passes_stepInTableText (own : AcceptsOwn accepts) (named : token.Named accepts) :
    Passes accepts (stepInTableText token) := by
  mvcgen [stepInTableText] with grind

@[spec]
theorem keeps_closeCaption : Keeps accepts closeCaption := by
  mvcgen [closeCaption]

@[spec]
theorem passes_stepInCaption (own : AcceptsOwn accepts) (named : token.Named accepts) :
    Passes accepts (stepInCaption token) := by
  mvcgen [stepInCaption] with grind

@[spec]
theorem passes_stepInColumns (own : AcceptsOwn accepts) (named : token.Named accepts) :
    Passes accepts (stepInColumns token) := by
  mvcgen [stepInColumns] with grind

@[spec]
theorem passes_closeRowGroup (named : token.Named accepts) : Passes accepts (closeRowGroup token) := by
  mvcgen [closeRowGroup] with grind

@[spec]
theorem passes_stepInRowGroup (own : AcceptsOwn accepts) (named : token.Named accepts) :
    Passes accepts (stepInRowGroup token) := by
  have row := own.rule "tr" (by decide)
  mvcgen [stepInRowGroup] with grind

@[spec]
theorem keeps_closeRow : Keeps accepts closeRow := by
  mvcgen [closeRow]

@[spec]
theorem passes_stepInRow (own : AcceptsOwn accepts) (named : token.Named accepts) :
    Passes accepts (stepInRow token) := by
  mvcgen [stepInRow] with grind

@[spec]
theorem keeps_closeCell : Keeps accepts closeCell := by
  mvcgen [closeCell]

@[spec]
theorem passes_stepInCell (own : AcceptsOwn accepts) (named : token.Named accepts) :
    Passes accepts (stepInCell token) := by
  mvcgen [stepInCell] with grind

/-! ## Frames, and what follows the content -/

@[spec]
theorem passes_stepAfterBody (own : AcceptsOwn accepts) (named : token.Named accepts) :
    Passes accepts (stepAfterBody token) := by
  mvcgen [stepAfterBody] with grind

@[spec]
theorem passes_stepAfterAfterBody (own : AcceptsOwn accepts) (named : token.Named accepts) :
    Passes accepts (stepAfterAfterBody token) := by
  mvcgen [stepAfterAfterBody] with grind

@[spec]
theorem passes_stepInFrames (named : token.Named accepts) : Passes accepts (stepInFrames token) := by
  mvcgen [stepInFrames] with grind

@[spec]
theorem passes_stepAfterFrames (named : token.Named accepts) : Passes accepts (stepAfterFrames token) := by
  mvcgen [stepAfterFrames] with grind

@[spec]
theorem passes_stepAfterAfterFrames (own : AcceptsOwn accepts) (named : token.Named accepts) :
    Passes accepts (stepAfterAfterFrames token) := by
  mvcgen [stepAfterAfterFrames] with grind

/-! ## All modes, and foreign content -/

@[spec]
theorem passes_step (own : AcceptsOwn accepts) (mode : Mode) (named : token.Named accepts) :
    Passes accepts (step mode token) := by
  mvcgen [step] with grind

@[spec]
theorem keeps_startForeign (own : AcceptsOwn accepts) (vocabulary : Vocabulary) (named : tag.Named accepts) :
    Keeps accepts (startForeign vocabulary tag) := by
  have spelled : accepts (if vocabulary == .drawing then respell drawingTags tag.name else tag.name) := by
    split
    · rcases respell_mem drawingTags tag.name with same | drawn
      · rw [same]
        exact named.name
      · exact own.drawing _ drawn
    · exact named.name
  have renamed : Tag.Named accepts { tag with
      name := if vocabulary == .drawing then respell drawingTags tag.name else tag.name } :=
    ⟨spelled, named.attributes⟩
  unfold startForeign
  exact keeps_insertForeign vocabulary (renamed.withForeignAttributes own vocabulary)

@[spec]
theorem passes_leaveForeign (named : token.Named accepts) : Passes accepts (leaveForeign token) := by
  mvcgen [leaveForeign]

@[spec]
theorem passes_stopForeign (own : AcceptsOwn accepts) (mode : Mode) (tag : String) (innermost : Bool)
    (stack : List Open) : Passes accepts (stopForeign mode tag innermost stack) := by
  induction stack generalizing innermost with
  | nil => mvcgen [stopForeign]
  | cons element outer hypothesis =>
    have closes : (Token.stop tag).Named accepts := trivial
    cases outer with
    | nil => mvcgen [stopForeign]
    | cons next outer => mvcgen [stopForeign, hypothesis] with grind

@[spec]
theorem passes_stepForeign (own : AcceptsOwn accepts) (element : Open) (named : token.Named accepts) :
    Passes accepts (stepForeign element token) := by
  mvcgen [stepForeign] with grind

/-- What one step preserves: a token whose names are accepted is treated with accepted names only. -/
@[spec]
theorem passes_stepAnywhere (own : AcceptsOwn accepts) (named : token.Named accepts) :
    Passes accepts (stepAnywhere token) := by
  mvcgen [stepAnywhere]

end Build

end Markup
end HtmlTemplate
