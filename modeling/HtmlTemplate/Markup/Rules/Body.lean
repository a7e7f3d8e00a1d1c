import HtmlTemplate.Markup.Rules.Head

/-!
# Rules for the body

Tokens in the body, and in most elements below it.
-/

namespace HtmlTemplate
namespace Markup
namespace Build

/-! ## Sets of tags -/

/-- The tags of blocks. -/
def blockTags : List String :=
  ["address", "article", "aside", "blockquote", "center", "details", "dialog", "dir", "div", "dl",
   "fieldset", "figcaption", "figure", "footer", "header", "hgroup", "main", "menu", "nav", "ol", "p",
   "section", "summary", "ul"]

/-- The tags of blocks whose end tags close what is in them. -/
def closableTags : List String :=
  ["address", "article", "aside", "blockquote", "button", "center", "details", "dialog", "dir", "div",
   "dl", "fieldset", "figcaption", "figure", "footer", "header", "hgroup", "listing", "main", "menu",
   "nav", "ol", "pre", "section", "summary", "ul"]

/-- The tags of formatting elements, links and unbroken text aside. -/
def formattingTags : List String :=
  ["b", "big", "code", "em", "font", "i", "s", "small", "strike", "strong", "tt", "u"]

/-- The tags of elements that formatting does not leave. -/
def embeddingTags : List String :=
  ["applet", "marquee", "object"]

/-- The tags of elements in running text that have no content. -/
def voidTextTags : List String :=
  ["area", "br", "embed", "img", "keygen", "wbr", "input"]

/-- The tags of tables and frames that mean nothing in a body. -/
def strayTags : List String :=
  ["caption", "col", "colgroup", "frame", "head", "tbody", "td", "tfoot", "th", "thead", "tr"]

/-! ## Start tags -/

/-- Is it the tag of a field that is hidden? -/
def isHidden (tag : Tag) : Bool :=
  ((tag.attributes.list.lookup "type").map fun kind => kind.toLower == "hidden").getD false

/-- Inserts an element in running text. -/
def insertInText (tag : Tag) : Build Unit := do
  reopenFormatting
  let _ ← insertTag tag

/-- Inserts a block. -/
def insertBlock (tag : Tag) : Build Unit := do
  closeOpenParagraph
  let _ ← insertTag tag

/-- Inserts an element in running text that has no content. -/
def insertVoidInText (tag : Tag) : Build Unit := do
  reopenFormatting
  let _ ← insertVoid tag
  if !(tag.name == "input" && isHidden tag) then forbidFrames

/-- Inserts an element of another vocabulary. -/
def insertForeign (vocabulary : Vocabulary) (tag : Tag) : Build Unit := do
  let kind : ElementKind := { vocabulary, tag := tag.name }
  if tag.selfClosing then
    let _ ← insertClosed kind tag.attributes
  else
    let _ ← insertOpen kind tag.attributes

/-- A start tag of the body that comes late: its attributes count if they are new. -/
def startBody (tag : Tag) : Build Unit := do
  match ← body? with
  | none => return ()
  | some body =>
      if ← isOpen "template" then return ()
      else
        forbidFrames
        changeDraft fun draft => draft.addAttributes body.ref tag.attributes

/-- A start tag of frames in the body: they take the place of a body in which nothing was written yet. -/
def startFrames (tag : Tag) : Build Unit := do
  if !(← get).framesAllowed then return ()
  else
    match ← body? with
    | none => return ()
    | some body => do
        changeDraft fun draft => draft.unlink body.ref
        modify fun state => { state with stack := state.stack.drop (state.stack.length - 1) }
        let _ ← insertTag tag
        setMode .inFrames

/-- The tag of the item that a new one closes, if there is one. -/
def itemToClose? (closing : List String) : List Open → Option String
  | [] => none
  | element :: rest =>
      if element.kind.isOneOf closing then some element.kind.tag
      else if element.kind.isSpecial && !element.kind.isOneOf ["address", "div", "p"] then none
      else itemToClose? closing rest

/-- A start tag of an item of a list. -/
def startItem (closing : List String) (tag : Tag) : Build Unit := do
  forbidFrames
  match itemToClose? closing (← get).stack with
  | some opened => do
      closeImpliedExcept opened
      popThroughTag opened
  | none => pure ()
  insertBlock tag

/-- A start tag of a form. Forms do not nest. -/
def startForm (tag : Tag) : Build Unit := do
  let inTemplate ← isOpen "template"
  if (← get).form.isSome && !inTemplate then return ()
  else
    closeOpenParagraph
    let element ← insertTag tag
    if !inTemplate then modify fun state => { state with form := some element.ref }

/-- A start tag of a button. Buttons do not nest. -/
def startButton (tag : Tag) : Build Unit := do
  if ← inScope ElementKind.endsScope "button" then
    closeImplied ElementKind.impliedEndTags
    popThroughTag "button"
  insertInText tag
  forbidFrames

/-- A start tag of unbroken text, which does not nest. -/
def startUnbroken (tag : Tag) : Build Unit := do
  reopenFormatting
  if ← inScope ElementKind.endsScope "nobr" then
    closeFormatting "nobr"
    reopenFormatting
  openFormatting tag

/-- A start tag of a table. In old documents a table stays in its paragraph. -/
def startTable (tag : Tag) : Build Unit := do
  if !(← get).old then closeOpenParagraph
  let _ ← insertTag tag
  forbidFrames
  setMode .inTable

/-- A start tag of a selection. -/
def startSelect (tag : Tag) : Build Unit := do
  insertInText tag
  forbidFrames
  let tableModes : List Mode := [.inTable, .inCaption, .inRowGroup, .inRow, .inCell]
  modify fun state =>
    { state with mode := if tableModes.contains state.mode then .inSelectInTable else .inSelect }

/-- A start tag of an annotation of text, under which some ends may be left out. -/
def startRuby (close : Build Unit) (tag : Tag) : Build Unit := do
  if ← inScope ElementKind.endsScope "ruby" then close
  let _ ← insertTag tag

/-- A start tag whose content is raw text, if it is one. -/
def startRaw? (tag : Tag) : Option (Build Next) :=
  match tag.name with
  | "textarea" => some do
      modify fun state => { state with dropLineFeed := true, framesAllowed := false }
      insertRaw .withReferences tag
  | "xmp" => some do
      closeOpenParagraph
      reopenFormatting
      forbidFrames
      insertRaw .plain tag
  | "iframe" => some do
      forbidFrames
      insertRaw .plain tag
  | "noembed" => some (insertRaw .plain tag)
  | "noscript" => some (insertRaw .plain tag)
  | _ => none

/-- A start tag in a body with rules of its own, if it is one. -/
def startParticular? (tag : Tag) : Option (Build Unit) :=
  match tag.name with
  | "body" => some (startBody tag)
  | "frameset" => some (startFrames tag)
  | "pre" => some do
      insertBlock tag
      modify fun state => { state with dropLineFeed := true, framesAllowed := false }
  | "listing" => some do
      insertBlock tag
      modify fun state => { state with dropLineFeed := true, framesAllowed := false }
  | "form" => some (startForm tag)
  | "li" => some (startItem ["li"] tag)
  | "dd" => some (startItem ["dd", "dt"] tag)
  | "dt" => some (startItem ["dd", "dt"] tag)
  | "button" => some (startButton tag)
  | "a" => some do
      closeLink
      reopenFormatting
      openFormatting tag
  | "nobr" => some (startUnbroken tag)
  | "table" => some (startTable tag)
  | "hr" => some do
      closeOpenParagraph
      let _ ← insertVoid tag
      forbidFrames
  | "image" => some (insertVoidInText { tag with name := "img" })
  | "select" => some (startSelect tag)
  | "rb" => some (startRuby (closeImplied ElementKind.impliedEndTags) tag)
  | "rtc" => some (startRuby (closeImplied ElementKind.impliedEndTags) tag)
  | "rp" => some (startRuby (closeImpliedExcept "rtc") tag)
  | "rt" => some (startRuby (closeImpliedExcept "rtc") tag)
  | _ => none

/-- A start tag in a body without rules of its own. -/
def startCommon (tag : Tag) : Build Unit := do
  if blockTags.contains tag.name then insertBlock tag
  else if ElementKind.headingTags.contains tag.name then
    closeOpenParagraph
    if ← currentIsOneOf ElementKind.headingTags then pop
    let _ ← insertTag tag
  else if formattingTags.contains tag.name then
    reopenFormatting
    openFormatting tag
  else if embeddingTags.contains tag.name then
    insertInText tag
    addMarker
    forbidFrames
  else if voidTextTags.contains tag.name then insertVoidInText tag
  else if ["param", "source", "track"].contains tag.name then
    let _ ← insertVoid tag
  else if ["optgroup", "option"].contains tag.name then
    if ← currentIs "option" then pop
    insertInText tag
  else if !strayTags.contains tag.name then insertInText tag

/-- The camel-cased names of attributes of drawings and formulas. -/
def foreignAttributes : Vocabulary → List String
  | .html => []
  | .formula => ["definitionURL"]
  | .drawing =>
      ["attributeName", "attributeType", "baseFrequency", "baseProfile", "calcMode", "clipPathUnits",
       "diffuseConstant", "edgeMode", "filterUnits", "glyphRef", "gradientTransform", "gradientUnits",
       "kernelMatrix", "kernelUnitLength", "keyPoints", "keySplines", "keyTimes", "lengthAdjust",
       "limitingConeAngle", "markerHeight", "markerUnits", "markerWidth", "maskContentUnits",
       "maskUnits", "numOctaves", "pathLength", "patternContentUnits", "patternTransform",
       "patternUnits", "pointsAtX", "pointsAtY", "pointsAtZ", "preserveAlpha", "preserveAspectRatio",
       "primitiveUnits", "refX", "refY", "repeatCount", "repeatDur", "requiredExtensions",
       "requiredFeatures", "specularConstant", "specularExponent", "spreadMethod", "startOffset",
       "stdDeviation", "stitchTiles", "surfaceScale", "systemLanguage", "tableValues", "targetX",
       "targetY", "textLength", "viewBox", "viewTarget", "xChannelSelector", "yChannelSelector",
       "zoomAndPan"]

/-- The spelling among some that equals a name but for case, or the name itself. -/
def respell (spellings : List String) (name : String) : String :=
  (spellings.find? fun spelling => spelling.toLower == name).getD name

/--
An attribute name as a vocabulary spells it. The attribute that declares the vocabulary has a prefix there,
which is empty.
-/
def foreignAttribute (vocabulary : Vocabulary) (name : String) : String :=
  if name == "xmlns" then ":xmlns" else respell (foreignAttributes vocabulary) name

/-- The bytes of a name in small letters are those of letters. -/
theorem le_of_isSmall {name : String} (small : isSmall name = true) {byte : UInt8}
    (member : byte ∈ name.toByteArray.data.toList) : 'a'.toUInt8 ≤ byte := by
  rw [← String.utf8Encode_toList, List.utf8Encode, List.toList_data_toByteArray] at member
  obtain ⟨c, inside, written⟩ := List.mem_flatMap.1 member
  have letter := List.all_eq_true.1 small c inside
  obtain ⟨least, greatest⟩ := Bool.and_eq_true_iff.1 letter
  have least : 97 ≤ c.val.toNat := of_decide_eq_true least
  have greatest : c.val.toNat ≤ 122 := of_decide_eq_true greatest
  unfold String.utf8EncodeChar at written
  rw [if_pos (by omega), List.mem_singleton] at written
  rw [written, UInt8.le_iff_toNat_le, UInt8.toNat_ofNat']
  change 97 ≤ c.val.toNat % 2 ^ 8
  omega

/-- No spelling of a vocabulary is in small letters. -/
theorem not_isSmall_foreignAttributes (vocabulary : Vocabulary) :
    (foreignAttributes vocabulary).any isSmall = false := by
  -- A capital is found among the bytes of a spelling, which need not be decoded.
  have capital : (foreignAttributes vocabulary).all (fun spelling =>
      spelling.toByteArray.data.toList.any fun byte => byte < 'a'.toUInt8) = true := by
    cases vocabulary <;> decide
  refine List.any_eq_false.2 fun spelling member small => ?_
  obtain ⟨byte, inside, below⟩ := List.any_eq_true.1 (List.all_eq_true.1 capital spelling member)
  exact UInt8.not_lt.2 (le_of_isSmall small inside) (of_decide_eq_true below)

/-- Spellings in small letters are the names as they were read. -/
theorem foreignAttribute_of_isSmall (vocabulary : Vocabulary) (name : String)
    (small : isSmall (foreignAttribute vocabulary name) = true) : foreignAttribute vocabulary name = name := by
  unfold foreignAttribute at small ⊢
  split at small
  · cases small
  · unfold respell at small ⊢
    rw [if_neg ‹_›]
    cases found : (foreignAttributes vocabulary).find? fun spelling => spelling.toLower == name with
    | none => rfl
    | some spelling =>
        rw [found] at small
        have never := List.any_eq_false.1 (not_isSmall_foreignAttributes vocabulary) spelling
          (List.mem_of_find?_eq_some found)
        exact absurd small never

/-- A tag with its attributes spelled as a vocabulary spells them. -/
def withForeignAttributes (vocabulary : Vocabulary) (tag : Tag) : Tag :=
  { tag with
    attributes := tag.attributes.respell (foreignAttribute vocabulary) (foreignAttribute_of_isSmall vocabulary) }

/-- A start tag in a body. -/
def startInBody (tag : Tag) : Build Next := do
  if tag.name == "html" then startHtml tag
  else if headTags.contains tag.name then startInHead tag
  else if tag.name == "plaintext" then
    insertBlock tag
    return .plaintext
  else if tag.name == "math" then
    insertForeign .formula (withForeignAttributes .formula tag)
    return .done
  else if tag.name == "svg" then
    insertForeign .drawing (withForeignAttributes .drawing tag)
    return .done
  else
    match startRaw? tag, startParticular? tag with
    | some start, _ => start
    | none, some start => do
        start
        return .done
    | none, none => do
        startCommon tag
        return .done

/-! ## End tags -/

/-- Closes the elements through one with this tag. -/
def closeThrough (tag : String) : Build Unit := do
  closeImplied ElementKind.impliedEndTags
  popThroughTag tag

/-- An end tag of a form. -/
def stopForm : Build Unit := do
  if ← isOpen "template" then
    if ← inScope ElementKind.endsScope "form" then closeThrough "form"
  else
    let form := (← get).form
    modify fun state => { state with form := none }
    match form with
    | none => return ()
    | some form =>
        if ← inScopeWhere ElementKind.endsScope fun element => element.ref == form then
          closeImplied ElementKind.impliedEndTags
          removeOpen form

/-- An end tag of a paragraph. -/
def stopParagraph : Build Unit := do
  if !(← inScope ElementKind.endsParagraphScope "p") then
    let _ ← insertImplied "p"
  closeParagraph

/-- An end tag of a heading, which closes any heading. -/
def stopHeading : Build Unit := do
  let isHeading (element : Open) := element.kind.isOneOf ElementKind.headingTags
  if ← inScopeWhere ElementKind.endsScope isHeading then
    closeImplied ElementKind.impliedEndTags
    popThrough isHeading

/-- An end tag of an item of a list. -/
def stopItem (ends : ElementKind → Bool) (tag : String) : Build Unit := do
  if ← inScope ends tag then
    closeImpliedExcept tag
    popThroughTag tag

/-- An end tag in a body, those of the body and the root aside. -/
def stopCommon (tag : String) : Build Unit := do
  if closableTags.contains tag then
    if ← inScope ElementKind.endsScope tag then closeThrough tag
  else if tag == "form" then stopForm
  else if tag == "p" then stopParagraph
  else if tag == "li" then stopItem ElementKind.endsItemScope tag
  else if tag == "dd" || tag == "dt" then stopItem ElementKind.endsScope tag
  else if ElementKind.headingTags.contains tag then stopHeading
  else if formattingTags.contains tag || tag == "a" || tag == "nobr" then closeFormatting tag
  else if embeddingTags.contains tag then
    if ← inScope ElementKind.endsScope tag then
      closeThrough tag
      clearToMarker
  else if tag == "br" then insertVoidInText { name := "br" }
  else closeAnyTag tag

/-- An end tag in a body. -/
def stopInBody (tag : String) : Build Next := do
  if tag == "template" then stopTemplate
  else if tag == "body" then
    if ← inScope ElementKind.endsScope "body" then setMode .afterBody
    return .done
  else if tag == "html" then
    if ← inScope ElementKind.endsScope "body" then againIn .afterBody (.stop tag) else return .done
  else
    stopCommon tag
    return .done

/-! ## Tokens -/

/-- The end of the text while templates are open: they are closed one by one. -/
def endInTemplate : Build Next := do
  if ← isOpen "template" then
    leaveTemplate
    return .again .done
  else return .done

/-- In the body. -/
def stepInBody : Token → Build Next
  | .null => return .done
  | .space value => do
      reopenFormatting
      insertText value
      return .done
  | .text value => do
      reopenFormatting
      forbidFrames
      insertText value
      return .done
  | .comment value => do
      insertComment value
      return .done
  | .start tag => startInBody tag
  | .stop tag => stopInBody tag
  | .doctype _ => return .done
  | .done => do
      if (← get).templateModes.isEmpty then return .done else endInTemplate

/-- In raw text. -/
def stepRawText : Token → Build Next
  | .space value => do
      insertText value
      return .done
  | .text value => do
      insertText value
      return .done
  | .done => do
      pop
      againIn (← get).returnMode .done
  | _ => do
      pop
      setMode (← get).returnMode
      return .done

/-- In a template: the first tag says what the template holds. -/
def stepInTemplate (token : Token) : Build Next := do
  match token with
  | .start tag =>
      if headTags.contains tag.name then startInHead tag
      else
        let mode : Mode :=
          if ["caption", "colgroup", "tbody", "tfoot", "thead"].contains tag.name then .inTable
          else if tag.name == "col" then .inColumns
          else if tag.name == "tr" then .inRowGroup
          else if ElementKind.cellTags.contains tag.name then .inRow
          else .inBody
        modify fun state => { state with templateModes := mode :: state.templateModes.drop 1 }
        againIn mode token
  | .stop tag => if tag == "template" then stopTemplate else return .done
  | .null => return .done
  | .done => endInTemplate
  | token => stepInBody token

end Build
end Markup
end HtmlTemplate
