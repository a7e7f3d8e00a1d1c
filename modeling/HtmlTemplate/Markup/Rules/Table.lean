import HtmlTemplate.Markup.Rules.Body

/-!
# Rules for tables and selections

Both hold some content only, and deal in their own ways with content that does not belong.
-/

namespace HtmlTemplate
namespace Markup
namespace Build

/-!
## Rules for tables

Tokens in tables and their parts. What does not belong into a table is moved before it.
-/

/-- Treats a token as in a body, with content moved out of tables. -/
def foster (token : Token) : Build Next := do
  modify fun state => { state with fostering := true }
  let next ← stepInBody token
  modify fun state => { state with fostering := false }
  return next

/-- Text in a table is gathered before it is placed. -/
def gatherText (token : Token) : Build Next := do
  if ← currentIsOneOf ElementKind.fosterTags then
    modify fun state => { state with returnMode := state.mode }
    againIn .inTableText token
  else foster token

/-- A start tag in a table that opens a part of it, in a mode of its own. -/
def startPart (tag : Tag) (mode : Mode) : Build Next := do
  popTo ElementKind.endsTableScope
  let _ ← insertTag tag
  setMode mode
  return .done

/-- A start tag in a table that lacks the part around it. -/
def startInPart (part : String) (mode : Mode) (token : Token) : Build Next := do
  popTo ElementKind.endsTableScope
  let _ ← insertImplied part
  againIn mode token

/-- A start tag in a table. -/
def startInTable (tag : Tag) : Build Next := do
  let token := Token.start tag
  match tag.name with
  | "caption" => do
      popTo ElementKind.endsTableScope
      addMarker
      startPart tag .inCaption
  | "colgroup" => startPart tag .inColumns
  | "col" => startInPart "colgroup" .inColumns token
  | "tbody" => startPart tag .inRowGroup
  | "tfoot" => startPart tag .inRowGroup
  | "thead" => startPart tag .inRowGroup
  | "td" => startInPart "tbody" .inRowGroup token
  | "th" => startInPart "tbody" .inRowGroup token
  | "tr" => startInPart "tbody" .inRowGroup token
  | "table" => do
      if ← inScope ElementKind.endsTableScope "table" then
        popThroughTag "table"
        againAfterReset token
      else return .done
  | "style" => startInHead tag
  | "script" => startInHead tag
  | "template" => startInHead tag
  | "input" => do
      if isHidden tag then
        let _ ← insertVoid tag
        return .done
      else foster token
  | "form" => do
      if !(← isOpen "template") && (← get).form.isNone then
        let element ← insertVoid tag
        modify fun state => { state with form := some element.ref }
      return .done
  | _ => foster token

/-- The end tags that mean nothing in a table. -/
def strayEnds : List String :=
  ["body", "caption", "col", "colgroup", "html", "tbody", "td", "tfoot", "th", "thead", "tr"]

/-- In a table. -/
def stepInTable : Token → Build Next
  | .comment value => do
      insertComment value
      return .done
  | .start tag => startInTable tag
  | .stop tag => do
      if tag == "table" then
        if ← inScope ElementKind.endsTableScope "table" then
          popThroughTag "table"
          resetMode
        return .done
      else if strayEnds.contains tag then return .done
      else if tag == "template" then stopTemplate
      else foster (.stop tag)
  | .done => stepInBody .done
  | .doctype _ => return .done
  | token => gatherText token

/-- Places text in a table that was gathered. White space alone stays in the table. -/
def placeTableText : List Token → Build Unit
  | [] => return ()
  | token :: rest => do
      let _ ← foster token
      placeTableText rest

/-- Is the token white space? -/
def isSpaceToken : Token → Bool
  | .space _ => true
  | _ => false

/-- The white space of tokens. -/
def spaceOf : List Token → List Char
  | .space value :: rest => value ++ spaceOf rest
  | _ => []

/-- In text in a table. -/
def stepInTableText (token : Token) : Build Next := do
  match token with
  | .null => return .done
  | .space _ => do
      modify fun state => { state with tableText := state.tableText ++ [token] }
      return .done
  | .text _ => do
      modify fun state => { state with tableText := state.tableText ++ [token] }
      return .done
  | token => do
      let gathered := (← get).tableText
      modify fun state => { state with tableText := [] }
      if gathered.all isSpaceToken then
        if !gathered.isEmpty then insertText (spaceOf gathered)
      else placeTableText gathered
      againIn (← get).returnMode token

/-- The start tags that end a caption. -/
def tablePartTags : List String :=
  ["caption", "col", "colgroup", "tbody", "td", "tfoot", "th", "thead", "tr"]

/-- Closes a caption, if one is open. Tells whether it was. -/
def closeCaption : Build Bool := do
  if ← inScope ElementKind.endsTableScope "caption" then
    closeThrough "caption"
    clearToMarker
    return true
  else return false

/-- In a caption. -/
def stepInCaption (token : Token) : Build Next := do
  match token with
  | .start tag =>
      if tablePartTags.contains tag.name then
        if ← closeCaption then againIn .inTable token else return .done
      else stepInBody token
  | .stop tag =>
      if tag == "table" then
        if ← closeCaption then againIn .inTable token else return .done
      else if tag == "caption" then
        if ← closeCaption then setMode .inTable
        return .done
      else if strayEnds.contains tag then return .done
      else stepInBody token
  | token => stepInBody token

/-- In a group of columns. -/
def stepInColumns (token : Token) : Build Next := do
  match token with
  | .space value => do
      insertText value
      return .done
  | .comment value => do
      insertComment value
      return .done
  | .done => stepInBody .done
  | token => do
      match token with
      | .start tag =>
          if tag.name == "html" then return ← startHtml tag
          if tag.name == "col" then
            let _ ← insertVoid tag
            return .done
          if tag.name == "template" then return ← startInHead tag
      | .stop tag =>
          if tag == "colgroup" then
            if ← currentIs "colgroup" then
              pop
              setMode .inTable
            return .done
          if tag == "col" then return .done
          if tag == "template" then return ← stopTemplate
      | _ => pure ()
      if ← currentIs "colgroup" then
        pop
        againIn .inTable token
      else return .done

/-- Closes a group of rows, and treats a token once more in the table. -/
def closeRowGroup (token : Token) : Build Next := do
  if ← inScopeWhere ElementKind.endsTableScope fun element =>
      element.kind.isOneOf ["table", "tbody", "tfoot"] then
    popTo (ElementKind.isOneOf ElementKind.rowGroupContext)
    pop
    againIn .inTable token
  else return .done

/-- In a group of rows. -/
def stepInRowGroup (token : Token) : Build Next := do
  match token with
  | .start tag =>
      if tag.name == "tr" then
        popTo (ElementKind.isOneOf ElementKind.rowGroupContext)
        let _ ← insertTag tag
        setMode .inRow
        return .done
      else if ElementKind.cellTags.contains tag.name then
        popTo (ElementKind.isOneOf ElementKind.rowGroupContext)
        let _ ← insertImplied "tr"
        againIn .inRow token
      else if ["caption", "col", "colgroup", "tbody", "tfoot", "thead"].contains tag.name then
        closeRowGroup token
      else stepInTable token
  | .stop tag =>
      if ["tbody", "tfoot", "thead"].contains tag then
        if ← inScope ElementKind.endsTableScope tag then
          popTo (ElementKind.isOneOf ElementKind.rowGroupContext)
          pop
          setMode .inTable
        return .done
      else if tag == "table" then closeRowGroup token
      else if strayEnds.contains tag then return .done
      else stepInTable token
  | token => stepInTable token

/-- Closes a row, if one is open. Tells whether it was. -/
def closeRow : Build Bool := do
  if ← inScope ElementKind.endsTableScope "tr" then
    popTo (ElementKind.isOneOf ElementKind.rowContext)
    pop
    return true
  else return false

/-- In a row. -/
def stepInRow (token : Token) : Build Next := do
  match token with
  | .start tag =>
      if ElementKind.cellTags.contains tag.name then
        popTo (ElementKind.isOneOf ElementKind.rowContext)
        let _ ← insertTag tag
        setMode .inCell
        addMarker
        return .done
      else if ["caption", "col", "colgroup", "tbody", "tfoot", "thead", "tr"].contains tag.name then
        if ← closeRow then againIn .inRowGroup token else return .done
      else stepInTable token
  | .stop tag =>
      if tag == "tr" then
        if ← closeRow then setMode .inRowGroup
        return .done
      else if tag == "table" then
        if ← closeRow then againIn .inRowGroup token else return .done
      else if ["tbody", "tfoot", "thead"].contains tag then
        if ← inScope ElementKind.endsTableScope tag then
          if ← closeRow then againIn .inRowGroup token else return .done
        else return .done
      else if strayEnds.contains tag then return .done
      else stepInTable token
  | token => stepInTable token

/-- Closes the cell that is open. -/
def closeCell : Build Unit := do
  closeImplied ElementKind.impliedEndTags
  popThrough fun element => element.kind.isOneOf ElementKind.cellTags
  clearToMarker

/-- In a cell. -/
def stepInCell (token : Token) : Build Next := do
  match token with
  | .start tag =>
      if tablePartTags.contains tag.name then
        if ← inScopeWhere ElementKind.endsTableScope fun element =>
            element.kind.isOneOf ElementKind.cellTags then
          closeCell
          againIn .inRow token
        else return .done
      else stepInBody token
  | .stop tag =>
      if ElementKind.cellTags.contains tag then
        if ← inScope ElementKind.endsTableScope tag then
          closeThrough tag
          clearToMarker
          setMode .inRow
        return .done
      else if ["table", "tbody", "tfoot", "thead", "tr"].contains tag then
        if ← inScope ElementKind.endsTableScope tag then
          closeCell
          againIn .inRow token
        else return .done
      else if strayEnds.contains tag then return .done
      else stepInBody token
  | token => stepInBody token

/-!
## Rules for selections

Tokens in a selection, which holds options and text only.
-/

/-- Closes an option, if it is the innermost open element. -/
def closeOption : Build Unit := do
  if ← currentIs "option" then pop

/-- Is the innermost open element an option right inside a group? -/
def inGroupedOption (stack : List Open) : Bool :=
  match stack with
  | inner :: outer :: _ => inner.isHtml "option" && outer.isHtml "optgroup"
  | _ => false

/-- Closes the selection, if one is open. Tells whether it was. -/
def closeSelect : Build Bool := do
  if ← inScope ElementKind.endsSelectScope "select" then
    popThroughTag "select"
    return true
  else return false

/-- A start tag in a selection. -/
def startInSelect (tag : Tag) : Build Next := do
  match tag.name with
  | "html" => startHtml tag
  | "option" => do
      closeOption
      let _ ← insertTag tag
      return .done
  | "optgroup" => do
      closeOption
      if ← currentIs "optgroup" then pop
      let _ ← insertTag tag
      return .done
  | "select" => do
      if ← closeSelect then resetMode
      return .done
  | "script" => startInHead tag
  | "template" => startInHead tag
  | name =>
      if ["input", "keygen", "textarea"].contains name then
        if ← closeSelect then againAfterReset (.start tag) else return .done
      else return .done

/-- An end tag in a selection. -/
def stopInSelect (tag : String) : Build Next := do
  match tag with
  | "optgroup" => do
      if inGroupedOption (← get).stack then pop
      if ← currentIs "optgroup" then pop
      return .done
  | "option" => do
      closeOption
      return .done
  | "select" => do
      if ← closeSelect then resetMode
      return .done
  | "template" => stopTemplate
  | _ => return .done

/-- In a selection. -/
def stepInSelect : Token → Build Next
  | .space value => do
      insertText value
      return .done
  | .text value => do
      insertText value
      return .done
  | .comment value => do
      insertComment value
      return .done
  | .start tag => startInSelect tag
  | .stop tag => stopInSelect tag
  | .done => stepInBody .done
  | _ => return .done

/-- The tags of a table that end a selection in it. -/
def selectEndTags : List String :=
  ["caption", "table", "tbody", "tfoot", "thead", "tr", "td", "th"]

/-- In a selection in a table. -/
def stepInSelectInTable (token : Token) : Build Next := do
  match token with
  | .start tag =>
      if selectEndTags.contains tag.name then
        popThroughTag "select"
        againAfterReset token
      else stepInSelect token
  | .stop tag =>
      if selectEndTags.contains tag then
        if ← inScope ElementKind.endsTableScope tag then
          popThroughTag "select"
          againAfterReset token
        else return .done
      else stepInSelect token
  | token => stepInSelect token

end Build
end Markup
end HtmlTemplate
