import HtmlTemplate.Markup.Rules.Formatting

/-!
# Rules for the head

Tokens before the body: the root, the head, and elements that belong there wherever they are written.
-/

namespace HtmlTemplate
namespace Markup
namespace Build

/-- The tags of elements that belong into a head. -/
def headTags : List String :=
  ["base", "basefont", "bgsound", "link", "meta", "noframes", "script", "style", "template", "title"]

/-- Inserts a template, and opens it. -/
def openTemplate (tag : Tag) : Build Next := do
  let _ ← insertTag tag
  addMarker
  modify fun state =>
    { state with
      framesAllowed := false
      mode := .inTemplate
      templateModes := .inTemplate :: state.templateModes }
  return .done

/-- Closes the innermost template, once the elements in it are closed. -/
def leaveTemplate : Build Unit := do
  popThroughTag "template"
  clearToMarker
  modify fun state => { state with templateModes := state.templateModes.drop 1 }
  resetMode

/-- The end tag of a template. -/
def stopTemplate : Build Next := do
  if ← isOpen "template" then
    closeImplied ElementKind.impliedEndTagsInTables
    leaveTemplate
  return .done

/-- A start tag of an element that belongs into a head. -/
def startInHead (tag : Tag) : Build Next := do
  match tag.name with
  | "title" => insertRaw .withReferences tag
  | "noframes" => insertRaw .plain tag
  | "style" => insertRaw .plain tag
  | "script" => insertRaw .script tag
  | "template" => openTemplate tag
  | _ => do
      let _ ← insertVoid tag
      return .done

/-- A start tag of the root that comes late: its attributes count if they are new. -/
def startHtml (tag : Tag) : Build Next := do
  if ← isOpen "template" then return .done
  else
    match (← get).stack.getLast? with
    | some root => do
        changeDraft fun draft => draft.addAttributes root.ref tag.attributes
        return .done
    | none => return .done

/-- Makes the root of the document. -/
def makeRoot (attributes : Attributes) : Build Unit := do
  let element ← makeElement { tag := "html" } attributes
  changeDraft fun draft => draft.append Draft.root element.ref
  push element

/-- Opens the head. -/
def openHead (attributes : Attributes) : Build Unit := do
  let element ← insertOpen { tag := "head" } attributes
  modify fun state => { state with head := some element }

/-- Is the end tag one that ends the head if it is not open yet? -/
def endsHead (tag : String) : Bool :=
  ["head", "body", "html", "br"].contains tag

/-- Before anything: white space is dropped, and only a document type keeps a document from being old. -/
def stepInitial : Token → Build Next
  | .space _ => return .done
  | .comment value => do
      appendComment Draft.root value
      return .done
  | token => do
      modify fun state => { state with old := true }
      againIn .beforeHtml token

/-- Before the root. -/
def stepBeforeHtml : Token → Build Next
  | .space _ => return .done
  | .comment value => do
      appendComment Draft.root value
      return .done
  | token => do
      match token with
      | .start tag =>
          if tag.name == "html" then
            makeRoot tag.attributes
            setMode .beforeHead
            return .done
      | .stop tag => if !endsHead tag then return .done
      | _ => pure ()
      makeRoot .empty
      againIn .beforeHead token

/-- Before the head. -/
def stepBeforeHead : Token → Build Next
  | .space _ => return .done
  | .comment value => do
      insertComment value
      return .done
  | token => do
      match token with
      | .start tag =>
          if tag.name == "html" then return ← startHtml tag
          if tag.name == "head" then
            openHead tag.attributes
            setMode .inHead
            return .done
      | .stop tag => if !endsHead tag then return .done
      | _ => pure ()
      openHead .empty
      againIn .inHead token

/-- In the head. -/
def stepInHead : Token → Build Next
  | .space value => do
      insertText value
      return .done
  | .comment value => do
      insertComment value
      return .done
  | token => do
      match token with
      | .start tag =>
          if tag.name == "html" then return ← startHtml tag
          if headTags.contains tag.name then return ← startInHead tag
          if tag.name == "noscript" then return ← insertRaw .plain tag
          if tag.name == "head" then return .done
      | .stop tag =>
          if tag == "head" then
            pop
            setMode .afterHead
            return .done
          if tag == "template" then return ← stopTemplate
          if !endsHead tag then return .done
      | _ => pure ()
      pop
      againIn .afterHead token

/-- A start tag of an element that belongs into the head, after the head was closed. -/
def startLateInHead (tag : Tag) : Build Next := do
  match (← get).head with
  | none => startInHead tag
  | some head => do
      push head
      let next ← startInHead tag
      removeOpen head.ref
      return next

/-- Between the head and the body. -/
def stepAfterHead : Token → Build Next
  | .space value => do
      insertText value
      return .done
  | .comment value => do
      insertComment value
      return .done
  | token => do
      match token with
      | .start tag =>
          if tag.name == "html" then return ← startHtml tag
          if tag.name == "body" then
            let _ ← insertTag tag
            forbidFrames
            setMode .inBody
            return .done
          if tag.name == "frameset" then
            let _ ← insertTag tag
            setMode .inFrames
            return .done
          if headTags.contains tag.name then return ← startLateInHead tag
          if tag.name == "head" then return .done
      | .stop tag =>
          if tag == "template" then return ← stopTemplate
          if tag == "head" || !endsHead tag then return .done
      | _ => pure ()
      let _ ← insertImplied "body"
      againIn .inBody token

end Build
end Markup
end HtmlTemplate
