import HtmlTemplate.Markup.Rules.After
import HtmlTemplate.Markup.Rules.Table

/-!
# Rules by mode, and rules for foreign content

Drawings and formulas have rules of their own, which know no modes. HTML elements that are written in them
end them.
-/

namespace HtmlTemplate
namespace Markup
namespace Build

/-- Treats a token by the rules of a mode. -/
def step (mode : Mode) (token : Token) : Build Next :=
  match mode with
  | .initial => stepInitial token
  | .beforeHtml => stepBeforeHtml token
  | .beforeHead => stepBeforeHead token
  | .inHead => stepInHead token
  | .afterHead => stepAfterHead token
  | .inBody => stepInBody token
  | .rawText => stepRawText token
  | .inTable => stepInTable token
  | .inTableText => stepInTableText token
  | .inCaption => stepInCaption token
  | .inColumns => stepInColumns token
  | .inRowGroup => stepInRowGroup token
  | .inRow => stepInRow token
  | .inCell => stepInCell token
  | .inSelect => stepInSelect token
  | .inSelectInTable => stepInSelectInTable token
  | .inTemplate => stepInTemplate token
  | .afterBody => stepAfterBody token
  | .inFrames => stepInFrames token
  | .afterFrames => stepAfterFrames token
  | .afterAfterBody => stepAfterAfterBody token
  | .afterAfterFrames => stepAfterAfterFrames token

/-! ## Foreign content -/

/-- Is a token inside of an element treated by the rules for foreign content? -/
def isForeignIn (element : Open) (token : Token) : Bool :=
  if element.kind.vocabulary == .html then false
  else
    match token with
    | .done => false
    | .space _ => !(element.kind.isFormulaText || element.kind.isDrawingText || element.annotation)
    | .text _ => !(element.kind.isFormulaText || element.kind.isDrawingText || element.annotation)
    | .null => !(element.kind.isFormulaText || element.kind.isDrawingText || element.annotation)
    | .start tag =>
        let stays := element.kind.isFormulaText && (tag.name == "mglyph" || tag.name == "malignmark")
        let annotated := element.kind == ⟨.formula, "annotation-xml"⟩ && tag.name == "svg"
        if element.kind.isFormulaText then stays
        else !(element.kind.isDrawingText || element.annotation || annotated)
    | _ => true

/-- The tags of HTML elements that end foreign content. -/
def foreignEndTags : List String :=
  ["b", "big", "blockquote", "body", "br", "center", "code", "dd", "div", "dl", "dt", "em", "embed",
   "h1", "h2", "h3", "h4", "h5", "h6", "head", "hr", "i", "img", "li", "listing", "menu", "meta",
   "nobr", "ol", "p", "pre", "ruby", "s", "small", "span", "strong", "strike", "sub", "sup", "table",
   "tt", "u", "ul", "var"]

/-- Does the tag end foreign content? -/
def endsForeign (tag : Tag) : Bool :=
  foreignEndTags.contains tag.name ||
    (tag.name == "font" &&
      tag.attributes.list.any fun (name, _) => ["color", "face", "size"].contains name)

/-- The camel-cased tags of drawings. -/
def drawingTags : List String :=
  ["altGlyph", "altGlyphDef", "altGlyphItem", "animateColor", "animateMotion", "animateTransform",
   "clipPath", "feBlend", "feColorMatrix", "feComponentTransfer", "feComposite", "feConvolveMatrix",
   "feDiffuseLighting", "feDisplacementMap", "feDistantLight", "feDropShadow", "feFlood", "feFuncA",
   "feFuncB", "feFuncG", "feFuncR", "feGaussianBlur", "feImage", "feMerge", "feMergeNode",
   "feMorphology", "feOffset", "fePointLight", "feSpecularLighting", "feSpotLight", "feTile",
   "feTurbulence", "foreignObject", "glyphRef", "linearGradient", "radialGradient", "textPath"]

/-- A start tag in foreign content. -/
def startForeign (vocabulary : Vocabulary) (tag : Tag) : Build Unit :=
  let name := if vocabulary == .drawing then respell drawingTags tag.name else tag.name
  insertForeign vocabulary (withForeignAttributes vocabulary { tag with name })

/-- May HTML stand in elements of this kind? -/
def holdsHtmlContent (kind : ElementKind) : Bool :=
  kind.vocabulary == .html || kind.isFormulaText || kind.isDrawingText

/-- Ends foreign content, and treats a token once more. -/
def leaveForeign (token : Token) : Build Next := do
  pop
  popTo holdsHtmlContent
  return .again token

/--
An end tag in foreign content closes the foreign element of its name in any case, unless there is an HTML
element further in. The flag tells whether the innermost open element comes next.
-/
def stopForeign (mode : Mode) (tag : String) : Bool → List Open → Build Next
  | _, [] => return .done
  | _, [_] => return .done
  | innermost, element :: outer => do
      if !innermost && element.kind.vocabulary == .html then step mode (.stop tag)
      else if element.kind.tag.toLower == tag then
        modify fun state => { state with stack := outer }
        return .done
      else stopForeign mode tag false outer

/-- Treats a token by the rules for foreign content inside of an element. -/
def stepForeign (element : Open) : Token → Build Next
  | .null => do
      insertText [Reference.replacement]
      return .done
  | .space value => do
      insertText value
      return .done
  | .text value => do
      forbidFrames
      insertText value
      return .done
  | .comment value => do
      insertComment value
      return .done
  | .start tag => do
      if endsForeign tag then leaveForeign (.start tag)
      else
        startForeign element.kind.vocabulary tag
        return .done
  | .stop tag => do
      let state ← get
      stopForeign state.mode tag true state.stack
  | _ => return .done

/-- Treats a token where the construction stands. -/
def stepAnywhere (token : Token) : Build Next := do
  let state ← get
  match state.stack with
  | element :: _ =>
      if isForeignIn element token then stepForeign element token else step state.mode token
  | [] => step state.mode token

end Build
end Markup
end HtmlTemplate
