import HtmlTemplate.Markup.Rules.Body

/-!
# Rules for frames and for what follows the content

Tokens in frames, and tokens after the body, the frames or the root were closed.
-/

namespace HtmlTemplate
namespace Markup
namespace Build

/-- After the body. -/
def stepAfterBody : Token → Build Next
  | .space value => stepInBody (.space value)
  | .comment value => do
      match (← get).stack.getLast? with
      | some root => appendComment root.ref value
      | none => pure ()
      return .done
  | .done => return .done
  | token => do
      match token with
      | .start tag => if tag.name == "html" then return ← startHtml tag
      | .stop tag =>
          if tag == "html" then
            setMode .afterAfterBody
            return .done
      | _ => pure ()
      againIn .inBody token

/-- After the root, with a body in it. -/
def stepAfterAfterBody : Token → Build Next
  | .space value => stepInBody (.space value)
  | .comment value => do
      appendComment Draft.root value
      return .done
  | .done => return .done
  | token => do
      match token with
      | .start tag => if tag.name == "html" then return ← startHtml tag
      | _ => pure ()
      againIn .inBody token

/-- In frames. -/
def stepInFrames : Token → Build Next
  | .space value => do
      insertText value
      return .done
  | .comment value => do
      insertComment value
      return .done
  | .start tag => do
      match tag.name with
      | "html" => startHtml tag
      | "frameset" => do
          let _ ← insertTag tag
          return .done
      | "frame" => do
          let _ ← insertVoid tag
          return .done
      | "noframes" => startInHead tag
      | _ => return .done
  | .stop tag => do
      if tag == "frameset" && (← get).stack.length != 1 then
        pop
        if !(← currentIs "frameset") then setMode .afterFrames
      return .done
  | _ => return .done

/-- After the frames. -/
def stepAfterFrames : Token → Build Next
  | .space value => do
      insertText value
      return .done
  | .comment value => do
      insertComment value
      return .done
  | .start tag => do
      match tag.name with
      | "html" => startHtml tag
      | "noframes" => startInHead tag
      | _ => return .done
  | .stop tag => do
      if tag == "html" then setMode .afterAfterFrames
      return .done
  | _ => return .done

/-- After the root, with frames in it. -/
def stepAfterAfterFrames : Token → Build Next
  | .space value => stepInBody (.space value)
  | .comment value => do
      appendComment Draft.root value
      return .done
  | .start tag => do
      match tag.name with
      | "html" => startHtml tag
      | "noframes" => startInHead tag
      | _ => return .done
  | _ => return .done

end Build
end Markup
end HtmlTemplate
