import HtmlTemplate.Markup.Draft

/-!
# Content at any depth

What stands in elements is content of the document as well.
-/

namespace HtmlTemplate
namespace Markup

mutual

/-- A piece of content, and what stands in it. -/
def Content.deep : Content → List Content
  | .element tag attributes children => .element tag attributes children :: Content.deepAll children
  | content => [content]

/-- Pieces of content, and what stands in them. -/
def Content.deepAll : List Content → List Content
  | [] => []
  | content :: contents => content.deep ++ Content.deepAll contents

end

theorem Content.deepAll_eq_flatMap (contents : List Content) :
    Content.deepAll contents = contents.flatMap Content.deep := by
  induction contents with
  | nil => rfl
  | cons content contents hypothesis => rw [Content.deepAll, hypothesis, List.flatMap_cons]

theorem Content.mem_deepAll_flatMap {Index : Type} {indices : List Index} {contentOf : Index → List Content}
    {content : Content} :
    content ∈ Content.deepAll (indices.flatMap contentOf) ↔
      ∃ index ∈ indices, content ∈ Content.deepAll (contentOf index) := by
  rw [Content.deepAll_eq_flatMap, List.flatMap_assoc, List.mem_flatMap]
  simp only [Content.deepAll_eq_flatMap]

/-- The names in a piece of content, what stands in it aside: the tag and the attributes' names of an element, and
that of a document type. -/
def Content.names : Content → List String
  | .doctype name => [name]
  | .element tag attributes _ => tag :: attributes.list.map Prod.fst
  | _ => []

/-- The texts in a piece of content, what stands in it aside: a text, a comment, or the values of the attributes of an
element. -/
def Content.texts : Content → List String
  | .text value => [value]
  | .comment value => [value]
  | .element _ attributes _ => attributes.list.map Prod.snd
  | .doctype _ => []

end Markup
end HtmlTemplate
