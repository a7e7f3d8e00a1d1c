/-!
# Names of tags, attributes and variables

The grammars of the names a tree may hold, and the lists of tags that markup knows by itself.
-/

namespace HtmlTemplate
namespace Name

/-- An ASCII letter, underscore or dollar. -/
def isIdentifierStart (c : Char) : Bool :=
  c.isAlpha || c == '_' || c == '$'

/-- A character that may follow the first one of an identifier. -/
def isIdentifierPart (c : Char) : Bool :=
  c.isAlphanum || c == '_' || c == '$'

/-- Is the text an identifier of letters, digits, underscores and dollars that starts with no digit? -/
def isIdentifier (name : String) : Bool :=
  match name.toList with
  | [] => false
  | c :: rest => isIdentifierStart c && rest.all isIdentifierPart

/-- A character that may follow the first letter of a tag name. -/
def isTagPart (c : Char) : Bool :=
  c.isAlphanum || c == ':' || c == '.' || c == '_' || c == '-'

/-- Is the text the name of a tag: a letter, then letters, digits and a few signs? -/
def isTag (name : String) : Bool :=
  match name.toList with
  | [] => false
  | c :: rest => c.isAlpha && rest.all isTagPart

/-- A tag name as an identifier: other characters than letters and digits become underscores. -/
def identifierHint (name : String) : String :=
  let hint := name.toList.map fun c => if c.isAlphanum then c else '_'
  match hint with
  | [] => "_"
  | c :: _ => if c.isDigit then String.ofList ('_' :: hint) else String.ofList hint

/-- Elements without content and end tag. -/
def voidTags : List String :=
  ["area", "base", "br", "col", "embed", "hr", "img", "input", "link", "meta", "param", "source",
   "track", "wbr"]

/-- Has an element with this tag neither content nor an end tag? -/
def isVoid (tag : String) : Bool :=
  voidTags.contains tag.toLower

/-- The tags of HTML. -/
def htmlTags : List String :=
  ["a", "abbr", "address", "area", "article", "aside", "audio", "b", "base", "bdi", "bdo",
   "blockquote", "body", "br", "button", "canvas", "caption", "cite", "code", "col", "colgroup",
   "data", "datalist", "dd", "del", "details", "dfn", "dialog", "div", "dl", "dt", "em", "embed",
   "fieldset", "figcaption", "figure", "footer", "form", "h1", "h2", "h3", "h4", "h5", "h6", "head",
   "header", "hgroup", "hr", "html", "i", "iframe", "img", "input", "ins", "kbd", "label", "legend",
   "li", "link", "main", "map", "mark", "menu", "meta", "meter", "nav", "noscript", "object", "ol",
   "optgroup", "option", "output", "p", "param", "picture", "pre", "progress", "q", "rp", "rt",
   "ruby", "s", "samp", "script", "search", "section", "select", "slot", "small", "source", "span",
   "strong", "style", "sub", "summary", "sup", "table", "tbody", "td", "template", "textarea",
   "tfoot", "th", "thead", "time", "title", "tr", "track", "u", "ul", "var", "video", "wbr"]

/-- The tags of drawings and formulas, in lower case. -/
def foreignTags : List String :=
  ["svg", "path", "circle", "ellipse", "line", "polyline", "polygon", "rect", "g", "defs", "use",
   "symbol", "clippath", "mask", "pattern", "marker", "lineargradient", "radialgradient", "stop",
   "filter", "foreignobject", "image", "switch", "text", "tspan", "textpath", "desc", "metadata",
   "view", "animate", "animatemotion", "animatetransform", "set", "mpath", "math"]

/-- Is the tag plain markup that needs no taglib? -/
def isStandard (tag : String) : Bool :=
  htmlTags.contains tag.toLower || foreignTags.contains tag.toLower

end Name
end HtmlTemplate
