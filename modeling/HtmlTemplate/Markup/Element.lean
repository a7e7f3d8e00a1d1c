/-!
# Elements and their attributes
-/

namespace HtmlTemplate
namespace Markup

/-!
## Attributes of tags

The attributes of a tag are names with values. A name is read once for each tag; a vocabulary may spell two
names alike afterwards, but none of its spellings is written in small letters only.
-/

/-- Is a name written in small letters only? -/
def isSmall (name : String) : Bool :=
  name.toList.all fun c => 'a' ≤ c && c ≤ 'z'

/-- Names with values. No name that is written in small letters only occurs twice. -/
structure Attributes where
  list : List (String × String)
  single : ∀ name, isSmall name = true → (list.map Prod.fst).count name ≤ 1
  deriving DecidableEq, Repr

namespace Attributes

/-- No attributes. -/
def empty : Attributes where
  list := []
  single := fun _ _ => Nat.zero_le 1

instance : Inhabited Attributes :=
  ⟨empty⟩

/-- Has one of the attributes this name? -/
def has (attributes : Attributes) (name : String) : Bool :=
  attributes.list.any fun known => known.1 == name

theorem count_of_not_has {attributes : Attributes} {name : String} (absent : attributes.has name = false) :
    (attributes.list.map Prod.fst).count name = 0 := by
  rw [List.count_eq_zero]
  intro member
  obtain ⟨known, among, rfl⟩ := List.mem_map.1 member
  have other := List.any_eq_false.1 absent known among
  simp at other

/-- Attributes with those of some others whose names are new. -/
def addMissing (attributes more : Attributes) : Attributes where
  list := attributes.list ++ more.list.filter fun candidate => !attributes.has candidate.1
  single := by
    intro name small
    rw [List.map_append, List.count_append]
    have own := attributes.single name small
    have others := more.single name small
    have fewer : ((more.list.filter fun candidate => !attributes.has candidate.1).map Prod.fst).count name ≤
        (more.list.map Prod.fst).count name := (List.filter_sublist.map Prod.fst).count_le name
    cases known : attributes.has name with
    | false =>
        rw [count_of_not_has known]
        omega
    | true =>
        have none : ((more.list.filter fun candidate => !attributes.has candidate.1).map Prod.fst).count name = 0 := by
          rw [List.count_eq_zero]
          intro member
          obtain ⟨candidate, among, rfl⟩ := List.mem_map.1 member
          have new := (List.mem_filter.1 among).2
          rw [known] at new
          cases new
        omega

/-- An attribute on its own. -/
def one (name value : String) : Attributes where
  list := [(name, value)]
  single := fun _ _ => List.count_le_length

/-- Attributes with one more, unless there is one of its name. -/
def add (attributes : Attributes) (name value : String) : Attributes :=
  attributes.addMissing (one name value)

/-- Attributes with names spelled in another way. Spellings in small letters are the names as they were. -/
def respell (attributes : Attributes) (spell : String → String)
    (keeps : ∀ name, isSmall (spell name) = true → spell name = name) : Attributes where
  list := attributes.list.map fun (name, value) => (spell name, value)
  single := by
    intro name small
    have names : (attributes.list.map fun (name, value) => (spell name, value)).map Prod.fst =
        (attributes.list.map Prod.fst).map spell := by
      rw [List.map_map, List.map_map]
      rfl
    rw [names, List.count, List.countP_map]
    refine Nat.le_trans (List.countP_mono_left fun other _ same => ?_) (attributes.single name small)
    have spelled : spell other = name := by simpa using same
    have kept := keeps other (spelled ▸ small)
    exact beq_iff_eq.2 (kept.symm.trans spelled)

end Attributes

/-!
## Kinds of elements

What the rules for building documents from markup need to know about elements: the vocabulary and the tag,
and the sets of tags that the rules speak of.
-/

/-- The vocabularies that elements belong to. -/
inductive Vocabulary
  | html
  | drawing
  | formula
  deriving DecidableEq, Repr, Inhabited

/-- The kind of an element. -/
structure ElementKind where
  vocabulary : Vocabulary := .html
  tag : String
  deriving DecidableEq, Repr, Inhabited

namespace ElementKind

/-- Is it the kind of HTML elements with this tag? -/
def isHtml (kind : ElementKind) (tag : String) : Bool :=
  kind.vocabulary == .html && kind.tag == tag

/-- Is it a kind of HTML elements with one of these tags? -/
def isOneOf (tags : List String) (kind : ElementKind) : Bool :=
  kind.vocabulary == .html && tags.contains kind.tag

/-- Does text in a formula stand in elements of this kind? -/
def isFormulaText (kind : ElementKind) : Bool :=
  kind.vocabulary == .formula && ["mi", "mo", "mn", "ms", "mtext"].contains kind.tag

/-- Do elements of this kind hold HTML in a drawing? -/
def isDrawingText (kind : ElementKind) : Bool :=
  kind.vocabulary == .drawing && ["foreignObject", "desc", "title"].contains kind.tag

/-! ### Scopes: the kinds at which a search among open elements ends -/

/-- The kinds that end most searches. -/
def endsScope (kind : ElementKind) : Bool :=
  kind.isOneOf ["applet", "caption", "html", "table", "td", "th", "marquee", "object", "template"] ||
    kind.isFormulaText || kind.isDrawingText

/-- The kinds that end the search for a list item. -/
def endsItemScope (kind : ElementKind) : Bool :=
  kind.endsScope || kind.isOneOf ["ol", "ul"]

/-- The kinds that end the search for a paragraph. -/
def endsParagraphScope (kind : ElementKind) : Bool :=
  kind.endsScope || kind.isHtml "button"

/-- The kinds that end the search for a part of a table. -/
def endsTableScope (kind : ElementKind) : Bool :=
  kind.isOneOf ["html", "table", "template"]

/-- The kinds that end the search for a selection. -/
def endsSelectScope (kind : ElementKind) : Bool :=
  !kind.isOneOf ["optgroup", "option"]

/-! ### Sets of tags -/

/-- The tags of headings. -/
def headingTags : List String :=
  ["h1", "h2", "h3", "h4", "h5", "h6"]

/-- The tags of cells. -/
def cellTags : List String :=
  ["td", "th"]

/-- The tags of elements whose end may be left out. -/
def impliedEndTags : List String :=
  ["dd", "dt", "li", "option", "optgroup", "p", "rb", "rp", "rt", "rtc"]

/-- The same tags and those of the parts of tables. -/
def impliedEndTagsInTables : List String :=
  impliedEndTags ++ ["caption", "colgroup", "tbody", "td", "tfoot", "th", "thead", "tr"]

/-- The tags of elements that a row may stand in. -/
def rowGroupContext : List String :=
  ["tbody", "tfoot", "thead", "template", "html"]

/-- The tags of elements that a cell may stand in. -/
def rowContext : List String :=
  ["tr", "template", "html"]

/-- The tags of elements in which stray content is moved before the table. -/
def fosterTags : List String :=
  ["table", "tbody", "tfoot", "thead", "tr"]

/-- The tags of elements that formatting does not reach across. -/
def specialTags : List String :=
  ["address", "applet", "area", "article", "aside", "base", "basefont", "bgsound", "blockquote",
   "body", "br", "button", "caption", "center", "col", "colgroup", "dd", "details", "dir", "div",
   "dl", "dt", "embed", "fieldset", "figcaption", "figure", "footer", "form", "frame", "frameset",
   "h1", "h2", "h3", "h4", "h5", "h6", "head", "header", "hgroup", "hr", "html", "iframe", "img",
   "input", "isindex", "li", "link", "listing", "main", "marquee", "menu", "meta", "nav", "noembed",
   "noframes", "noscript", "object", "ol", "p", "param", "plaintext", "pre", "script", "section",
   "select", "source", "style", "summary", "table", "tbody", "td", "template", "textarea", "tfoot",
   "th", "thead", "title", "tr", "track", "ul", "wbr", "xmp"]

/-- Does formatting not reach across elements of this kind? -/
def isSpecial (kind : ElementKind) : Bool :=
  kind.isOneOf specialTags

end ElementKind

end Markup
end HtmlTemplate
