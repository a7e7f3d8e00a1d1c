import HtmlTemplate.Markup.Element

/-!
# Drafts and contents of documents

A document is drafted item by item; what has become of the items is its content.
-/

namespace HtmlTemplate
namespace Markup

/-!
## Drafts of documents

While a document is built, content moves from one place to another. A draft holds its items by number, so
that they can be moved as a whole.
-/

/-- The number of an item of a draft. -/
structure Ref where
  index : Nat
  deriving DecidableEq, Repr, Inhabited

/-- What an item is. -/
inductive Matter
  /-- The document, or what a template holds. -/
  | holder
  | doctype (name : String)
  | text (value : String)
  | comment (value : String)
  /-- An element; templates have a holder for what stands in them. -/
  | element (tag : String) (attributes : Attributes) (inside : Option Ref)
  deriving DecidableEq, Repr, Inhabited

/-- An item with its links. -/
structure Item where
  matter : Matter
  children : List Ref := []
  parent : Option Ref := none
  deriving DecidableEq, Repr, Inhabited

/-- The items of a document under construction, the document itself first. -/
structure Draft where
  items : List Item := [{ matter := .holder }]
  deriving DecidableEq, Repr, Inhabited

namespace Draft

/-- The document. -/
def root : Ref :=
  ⟨0⟩

/-- The item with a number. -/
def item (draft : Draft) (ref : Ref) : Item :=
  draft.items.getD ref.index default

/-- What an item is. -/
def matter (draft : Draft) (ref : Ref) : Matter :=
  (draft.item ref).matter

/-- The children of an item. -/
def children (draft : Draft) (ref : Ref) : List Ref :=
  (draft.item ref).children

/-- The parent of an item. -/
def parent (draft : Draft) (ref : Ref) : Option Ref :=
  (draft.item ref).parent

/-- The draft with one item changed. -/
def update (draft : Draft) (ref : Ref) (change : Item → Item) : Draft :=
  { items := draft.items.modify ref.index change }

/-- Adds an item. -/
def add (draft : Draft) (matter : Matter) : Ref × Draft :=
  (⟨draft.items.length⟩, { items := draft.items ++ [{ matter }] })

/-- The holder of what stands in a template, or else the element itself. -/
def inside (draft : Draft) (ref : Ref) : Ref :=
  match draft.matter ref with
  | .element _ _ (some inside) => inside
  | _ => ref

/-- Sets the parent of an item. -/
def setParent (draft : Draft) (parent : Option Ref) (ref : Ref) : Draft :=
  draft.update ref fun item => { item with parent }

/-- Sets the children of an item. -/
def setChildren (draft : Draft) (ref : Ref) (children : List Ref) : Draft :=
  draft.update ref fun item => { item with children }

/-- Takes an item from its parent. -/
def unlink (draft : Draft) (ref : Ref) : Draft :=
  match draft.parent ref with
  | some parent =>
      (draft.setChildren parent ((draft.children parent).erase ref)).setParent none ref
  | none => draft

/-- Adds an item without a parent behind the children of another one. -/
def append (draft : Draft) (parent child : Ref) : Draft :=
  (draft.setChildren parent (draft.children parent ++ [child])).setParent (some parent) child

/-- The draft with text added to a text, or nothing if the item is none. -/
def extendText? (draft : Draft) (ref : Ref) (more : String) : Option Draft :=
  match draft.matter ref with
  | .text value => some (draft.update ref fun item => { item with matter := .text (value ++ more) })
  | _ => none

/-- Adds text behind the children of an item. Texts next to each other become one. -/
def appendText (draft : Draft) (parent : Ref) (value : String) : Draft :=
  match (draft.children parent).getLast?.bind fun last => draft.extendText? last value with
  | some draft => draft
  | none =>
      let (ref, draft) := draft.add (.text value)
      draft.append parent ref

/-- Adds an item without a parent before a child of another one. -/
def insertBefore (draft : Draft) (parent sibling child : Ref) : Draft :=
  let siblings := draft.children parent
  (draft.setChildren parent (siblings.insertIdx (siblings.idxOf sibling) child)).setParent
    (some parent) child

/-- Adds text before a child of an item. Texts next to each other become one. -/
def insertTextBefore (draft : Draft) (parent sibling : Ref) (value : String) : Draft :=
  let before := (draft.children parent).takeWhile fun child => child != sibling
  match before.getLast?.bind fun last => draft.extendText? last value with
  | some draft => draft
  | none =>
      let (ref, draft) := draft.add (.text value)
      draft.insertBefore parent sibling ref

/-- Moves all children of an item behind those of another one. -/
def moveChildren (draft : Draft) (source target : Ref) : Draft :=
  let children := draft.children source
  let draft := draft.setChildren source []
  let draft := draft.setChildren target (draft.children target ++ children)
  children.foldl (fun draft child => draft.setParent (some target) child) draft

/-- Gives an element the attributes that it does not have. -/
def addAttributes (draft : Draft) (ref : Ref) (more : Attributes) : Draft :=
  draft.update ref fun item =>
    match item.matter with
    | .element tag attributes inside =>
        { item with matter := .element tag (attributes.addMissing more) inside }
    | _ => item

end Draft

/-!
## Content of documents

The content of a document that is finished.
-/

/-- A piece of the content of a document. -/
inductive Content
  | doctype (name : String)
  | text (value : String)
  | comment (value : String)
  | element (tag : String) (attributes : Attributes) (children : List Content)
  deriving Repr, Inhabited

namespace Draft

/-- The content that an item of a draft has become. The budget bounds the depth. -/
def contentOf (draft : Draft) : Nat → Ref → List Content
  | 0, _ => []
  | budget + 1, ref =>
      match draft.matter ref with
      | .holder => (draft.children ref).flatMap (draft.contentOf budget)
      | .doctype name => [.doctype name]
      | .text value => [.text value]
      | .comment value => [.comment value]
      | .element tag attributes _ =>
          [.element tag attributes
            ((draft.children (draft.inside ref)).flatMap (draft.contentOf budget))]

/-- The content of a draft. No item is deeper than there are items. -/
def content (draft : Draft) : List Content :=
  draft.contentOf draft.items.length root

end Draft

end Markup
end HtmlTemplate
