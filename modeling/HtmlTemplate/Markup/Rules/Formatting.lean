import HtmlTemplate.Markup.Construction

/-!
# Formatting across elements

Formatting that is not closed where its element ends goes on in the elements behind. When a formatting
element is closed out of order, the elements opened inside of it are rebuilt so that they nest.
-/

namespace HtmlTemplate
namespace Markup
namespace Build

/-- Is the entry a marker, or is its element open? -/
def isSettledEntry (stack : List Open) : Formatting → Bool
  | .marker => true
  | .element element _ => stack.any fun candidate => candidate.ref == element.ref

/-- Opens the element of an entry anew. -/
def reopen : Formatting → Build Formatting
  | .marker => return .marker
  | .element _ tag => do
      let element ← insertTag tag
      return .element element tag

/-- Opens the formatting anew that goes on here. -/
def reopenFormatting : Build Unit := do
  let state ← get
  let isPending (entry : Formatting) := !isSettledEntry state.stack entry
  let pending := state.formatting.takeWhile isPending
  let reopened ← pending.reverse.mapM reopen
  modify fun state =>
    { state with formatting := reopened.reverse ++ state.formatting.dropWhile isPending }

/-- Formatting up to the latest marker. -/
def sinceMarker : List Formatting → List (Open × Tag)
  | .element element tag :: rest => (element, tag) :: sinceMarker rest
  | _ => []

/-- Do two tags ask for the same formatting? -/
def sameFormatting (left right : Tag) : Bool :=
  left.name == right.name && left.attributes.list.length == right.attributes.list.length &&
    left.attributes.list.all right.attributes.list.contains

/-- Takes the formatting of an element from the list. -/
def removeFormatting (ref : Ref) (entries : List Formatting) : List Formatting :=
  entries.eraseP fun
    | .element element _ => element.ref == ref
    | .marker => false

/-- Takes the formatting of an element out. -/
def dropFormatting (ref : Ref) : Build Unit :=
  modify fun state => { state with formatting := removeFormatting ref state.formatting }

/-- Adds a marker. -/
def addMarker : Build Unit :=
  modify fun state => { state with formatting := .marker :: state.formatting }

/-- Drops formatting up to the latest marker, the marker included. -/
def clearToMarker : Build Unit :=
  modify fun state =>
    { state with formatting := (state.formatting.dropWhile fun entry => entry != .marker).drop 1 }

/-- Opens a formatting element. At most three of the same kind go on. -/
def openFormatting (tag : Tag) : Build Unit := do
  let same := (sinceMarker (← get).formatting).filter fun entry => sameFormatting tag entry.2
  if 3 ≤ same.length then
    if let some (element, _) := same.getLast? then dropFormatting element.ref
  let element ← insertTag tag
  modify fun state => { state with formatting := .element element tag :: state.formatting }

/-- Closes the open elements through the one with this tag, unless a special one is in between. -/
def closeAnyTag (tag : String) : Build Unit := do
  match (← get).stack.find? fun element => element.isHtml tag || element.kind.isSpecial with
  | none => return ()
  | some element =>
      if element.isHtml tag then
        closeImpliedExcept tag
        popThrough fun candidate => candidate.ref == element.ref

/-! ## Closing out of order -/

/-- Where the rebuilt formatting goes on. -/
inductive Bookmark
  /-- In the place of the formatting that is closed. -/
  | replaceClosed
  /-- Right behind the formatting of an element. -/
  | after (ref : Ref)
  deriving DecidableEq, Repr

/-- What the rebuilding has come to. -/
structure Rebuilding where
  /-- The outermost element rebuilt so far. -/
  last : Ref
  bookmark : Bookmark := .replaceClosed
  /-- The elements that stay open, the innermost first. -/
  kept : List Open := []

/-- The tag that the formatting of an element came from, if it goes on. -/
def formattingTag? (ref : Ref) (entries : List Formatting) : Option Tag :=
  entries.findSome? fun
    | .element element tag => if element.ref == ref then some tag else none
    | .marker => none

/-- Formatting with the element of an entry exchanged. -/
def exchangeElement (ref : Ref) (new : Formatting) (entries : List Formatting) : List Formatting :=
  entries.map fun
    | .element element tag => if element.ref == ref then new else .element element tag
    | .marker => .marker

/--
Rebuilds the elements between a block and the formatting element around it, from the inside out. Only the
first three go on.
-/
def rebuild (block : Ref) : Nat → List Open → Rebuilding → Build Rebuilding
  | _, [], progress => return progress
  | passed, element :: rest, progress => do
      if 3 ≤ passed then
        dropFormatting element.ref
        rebuild block (passed + 1) rest progress
      else
        match formattingTag? element.ref (← get).formatting with
        | none => rebuild block (passed + 1) rest progress
        | some tag => do
            let new ← makeElement { tag := tag.name } tag.attributes
            modify fun state =>
              { state with formatting := exchangeElement element.ref (.element new tag) state.formatting }
            changeDraft fun draft => (draft.unlink progress.last).append new.ref progress.last
            let bookmark := if progress.last == block then .after new.ref else progress.bookmark
            rebuild block (passed + 1) rest
              { last := new.ref, bookmark, kept := progress.kept ++ [new] }

/-- Formatting with an entry put behind that of an element, which is before it in the list. -/
def insertAfterElement (ref : Ref) (new : Formatting) : List Formatting → List Formatting
  | [] => []
  | .marker :: rest => .marker :: insertAfterElement ref new rest
  | .element element tag :: rest =>
      if element.ref == ref then new :: .element element tag :: rest
      else .element element tag :: insertAfterElement ref new rest

/-- Formatting with the new entry in the place of the one that is closed. -/
def placeFormatting (closed : Ref) (new : Formatting) (entries : List Formatting) :
    Bookmark → List Formatting
  | .replaceClosed => exchangeElement closed new entries
  | .after ref => removeFormatting closed (insertAfterElement ref new entries)

/-- Moves a block out of a formatting element, and gives the block's content that formatting. -/
def moveBlock (closed : Open) (tag : Tag) (inner : List Open) (block : Open) (between : List Open)
    (ancestor : Open) (outer : List Open) : Build Unit := do
  let progress ← rebuild block.ref 0 between { last := block.ref }
  modify fun state =>
    { state with stack := inner ++ block :: progress.kept ++ closed :: ancestor :: outer }
  changeDraft fun draft => draft.unlink progress.last
  modify fun state =>
    { state with draft := insertItem state.draft progress.last (placeIn state ancestor) }
  let new ← makeElement { tag := tag.name } tag.attributes
  changeDraft fun draft => (draft.moveChildren block.ref new.ref).append block.ref new.ref
  modify fun state =>
    { state with
      formatting := placeFormatting closed.ref (.element new tag) state.formatting progress.bookmark
      stack := inner ++ new :: block :: progress.kept ++ ancestor :: outer }

/-- Closes a formatting element once. Tells whether there may be more to close. -/
def closeFormattingOnce (tag : String) : Build Bool := do
  let state ← get
  match (sinceMarker state.formatting).find? fun entry => entry.2.name == tag with
  | none => do
      closeAnyTag tag
      return false
  | some (closed, source) =>
      let isClosed (element : Open) := element.ref == closed.ref
      let inside := state.stack.takeWhile fun element => !isClosed element
      match state.stack.drop inside.length with
      | [] => do
          dropFormatting closed.ref
          return false
      | _ :: outer =>
          if !findInScope ElementKind.endsScope isClosed state.stack then return false
          else
            let between := (inside.reverse.takeWhile fun element => !element.kind.isSpecial).reverse
            match (inside.take (inside.length - between.length)).reverse, outer with
            | block :: innerReversed, ancestor :: outer => do
                moveBlock closed source innerReversed.reverse block between ancestor outer
                return true
            | _, _ => do
                modify fun state => { state with stack := outer }
                dropFormatting closed.ref
                return false

/-- Closes a formatting element as often as a number says, at most. -/
def closeFormattingTimes (tag : String) : Nat → Build Unit
  | 0 => return ()
  | times + 1 => do
      if ← closeFormattingOnce tag then closeFormattingTimes tag times

/-- Closes a formatting element. -/
def closeFormatting (tag : String) : Build Unit := do
  let state ← get
  match state.stack with
  | element :: _ =>
      if element.isHtml tag && (formattingTag? element.ref state.formatting).isNone then pop
      else closeFormattingTimes tag 8
  | [] => closeFormattingTimes tag 8

/-- Closes a link that is still open. -/
def closeLink : Build Unit := do
  match (sinceMarker (← get).formatting).find? fun entry => entry.1.isHtml "a" with
  | none => return ()
  | some (link, _) => do
      closeFormatting "a"
      dropFormatting link.ref
      removeOpen link.ref

end Build
end Markup
end HtmlTemplate
