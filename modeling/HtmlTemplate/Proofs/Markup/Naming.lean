import Mathlib
import HtmlTemplate.Markup.Document

/-!
# The names in a construction

Elements, their attributes and document types have names. A construction takes them from tags and declarations,
spells some of them in another way, and writes a few of its own accord. The invariant is that all names of its
state are accepted, in the draft, in the formatting that goes on and in the tokens that were put aside. What the
steps that the rules are made of do to the state is said once, as triples that the proofs about the rules look up.
-/

namespace HtmlTemplate

namespace Markup

open Std.Do

set_option mvcgen.warning false

variable {α : Type} {accepts : String → Prop}

/-! ## Names that are accepted -/

/-- The names of some attributes are accepted. -/
def Attributes.Named (accepts : String → Prop) (attributes : Attributes) : Prop :=
  ∀ given ∈ attributes.list, accepts given.1

/-- The names in a start tag are accepted. -/
structure Tag.Named (accepts : String → Prop) (tag : Tag) : Prop where
  name : accepts tag.name
  attributes : tag.attributes.Named accepts

/-- The names in a token are accepted. That of an end tag does not count: it closes what has its name already. -/
@[grind =]
def Token.Named (accepts : String → Prop) : Token → Prop
  | .start tag => tag.Named accepts
  | .doctype declared => accepts declared.name
  | _ => True

/-- The names in an item of a draft are accepted. -/
@[grind =]
def Matter.Named (accepts : String → Prop) : Matter → Prop
  | .doctype name => accepts name
  | .element tag attributes _ => accepts tag ∧ attributes.Named accepts
  | _ => True

/-- The names in the items of a draft are accepted. -/
def Draft.Named (accepts : String → Prop) (draft : Draft) : Prop :=
  ∀ item ∈ draft.items, item.matter.Named accepts

/-- The names in the tag that formatting came from are accepted. -/
@[grind =]
def Formatting.Named (accepts : String → Prop) : Formatting → Prop
  | .marker => True
  | .element _ tag => tag.Named accepts

/-- The names in the tags that pieces of formatting came from are accepted. -/
def Formatting.NamedAll (accepts : String → Prop) (entries : List Formatting) : Prop :=
  ∀ entry ∈ entries, entry.Named accepts

/-- The names in a token that is treated once more are accepted. -/
@[grind =]
def Next.Named (accepts : String → Prop) : Next → Prop
  | .again token => token.Named accepts
  | _ => True

/-- All names that a construction may write are accepted. -/
structure Construction.Named (accepts : String → Prop) (state : Construction) : Prop where
  draft : state.draft.Named accepts
  formatting : Formatting.NamedAll accepts state.formatting
  tableText : ∀ token ∈ state.tableText, token.Named accepts

attribute [grind →] Tag.Named.name Tag.Named.attributes Construction.Named.draft Construction.Named.formatting
  Construction.Named.tableText

attribute [grind ←] Tag.Named.mk Construction.Named.mk

/-- The names that the rules write of their own accord, those of a vocabulary aside. -/
def ruleNames : List String :=
  ["html", "head", "body", "p", "tr", "tbody", "colgroup", "img", "br", ":xmlns"]

/-- The names are accepted that the rules write of their own accord, and the spellings of the vocabularies. -/
structure AcceptsOwn (accepts : String → Prop) : Prop where
  rule : ∀ name ∈ ruleNames, accepts name
  foreign : ∀ vocabulary, ∀ name ∈ Build.foreignAttributes vocabulary, accepts name
  drawing : ∀ name ∈ Build.drawingTags, accepts name

@[grind .]
theorem Attributes.named_empty : Attributes.empty.Named accepts := by
  intro given member
  cases member

@[grind ←]
theorem Attributes.Named.addMissing {attributes more : Attributes} (named : attributes.Named accepts)
    (others : more.Named accepts) : (attributes.addMissing more).Named accepts := by
  intro given member
  rcases List.mem_append.1 member with own | new
  · exact named given own
  · exact others given (List.mem_of_mem_filter new)

/-! ## Drafts -/

namespace Draft

variable {draft : Draft} {ref parent child sibling source target : Ref} {value : String}

theorem named_empty : ({} : Draft).Named accepts := by
  intro item member
  obtain rfl := List.mem_singleton.1 member
  exact trivial

theorem Named.update (named : draft.Named accepts) {change : Item → Item}
    (keeps : ∀ item, item.matter.Named accepts → (change item).matter.Named accepts) :
    (draft.update ref change).Named accepts := by
  intro item (member : item ∈ draft.items.modify ref.index change)
  obtain ⟨place, within, rfl⟩ := List.mem_iff_getElem.1 member
  rw [List.length_modify] at within
  have old := named _ (List.getElem_mem within)
  rw [List.getElem_modify]
  split
  · exact keeps _ old
  · exact old

@[grind ←]
theorem Named.setParent (named : draft.Named accepts) {above : Option Ref} :
    (draft.setParent above ref).Named accepts :=
  named.update fun _ kept => kept

@[grind ←]
theorem Named.setChildren (named : draft.Named accepts) {children : List Ref} :
    (draft.setChildren ref children).Named accepts :=
  named.update fun _ kept => kept

@[grind ←]
theorem Named.unlink (named : draft.Named accepts) : (draft.unlink ref).Named accepts := by
  unfold Draft.unlink
  split
  · exact named.setChildren.setParent
  · exact named

@[grind ←]
theorem Named.append (named : draft.Named accepts) : (draft.append parent child).Named accepts :=
  named.setChildren.setParent

@[grind ←]
theorem Named.insertBefore (named : draft.Named accepts) : (draft.insertBefore parent sibling child).Named accepts :=
  named.setChildren.setParent

@[grind ←]
theorem Named.add (named : draft.Named accepts) {matter : Matter} (new : matter.Named accepts) :
    (draft.add matter).2.Named accepts := by
  intro item member
  rcases List.mem_append.1 member with old | added
  · exact named item old
  · obtain rfl := List.mem_singleton.1 added
    exact new

theorem Named.addText (named : draft.Named accepts) : (draft.add (.text value)).2.Named accepts :=
  named.add trivial

theorem Named.extendText? (named : draft.Named accepts) {extended : Draft}
    (extends_ : draft.extendText? ref value = some extended) : extended.Named accepts := by
  unfold Draft.extendText? at extends_
  split at extends_
  · obtain rfl := Option.some.inj extends_
    exact named.update fun _ _ => trivial
  · cases extends_

theorem Named.extendLast (named : draft.Named accepts) {last : Option Ref} {extended : Draft}
    (extends_ : (last.bind fun last => draft.extendText? last value) = some extended) : extended.Named accepts := by
  obtain ⟨ref, -, extends_⟩ := Option.bind_eq_some_iff.1 extends_
  exact named.extendText? extends_

@[grind ←]
theorem Named.appendText (named : draft.Named accepts) : (draft.appendText parent value).Named accepts := by
  unfold Draft.appendText
  split
  · next extends_ => exact named.extendLast extends_
  · exact named.addText.append

@[grind ←]
theorem Named.insertTextBefore (named : draft.Named accepts) :
    (draft.insertTextBefore parent sibling value).Named accepts := by
  unfold Draft.insertTextBefore
  dsimp only
  split
  · next extends_ => exact named.extendLast extends_
  · exact named.addText.insertBefore

@[grind ←]
theorem Named.moveChildren (named : draft.Named accepts) : (draft.moveChildren source target).Named accepts := by
  have moved : ∀ (children : List Ref) {draft : Draft}, draft.Named accepts →
      (children.foldl (fun draft child => draft.setParent (some target) child) draft).Named accepts := by
    intro children
    induction children with
    | nil => exact fun named => named
    | cons child children hypothesis => exact fun named => hypothesis named.setParent
  exact moved _ named.setChildren.setChildren

@[grind ←]
theorem Named.addAttributes (named : draft.Named accepts) {more : Attributes} (others : more.Named accepts) :
    (draft.addAttributes ref more).Named accepts := by
  refine named.update fun item kept => ?_
  split
  · next tag attributes inside matter =>
    rw [matter] at kept
    exact ⟨kept.1, kept.2.addMissing others⟩
  · exact kept

@[grind ←]
theorem Named.insertItem (named : draft.Named accepts) {place : Build.Place} :
    (Build.insertItem draft child place).Named accepts := by
  unfold Build.insertItem
  split
  · exact named.append
  · split
    · exact named.insertBefore
    · exact named.append

@[grind ←]
theorem Named.insertValue (named : draft.Named accepts) {place : Build.Place} :
    (Build.insertValue draft value place).Named accepts := by
  unfold Build.insertValue
  split
  · exact named.appendText
  · split
    · exact named.insertTextBefore
    · exact named.appendText

end Draft

/-! ## Steps of constructions -/

namespace Build

/-- A step writes no name that is not accepted. -/
abbrev Keeps (accepts : String → Prop) (work : Build α) : Prop :=
  ⦃fun state => ⌜state.Named accepts⌝⦄ work ⦃⇓ _ state => ⌜state.Named accepts⌝⦄

/-- A step writes no name that is not accepted, and none is in the token that it gives back. -/
abbrev Passes (accepts : String → Prop) (work : Build Next) : Prop :=
  ⦃fun state => ⌜state.Named accepts⌝⦄ work ⦃⇓ next state => ⌜next.Named accepts ∧ state.Named accepts⌝⦄

-- Questions leave the state as it is.
attribute [spec] current currentIs currentIsOneOf isOpen inScopeWhere inScope body?

@[spec]
theorem keeps_setMode (mode : Mode) : Keeps accepts (setMode mode) := by
  mvcgen [setMode] with grind

@[spec]
theorem passes_againIn (mode : Mode) {token : Token} (named : token.Named accepts) :
    Passes accepts (againIn mode token) := by
  mvcgen [againIn]

@[spec]
theorem keeps_forbidFrames : Keeps accepts forbidFrames := by
  mvcgen [forbidFrames] with grind

/-! ### Open elements -/

@[spec]
theorem keeps_push (element : Open) : Keeps accepts (push element) := by
  mvcgen [push] with grind

@[spec]
theorem keeps_pop : Keeps accepts pop := by
  mvcgen [pop] with grind

@[spec]
theorem keeps_popThrough (wanted : Open → Bool) : Keeps accepts (popThrough wanted) := by
  mvcgen [popThrough] with grind

@[spec]
theorem keeps_popThroughTag (tag : String) : Keeps accepts (popThroughTag tag) := by
  mvcgen [popThroughTag]

@[spec]
theorem keeps_popTo (wanted : ElementKind → Bool) : Keeps accepts (popTo wanted) := by
  mvcgen [popTo] with grind

@[spec]
theorem keeps_removeOpen (ref : Ref) : Keeps accepts (removeOpen ref) := by
  mvcgen [removeOpen] with grind

@[spec]
theorem keeps_closeImplied (tags : List String) : Keeps accepts (closeImplied tags) := by
  mvcgen [closeImplied]

@[spec]
theorem keeps_closeImpliedExcept (tag : String) : Keeps accepts (closeImpliedExcept tag) := by
  mvcgen [closeImpliedExcept]

@[spec]
theorem keeps_closeParagraph : Keeps accepts closeParagraph := by
  mvcgen [closeParagraph]

@[spec]
theorem keeps_closeOpenParagraph : Keeps accepts closeOpenParagraph := by
  mvcgen [closeOpenParagraph]

@[spec]
theorem keeps_resetMode : Keeps accepts resetMode := by
  mvcgen [resetMode] with grind

@[spec]
theorem passes_againAfterReset {token : Token} (named : token.Named accepts) :
    Passes accepts (againAfterReset token) := by
  mvcgen [againAfterReset]

/-! ### Inserting content -/

@[spec]
theorem keeps_changeDraft {change : Draft → Draft}
    (keeps : ∀ draft, draft.Named accepts → (change draft).Named accepts) : Keeps accepts (changeDraft change) := by
  mvcgen [changeDraft] with grind

@[spec]
theorem keeps_insertText (value : List Char) : Keeps accepts (insertText value) := by
  mvcgen [insertText] with grind

@[spec]
theorem keeps_make {matter : Matter} (named : matter.Named accepts) : Keeps accepts (make matter) := by
  mvcgen [make] with grind

@[spec]
theorem keeps_insertComment (value : String) : Keeps accepts (insertComment value) := by
  mvcgen [insertComment] with grind

@[spec]
theorem keeps_appendComment (parent : Ref) (value : String) : Keeps accepts (appendComment parent value) := by
  mvcgen [appendComment] with grind

@[spec]
theorem keeps_makeElement {kind : ElementKind} {attributes : Attributes} (tag : accepts kind.tag)
    (named : attributes.Named accepts) : Keeps accepts (makeElement kind attributes) := by
  mvcgen [makeElement]

@[spec]
theorem keeps_insertClosed {kind : ElementKind} {attributes : Attributes} (tag : accepts kind.tag)
    (named : attributes.Named accepts) : Keeps accepts (insertClosed kind attributes) := by
  mvcgen [insertClosed] with grind

@[spec]
theorem keeps_insertOpen {kind : ElementKind} {attributes : Attributes} (tag : accepts kind.tag)
    (named : attributes.Named accepts) : Keeps accepts (insertOpen kind attributes) := by
  mvcgen [insertOpen]

@[spec]
theorem keeps_insertTag {tag : Tag} (named : tag.Named accepts) : Keeps accepts (insertTag tag) := by
  mvcgen [insertTag] with grind

@[spec]
theorem keeps_insertVoid {tag : Tag} (named : tag.Named accepts) : Keeps accepts (insertVoid tag) := by
  mvcgen [insertVoid] with grind

@[spec]
theorem keeps_insertImplied {tag : String} (accepted : accepts tag) : Keeps accepts (insertImplied tag) := by
  mvcgen [insertImplied] with grind

@[spec]
theorem passes_insertRaw (kind : RawKind) {tag : Tag} (named : tag.Named accepts) :
    Passes accepts (insertRaw kind tag) := by
  mvcgen [insertRaw] with grind

end Build

end Markup

/-!
## The names in formatting that goes on

Formatting elements are opened anew and rebuilt from the tags that they came from.
-/

namespace Markup

open Std.Do

set_option mvcgen.warning false

variable {accepts : String → Prop}

/-! ### Lists of formatting -/

namespace Formatting

open Build

variable {ref : Ref} {entry new : Formatting} {entries others : List Formatting}

@[grind ←]
theorem NamedAll.cons (first : entry.Named accepts) (later : NamedAll accepts entries) :
    NamedAll accepts (entry :: entries) :=
  List.forall_mem_cons.2 ⟨first, later⟩

theorem NamedAll.subset (named : NamedAll accepts entries) (fewer : others ⊆ entries) : NamedAll accepts others :=
  fun entry member => named entry (fewer member)

@[grind ←]
theorem NamedAll.remove (named : NamedAll accepts entries) : NamedAll accepts (removeFormatting ref entries) :=
  named.subset (List.eraseP_subset (l := entries))

@[grind ←]
theorem NamedAll.exchange (named : NamedAll accepts entries) (fresh : new.Named accepts) :
    NamedAll accepts (exchangeElement ref new entries) := by
  intro entry member
  obtain ⟨old, present, rfl⟩ := List.mem_map.1 member
  have kept := named old present
  cases old with
  | marker => exact trivial
  | element element tag =>
    dsimp only
    split
    · exact fresh
    · exact kept

theorem NamedAll.insertAfter (named : NamedAll accepts entries) (fresh : new.Named accepts) :
    NamedAll accepts (insertAfterElement ref new entries) := by
  induction entries with
  | nil => exact named
  | cons first entries hypothesis =>
    obtain ⟨kept, later⟩ := List.forall_mem_cons.1 named
    cases first with
    | marker => exact (hypothesis later).cons trivial
    | element element tag =>
      rw [insertAfterElement]
      split
      · exact named.cons fresh
      · exact (hypothesis later).cons kept

@[grind ←]
theorem NamedAll.place (named : NamedAll accepts entries) (fresh : new.Named accepts) {bookmark : Bookmark} :
    NamedAll accepts (placeFormatting ref new entries bookmark) := by
  cases bookmark with
  | replaceClosed => exact named.exchange fresh
  | after behind => exact (named.insertAfter fresh).remove

/-- What is found among formatting since the latest marker came from a tag whose names are accepted. -/
@[grind →]
theorem NamedAll.sinceMarker (named : NamedAll accepts entries) {found : Open × Tag}
    (member : found ∈ Build.sinceMarker entries) : found.2.Named accepts := by
  induction entries with
  | nil => cases member
  | cons entry entries hypothesis =>
    obtain ⟨first, later⟩ := List.forall_mem_cons.1 named
    cases entry with
    | marker => cases member
    | element element tag =>
      rcases List.mem_cons.1 member with rfl | below
      · exact first
      · exact hypothesis later below

@[grind →]
theorem NamedAll.formattingTag (named : NamedAll accepts entries) {tag : Tag}
    (found : formattingTag? ref entries = some tag) : tag.Named accepts := by
  obtain ⟨entry, member, source⟩ := List.exists_of_findSome?_eq_some found
  have kept := named entry member
  cases entry with
  | marker => cases source
  | element element other =>
    dsimp only at source
    split at source
    · cases source
      exact kept
    · cases source

end Formatting

namespace Build

/-! ### Formatting that goes on -/

@[spec]
theorem keeps_addMarker : Keeps accepts addMarker := by
  mvcgen [addMarker] with grind

@[spec]
theorem keeps_clearToMarker : Keeps accepts clearToMarker := by
  mvcgen [clearToMarker]
  next state named _ =>
    refine ⟨named.draft, named.formatting.subset fun entry member => ?_, named.tableText⟩
    exact List.dropWhile_subset _ (List.mem_of_mem_drop member)

@[spec]
theorem keeps_dropFormatting (ref : Ref) : Keeps accepts (dropFormatting ref) := by
  mvcgen [dropFormatting] with grind

@[spec]
theorem keeps_reopen {entry : Formatting} (named : entry.Named accepts) :
    ⦃fun state => ⌜state.Named accepts⌝⦄ reopen entry
      ⦃⇓ reopened state => ⌜reopened.Named accepts ∧ state.Named accepts⌝⦄ := by
  mvcgen [reopen] with grind

theorem keeps_mapM_reopen {entries : List Formatting} (named : Formatting.NamedAll accepts entries) :
    ⦃fun state => ⌜state.Named accepts⌝⦄ entries.mapM reopen
      ⦃⇓ reopened state => ⌜Formatting.NamedAll accepts reopened ∧ state.Named accepts⌝⦄ := by
  induction entries with
  | nil => mvcgen [List.mapM_nil]
  | cons entry entries hypothesis =>
    obtain ⟨first, later⟩ := List.forall_mem_cons.1 named
    have begins := keeps_reopen first
    have goesOn := hypothesis later
    rw [List.mapM_cons]
    mvcgen [begins, goesOn] with grind

@[spec]
theorem keeps_reopenFormatting : Keeps accepts reopenFormatting := by
  mvcgen [reopenFormatting, keeps_mapM_reopen]
  case vc2.named named _ _ =>
    refine named.formatting.subset fun entry member => ?_
    exact (List.takeWhile_sublist _).subset (List.mem_reverse.1 member)
  case vc4.post.success reopened state named _ =>
    refine ⟨named.2.draft, fun entry member => ?_, named.2.tableText⟩
    rcases List.mem_append.1 member with new | old
    · exact named.1 entry (List.mem_reverse.1 new)
    · exact named.2.formatting entry (List.dropWhile_subset _ old)

@[spec]
theorem keeps_openFormatting {tag : Tag} (named : tag.Named accepts) : Keeps accepts (openFormatting tag) := by
  mvcgen [openFormatting] with grind

@[spec]
theorem keeps_closeAnyTag (tag : String) : Keeps accepts (closeAnyTag tag) := by
  mvcgen [closeAnyTag]

/-! ### Closing out of order -/

@[spec]
theorem keeps_rebuild (block : Ref) (passed : Nat) (between : List Open) (progress : Rebuilding) :
    Keeps accepts (rebuild block passed between progress) := by
  induction between generalizing passed progress with
  | nil => mvcgen [rebuild]
  | cons element rest hypothesis => mvcgen [rebuild, hypothesis] with grind

@[spec]
theorem keeps_moveBlock {closed : Open} {tag : Tag} {inner : List Open} {block : Open} {between : List Open}
    {ancestor : Open} {outer : List Open} (named : tag.Named accepts) :
    Keeps accepts (moveBlock closed tag inner block between ancestor outer) := by
  mvcgen [moveBlock] with grind

@[spec]
theorem keeps_closeFormattingOnce (tag : String) : Keeps accepts (closeFormattingOnce tag) := by
  mvcgen [closeFormattingOnce] with grind

@[spec]
theorem keeps_closeFormattingTimes (tag : String) (times : Nat) : Keeps accepts (closeFormattingTimes tag times) := by
  induction times with
  | zero => mvcgen [closeFormattingTimes]
  | succ times hypothesis => mvcgen [closeFormattingTimes, hypothesis]

@[spec]
theorem keeps_closeFormatting (tag : String) : Keeps accepts (closeFormatting tag) := by
  mvcgen [closeFormatting]

@[spec]
theorem keeps_closeLink : Keeps accepts closeLink := by
  mvcgen [closeLink]

end Build

end Markup

end HtmlTemplate
