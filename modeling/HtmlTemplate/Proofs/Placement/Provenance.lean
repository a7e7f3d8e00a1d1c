import HtmlTemplate.Proofs.Placement.Wrapping
import HtmlTemplate.Proofs.Template.Stretches
import Mathlib.Data.List.Basic

/-!
# Which start tags elements come from

Most elements of a document are there since the text has a start tag for them. Others are implied, or go on with
formatting that was begun before. This module follows a construction, tells which element each start tag brings in, and
lists the elements of a document in the order in which they begin, with the start tags that they come from.
-/

namespace HtmlTemplate
namespace Markup

/-- The tag of an element. -/
def Matter.element? : Matter → Option String
  | .element tag _ _ => some tag
  | _ => none

/-! ## Elements of drafts -/

namespace Draft

/-- The elements among what an item of a draft has become, with their tags, in the order of the document. The budget
bounds the depth. -/
def elementsOf (draft : Draft) : Nat → Ref → List (Ref × String)
  | 0, _ => []
  | budget + 1, ref =>
      match draft.matter ref with
      | .holder => (draft.children ref).flatMap (draft.elementsOf budget)
      | .element tag _ _ => (ref, tag) :: (draft.children (draft.inside ref)).flatMap (draft.elementsOf budget)
      | _ => []

/-- The elements of a draft. -/
def elements (draft : Draft) : List (Ref × String) :=
  draft.elementsOf draft.items.length root

/-- The elements are those of the content. The induction is on the depth. -/
theorem map_elementsOf (draft : Draft) (budget : Nat) (ref : Ref) :
    (draft.elementsOf budget ref).map Prod.snd =
      (Content.deepAll (draft.contentOf budget ref)).filterMap Content.element? := by
  induction budget generalizing ref with
  | zero => rfl
  | succ budget hypothesis =>
      have below (refs : List Ref) : (refs.flatMap (draft.elementsOf budget)).map Prod.snd =
          (Content.deepAll (refs.flatMap (draft.contentOf budget))).filterMap Content.element? := by
        rw [Content.deepAll_eq_flatMap, List.flatMap_assoc, List.map_flatMap, List.filterMap_flatMap]
        refine List.flatMap_congr fun child _ => ?_
        rw [hypothesis child, Content.deepAll_eq_flatMap]
      rw [elementsOf, contentOf]
      cases draft.matter ref with
      | holder => exact below _
      | doctype name => rfl
      | text value => rfl
      | comment value => rfl
      | element tag attributes inside =>
          dsimp only
          rw [List.map_cons, below, Content.deepAll, Content.deepAll, List.append_nil, Content.deep]
          rfl

end Draft

/-! ## Rounds of a construction -/

namespace Build

/-- The rounds in which a text is taken: what is left of the text, and how far the construction has come. -/
def roundsOf : Nat → List Char → Construction → List (List Char × Construction)
  | 0, _, _ => []
  | rounds + 1, text, state =>
      let (tokens, rest) := readTokens (inForeign.run state).1 text
      (text, state) ::
        match (takeTokens .done tokens).run state with
        | (.raw kind tag, state) =>
            let (raw, rest) := readRawTokens kind tag rest
            roundsOf rounds rest ((takeTokens .done raw).run state).2
        | (.plaintext, _) => []
        | (_, state) => if text.isEmpty then [] else roundsOf rounds rest state

/-- Is an element with this tag one that a start tag of this name brings in? Images go by two names. -/
def isFor (name tag : String) : Bool :=
  tag.toLower == name || (name == "image" && tag == "img")

/-- The element that a start tag of this name has brought in, if it has. Elements that are implied before it, and
formatting that goes on in front of it, are added earlier. -/
def broughtIn? (name : String) (before after : Draft) : Option Ref :=
  let last : Ref := ⟨after.items.length - 1⟩
  if before.items.length < after.items.length ∧ ((after.matter last).element?.any (isFor name)) = true then some last
  else none

/-- The element that a round brings in if it takes a start tag, with the text from the tag on. -/
def start? (round : List Char × Construction) : Option (Ref × List Char) :=
  match (readTokens (inForeign.run round.2).1 round.1).1 with
  | [.start tag] =>
      (broughtIn? tag.name round.2.draft ((takeToken (.start tag)).run round.2).2.draft).map fun ref => (ref, round.1)
  | _ => none

theorem suffix_readTokens (inForeign : Bool) (text : List Char) : (readTokens inForeign text).2 <:+ text := by
  obtain ⟨source, cut⟩ := SelfClosing.exists_cut inForeign text
  exact ⟨source, cut.parts.symm⟩

theorem suffix_readRawTokens (kind : RawKind) (tag : String) (text : List Char) :
    (readRawTokens kind tag text).2 <:+ text := by
  cases kind with
  | script => exact ⟨_, readScript_parts _ _ text⟩
  | withReferences => exact ⟨_, readRaw_parts tag text⟩
  | plain => exact ⟨_, readRaw_parts tag text⟩

/-- What is left of a text stands at its end. -/
theorem suffix_of_mem_roundsOf {rounds : Nat} {text : List Char} {state : Construction}
    {round : List Char × Construction} (member : round ∈ roundsOf rounds text state) : round.1 <:+ text := by
  induction rounds generalizing text state with
  | zero => cases member
  | succ rounds hypothesis =>
      rw [roundsOf] at member
      have behind := suffix_readTokens (inForeign.run state).1 text
      generalize readTokens (inForeign.run state).1 text = read at member behind
      rcases List.mem_cons.1 member with rfl | later
      · exact List.suffix_refl _
      · refine List.IsSuffix.trans ?_ behind
        split at later
        · exact (hypothesis later).trans (suffix_readRawTokens _ _ _)
        · cases later
        · split at later
          · cases later
          · exact hypothesis later

/-- Elements come from places where start tags are read. -/
theorem readTag_of_start? {round : List Char × Construction} {ref : Ref} {text : List Char}
    (begins : start? round = some (ref, text)) :
    text = round.1 ∧ ∃ behind tag rest, text = '<' :: behind ∧ readTag behind = some (tag, rest) := by
  unfold start? at begins
  split at begins
  · next tag taken =>
      obtain ⟨found, -, same⟩ := Option.map_eq_some_iff.1 begins
      obtain ⟨-, rfl⟩ := Prod.mk.inj same
      obtain ⟨behind, whole, -, read⟩ := SelfClosing.readTag_of_readTokens (Prod.ext taken rfl)
      exact ⟨rfl, behind, tag, _, whole, read⟩
  · cases begins

end Build

/-! ## Elements of documents -/

open Build

/-- The elements of the document that a text writes, in the order in which they begin. Those that come from a start tag
have the text from that tag on with them. -/
def elementsOf (text : List Char) : List (String × Option (List Char)) :=
  let text := joinLineEnds (withoutMark text)
  let starts := (roundsOf (text.length + 2) text {}).filterMap start?
  ((takeText (text.length + 2) text).run {}).2.draft.elements.map fun element => (element.2, starts.lookup element.1)

/-- They are the elements that the text is read as. -/
theorem map_elementsOf (text : List Char) :
    (elementsOf text).map Prod.fst = (Content.deepAll (read text)).filterMap Content.element? := by
  rw [elementsOf, List.map_map]
  exact Draft.map_elementsOf _ _ _

/-- Elements that a cell implies come from no start tag. -/
example : (elementsOf "<table><td>".toList).map (fun element => (element.1, element.2.map String.ofList)) =
    [("html", none), ("head", none), ("body", none), ("table", some "<table><td>"), ("tbody", none), ("tr", none),
      ("td", some "<td>")] := by
  decide +kernel

/-- A start tag that an element comes from is read where it stands. -/
theorem readTag_of_mem_elementsOf {text ahead : List Char} {tag : String} (member : (tag, some ahead) ∈ elementsOf text) :
    ahead <:+ joinLineEnds (withoutMark text) ∧
      ∃ behind written rest, ahead = '<' :: behind ∧ readTag behind = some (written, rest) := by
  obtain ⟨⟨ref, name⟩, -, same⟩ := List.mem_map.1 member
  obtain ⟨-, found⟩ := Prod.mk.inj same
  obtain ⟨front, behind, parts, -⟩ := List.lookup_eq_some_iff.1 found
  obtain ⟨round, taken, begins⟩ := List.mem_filterMap.1 (parts ▸ List.mem_append_right front List.mem_cons_self)
  obtain ⟨rfl, whole⟩ := readTag_of_start? begins
  exact ⟨suffix_of_mem_roundsOf taken, whole⟩

end Markup
end HtmlTemplate
