import HtmlTemplate.Proofs.Template.Stretches
import HtmlTemplate.Proofs.Text.Telling

/-!
# A paragraph as markup

What a paragraph is read as when it stands alone: a document with the paragraph in its body. The attributes of the
paragraph are those of its tag, and plain text in it stays one text.
-/

namespace HtmlTemplate
namespace Markup

variable {text rest : List Char} {attributes : Attributes} {framesAllowed : Bool} {written : Option String}

/-! ## Plain text -/

/-- A character that begins nothing in markup, and is read as it is. -/
def IsPlain (c : Char) : Prop :=
  c ≠ '<' ∧ c ≠ '>' ∧ c ≠ '&' ∧ c ≠ '"' ∧ c ≠ '\x00' ∧ c ≠ '\r'

instance (c : Char) : Decidable (IsPlain c) :=
  inferInstanceAs (Decidable (_ ∧ _))

theorem decode_plain (inAttribute : Bool) (plain : '&' ∉ text) : Reference.decode inAttribute text = text := by
  unfold Reference.decode
  induction text with
  | nil => rfl
  | cons c text hypothesis =>
      rw [List.mem_cons, not_or] at plain
      rw [Reference.decodeFrom, if_neg (by simpa using Ne.symm plain.1), hypothesis plain.2]

theorem keptText_plain (plain : '\x00' ∉ text) : keptText text = String.ofList text := by
  have same : text.map kept = text.map id := by
    refine List.map_congr_left fun c member => ?_
    have other : ¬(c == '\x00') = true := fun isNull => plain (beq_iff_eq.1 isNull ▸ member)
    rw [kept, if_neg other]
    rfl
  rw [keptText, same, List.map_id]

/-- The characters of a token of text. -/
def Token.characters : Token → List Char
  | .space value => value
  | .text value => value
  | _ => []

/-- The token is white space or other text. -/
def Token.IsText (token : Token) : Prop :=
  token = .space token.characters ∨ token = .text token.characters

/-- Text is cut into tokens of text, and nothing is lost. -/
theorem ofText_plain (plain : '\x00' ∉ text) :
    (∀ token ∈ Token.ofText text, token.IsText) ∧ (Token.ofText text).flatMap Token.characters = text := by
  fun_induction Token.ofText text <;> simp_all [Token.IsText, Token.characters]

/-! ## Attributes in quotes -/

/-- A value in quotes is read up to the next quote. -/
theorem readAttributes_quoted (attributes : Attributes) (name read : List Char) (plain : '"' ∉ text) :
    readAttributes attributes (.value name (some '"') read) (text ++ '"' :: rest) =
      readAttributes (addAttribute attributes name (text.reverse ++ read)) .outside rest := by
  induction text generalizing read with
  | nil => rfl
  | cons c text hypothesis =>
      rw [List.mem_cons, not_or] at plain
      rw [List.cons_append, readAttributes, if_neg (by simpa using Ne.symm plain.1), hypothesis _ plain.2,
        List.reverse_cons, List.append_assoc]
      rfl

/-- The tag of a paragraph with a title, from its name on. -/
theorem readTag_title (plain : ∀ c ∈ text, IsPlain c) (rest : List Char) :
    readTag ('p' :: (" title=\"".toList ++ text ++ ['"']) ++ '>' :: rest) =
      some ({ name := "p", attributes := .one "title" (String.ofList text) }, rest) := by
  have quote : '"' ∉ text := fun member => (plain _ member).2.2.2.1 rfl
  have ampersand : '&' ∉ text := fun member => (plain _ member).2.2.1 rfl
  have null : '\x00' ∉ text := fun member => (plain _ member).2.2.2.2.1 rfl
  have shape : 'p' :: (" title=\"".toList ++ text ++ ['"']) ++ '>' :: rest =
      ['p'] ++ ' ' :: ("title=\"".toList ++ (text ++ '"' :: '>' :: rest)) := by
    simp only [List.append_assoc, List.cons_append, List.nil_append]
    rfl
  have named : ∀ c ∈ ['p'], endsTagName c = false := List.forall_mem_singleton.2 rfl
  rw [shape, readTag_named named (by rintro c ⟨⟩; rfl)]
  change (readAttributes .empty (.value "title".toList.reverse (some '"') []) (text ++ '"' :: '>' :: rest)).map _ = _
  rw [readAttributes_quoted _ _ _ quote, addAttribute, List.append_nil, List.reverse_reverse text,
    decode_plain true ampersand, keptText_plain null]
  rfl

/-! ## The construction -/

open Build

/-- The construction in the paragraph that a text starts with, and what was written in the paragraph, if anything. -/
def inParagraph (attributes : Attributes) (framesAllowed : Bool) (written : Option String) : Construction where
  draft.items :=
    [{ matter := .holder, children := [⟨1⟩] },
     { matter := .element "html" .empty none, children := [⟨2⟩, ⟨3⟩], parent := some ⟨0⟩ },
     { matter := .element "head" .empty none, parent := some ⟨1⟩ },
     { matter := .element "body" .empty none, children := [⟨4⟩], parent := some ⟨1⟩ },
     { matter := .element "p" attributes none, children := written.toList.map fun _ => ⟨5⟩, parent := some ⟨3⟩ }] ++
      written.toList.map fun value => { matter := .text value, parent := some ⟨4⟩ }
  mode := .inBody
  old := true
  stack :=
    [{ ref := ⟨4⟩, kind := { tag := "p" } }, { ref := ⟨3⟩, kind := { tag := "body" } },
     { ref := ⟨1⟩, kind := { tag := "html" } }]
  head := some { ref := ⟨2⟩, kind := { tag := "head" } }
  framesAllowed

theorem takeTokens_start (attributes : Attributes) :
    (takeTokens .done [.start { name := "p", attributes }]).run {} = (.done, inParagraph attributes true none) := by
  rfl

/-- Text in the paragraph comes behind what was written there. -/
theorem takeToken_characters {token : Token} (isText : token.IsText) :
    ∃ allowed, (takeToken token).run (inParagraph attributes framesAllowed written) =
      (.done, inParagraph attributes allowed (some (written.getD "" ++ String.ofList token.characters))) := by
  have first : ("" : String) ++ String.ofList token.characters = String.ofList token.characters := by simp
  rcases isText with space | other
  · refine ⟨framesAllowed, ?_⟩
    rw [space]
    cases written with
    | none =>
        rw [Option.getD_none, Token.characters, first]
        rfl
    | some value => rfl
  · refine ⟨false, ?_⟩
    rw [other]
    cases written with
    | none =>
        rw [Option.getD_none, Token.characters, first]
        rfl
    | some value => rfl

/-- A run of texts in the paragraph becomes one text. -/
theorem takeTokens_characters {tokens : List Token} (areText : ∀ token ∈ tokens, token.IsText) (full : tokens ≠ [])
    (next : Next) : ∃ allowed, (takeTokens next tokens).run (inParagraph attributes framesAllowed written) =
      (.done, inParagraph attributes allowed
        (some (written.getD "" ++ String.ofList (tokens.flatMap Token.characters)))) := by
  induction tokens generalizing next framesAllowed written with
  | nil => exact absurd rfl full
  | cons token tokens hypothesis =>
      obtain ⟨isText, others⟩ := List.forall_mem_cons.1 areText
      obtain ⟨between, taken⟩ := takeToken_characters isText
      rw [takeTokens, run_bind, taken, List.flatMap_cons]
      cases tokens with
      | nil =>
          rw [List.flatMap_nil, List.append_nil]
          exact ⟨between, rfl⟩
      | cons later tokens =>
          obtain ⟨allowed, rest⟩ := hypothesis others (List.cons_ne_nil _ _) .done
          refine ⟨allowed, rest.trans ?_⟩
          rw [Option.getD_some, String.ofList_append, String.append_assoc]

/-- The end tag of the paragraph and the end of the text leave what was written. -/
theorem takeText_stop (budget : Nat) (framesAllowed : Bool) (written : Option String) :
    ((takeText (budget + 2) "</p>".toList).run (inParagraph attributes framesAllowed written)).2.draft =
      (inParagraph attributes framesAllowed written).draft := by
  cases written <;> rfl

/-- A document with a paragraph in its body, and nothing else. -/
def document (attributes : Attributes) (children : List Content) : List Content :=
  [.element "html" .empty
    [.element "head" .empty [], .element "body" .empty [.element "p" attributes children]]]

/-- The paragraph stands in the body, with what was written in it. -/
theorem content_inParagraph : (inParagraph attributes framesAllowed written).draft.content =
    document attributes (written.toList.map .text) := by
  cases written <;> rfl

/-! ## The whole text -/

/-- Plain text up to the end tag of the paragraph is written in it. -/
theorem takeText_paragraph (attributes : Attributes) (plain : ∀ c ∈ text, IsPlain c) (budget : Nat) :
    ∃ allowed, ((takeText (budget + 3) (text ++ "</p>".toList)).run (inParagraph attributes true none)).2.draft =
      (inParagraph attributes allowed (if text.isEmpty then none else some (String.ofList text))).draft := by
  cases text with
  | nil => exact ⟨true, takeText_stop (budget + 1) true none⟩
  | cons c text =>
      have bracket : '<' ∉ c :: text := fun member => (plain _ member).1 rfl
      have ampersand : '&' ∉ c :: text := fun member => (plain _ member).2.2.1 rfl
      have null : '\x00' ∉ c :: text := fun member => (plain _ member).2.2.2.2.1 rfl
      have read (inForeign : Bool) : readTokens inForeign (c :: text ++ "</p>".toList) =
          (Token.ofText (c :: text), "</p>".toList) := by
        rw [SelfClosing.readTokens_run (List.cons_ne_nil c text) bracket (by rintro d ⟨⟩; rfl),
          decode_plain false ampersand]
      obtain ⟨areText, whole⟩ := ofText_plain null
      have some : Token.ofText (c :: text) ≠ [] := by
        intro none
        rw [none] at whole
        cases whole
      obtain ⟨allowed, taken⟩ := takeTokens_characters areText some .done
      refine ⟨allowed, ?_⟩
      rw [run_takeText_calm (List.append_ne_nil_of_left_ne_nil (List.cons_ne_nil c text) _) (read _) taken trivial,
        takeText_stop, whole, Option.getD_none, String.empty_append]
      rfl

/-- A paragraph with plain text in it is read as a document with the paragraph in its body. -/
theorem read_paragraph {between : List Char}
    (tag : ∀ rest, readTag ('p' :: between ++ '>' :: rest) = some ({ name := "p", attributes }, rest))
    (carriage : '\r' ∉ between) (plain : ∀ c ∈ text, IsPlain c) :
    read ('<' :: ('p' :: between ++ '>' :: (text ++ "</p>".toList))) =
      document attributes (if text.isEmpty then [] else [.text (String.ofList text)]) := by
  have ends : '\r' ∉ '<' :: ('p' :: between ++ '>' :: (text ++ "</p>".toList)) := by
    have inner : '\r' ∉ text := fun member => (plain _ member).2.2.2.2.2 rfl
    simp [carriage, inner]
  have first : ∃ c ∈ ['p'].head?, c.isAlpha = true := ⟨'p', rfl, by decide⟩
  have opens : readTokens (inForeign.run {}).1 ('<' :: ('p' :: between ++ '>' :: (text ++ "</p>".toList))) =
      ([.start { name := "p", attributes }], text ++ "</p>".toList) :=
    readMarkup_startTag first (tag _) _
  obtain ⟨budget, rounds⟩ : ∃ budget, ('<' :: ('p' :: between ++ '>' :: (text ++ "</p>".toList))).length + 2 =
      budget + 3 + 1 := ⟨between.length + text.length + 5, by simp; omega⟩
  obtain ⟨allowed, drafted⟩ := takeText_paragraph attributes plain budget
  have whole : withoutMark ('<' :: ('p' :: between ++ '>' :: (text ++ "</p>".toList))) =
      '<' :: ('p' :: between ++ '>' :: (text ++ "</p>".toList)) := rfl
  rw [read, whole, joinLineEnds_eq_self ends, rounds, run_takeText_calm (List.cons_ne_nil _ _) opens
    (takeTokens_start attributes) trivial, drafted, content_inParagraph]
  cases text <;> rfl

end Markup

/-! ## Tags that stay -/

namespace SelfClosing

variable {inner rest text : List Char}

/-- A tag without a slash at its end stays as it is. -/
theorem expand_tag (inside : ∀ c ∈ inner, isInside c = true) (last : inner.getLast? ≠ some '/') (rest : List Char) :
    expand ('<' :: (inner ++ '>' :: rest)) = '<' :: (inner ++ '>' :: expand rest) := by
  have closes : isInside '>' = false := rfl
  have opens : '<' ∉ inner := fun member => by cases inside _ member
  have none : read? (inner ++ '>' :: rest) = none := by
    cases found : read? (inner ++ '>' :: rest) with
    | none => rfl
    | some read =>
        obtain ⟨name, content, after⟩ := read
        have shaped := read?_eq_some_iff.1 found
        have bare := shaped.bare
        have parts : inner ++ '>' :: rest = name ++ content ++ ['/'] ++ '>' :: after := by
          rw [shaped.shape]
          simp only [List.append_assoc, List.cons_append, List.nil_append]
        obtain ⟨same, -⟩ := Tells.eq_of_append_cons (fun member => by cases inside _ member) (fun member => by cases bare _ member)
          parts
        rw [same, List.getLast?_concat] at last
        exact absurd rfl last
  rw [expand_of_none none, expand_append_plain opens, expand_cons_of_ne (by decide)]

/-- A paragraph with plain text in it stays as it is. -/
theorem expand_paragraph (inside : ∀ c ∈ inner, isInside c = true) (last : inner.getLast? ≠ some '/')
    (plain : '<' ∉ text) :
    expand ('<' :: (inner ++ '>' :: (text ++ "</p>".toList))) = '<' :: (inner ++ '>' :: (text ++ "</p>".toList)) := by
  have ends : expand "</p>".toList = "</p>".toList := by
    change expand ('<' :: ['/', 'p', '>']) = _
    rw [expand_of_none rfl, expand_plain (by decide)]
    rfl
  rw [expand_tag inside last, expand_append_plain plain, ends]

end SelfClosing
end HtmlTemplate
