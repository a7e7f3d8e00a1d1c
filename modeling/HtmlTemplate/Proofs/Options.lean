import HtmlTemplate.Proofs.Taglib.Fingerprint
import Mathlib

/-!
# Fingerprints of options

A fingerprint is the text of a JSON object, and this text tells every value in it: truth values start with different
letters, no digit of a number is a comma, and the quotation of a tag shows where it ends. So options have one
fingerprint only if they agree in all that generated code depends on. The other options are about storage.
-/

namespace HtmlTemplate

/-! ## Texts of JSON values -/

namespace Json

/-- The fields of an object stand between braces. -/
theorem toList_render_object (fields : List (String × Json)) :
    (render (.object fields)).toList = '\x7b' :: ((renderFields fields).toList ++ ['\x7d']) := by
  rw [render, String.toList_append, String.toList_append, List.append_assoc]
  rfl

theorem tells_bool : Tells (fun _ : Bool => True) id (· ≠ '\x7b') fun value => (render (.bool value)).toList :=
  .ofBool rfl rfl (by decide) (by decide) (by decide)

theorem toList_render_ofNat (n : Nat) : (render (ofNat n)).toList = Nat.toDigits 10 n := by
  rw [ofNat, render, Nat.toString_eq_ofList_toDigits, String.toList_ofList]

/-- A number tells itself in front of a comma. -/
theorem ofNat_eq {first second : Nat} {behind beyond : List Char}
    (equal : (render (ofNat first)).toList ++ ',' :: behind = (render (ofNat second)).toList ++ ',' :: beyond) :
    first = second ∧ behind = beyond := by
  have digits : ∀ n : Nat, ',' ∉ (render (ofNat n)).toList := by
    intro n member
    rw [toList_render_ofNat] at member
    exact absurd (Nat.isDigit_of_mem_toDigits (by decide) (by decide) member) (by decide)
  obtain ⟨same, rest⟩ := Tells.eq_of_append_cons (digits first) (digits second) equal
  exact ⟨Nat.repr_injective (String.toList_inj.1 same), rest⟩

/-- The text of a field with a truth value. -/
def writtenChoice (field : String × Bool) : List Char :=
  (Text.jsonString field.1).toList ++ ':' :: (render (.bool field.2)).toList

theorem tells_writtenChoice : Tells (fun _ : String × Bool => True) id (· = '"') writtenChoice where
  view_eq {first second behind beyond} _ _ equal := by
    unfold writtenChoice at equal
    rw [List.append_assoc, List.append_assoc] at equal
    obtain ⟨key, rest⟩ := Text.tells_jsonString.view_eq trivial trivial equal
    obtain ⟨value, ends⟩ := tells_bool.view_eq trivial trivial (List.cons.inj rest).2
    exact ⟨Prod.ext key value, ends⟩
  starts field _ := by
    obtain ⟨c, rest, written, quote⟩ := Text.tells_jsonString.starts field.1 trivial
    refine ⟨c, rest ++ ':' :: (render (.bool field.2)).toList, ?_, quote⟩
    rw [writtenChoice, written, List.cons_append]

/-- The fields of an object stand between commas. -/
theorem toList_renderFields (field : String × Bool) (fields : List (String × Bool)) :
    (renderFields ((field :: fields).map fun field => (field.1, .bool field.2))).toList =
      writtenChoice field ++ fields.flatMap (',' :: writtenChoice ·) := by
  induction fields generalizing field with
  | nil =>
      rw [List.flatMap_nil, List.append_nil, List.map_singleton, renderFields, writtenChoice, String.toList_append,
        String.toList_append, List.append_assoc]
      rfl
  | cons next fields hypothesis =>
      have further := hypothesis next
      rw [List.map_cons] at further
      rw [List.map_cons, List.map_cons, renderFields, String.toList_append, further, List.flatMap_cons]
      · simp [writtenChoice]
      · simp

/-- The fields of an object tell all its choices, in front of the brace that closes it. -/
theorem renderFields_eq {first second : List (String × Bool)} {behind beyond : List Char}
    (equal : (renderFields (first.map fun field => (field.1, .bool field.2))).toList ++ '\x7d' :: behind =
      (renderFields (second.map fun field => (field.1, .bool field.2))).toList ++ '\x7d' :: beyond) :
    first = second ∧ behind = beyond := by
  -- An object without fields is told from others by what stands behind its brace.
  have closes : ∀ (field : String × Bool) (fields : List (String × Bool)) (behind beyond : List Char),
      '\x7d' :: behind ≠ (renderFields ((field :: fields).map fun field => (field.1, .bool field.2))).toList ++ beyond := by
    intro field fields behind beyond same
    obtain ⟨c, rest, written, quote⟩ := tells_writtenChoice.starts field trivial
    rw [toList_renderFields, written, List.cons_append, List.cons_append] at same
    exact absurd ((List.cons.inj same).1.trans quote) (by decide)
  cases first with
  | nil =>
      cases second with
      | nil => exact ⟨rfl, (List.cons.inj equal).2⟩
      | cons field fields => exact absurd equal (closes field fields _ _)
  | cons field fields =>
      cases second with
      | nil => exact absurd equal.symm (closes field fields _ _)
      | cons other others =>
          rw [toList_renderFields, toList_renderFields, List.append_assoc, List.append_assoc] at equal
          obtain ⟨same, rest⟩ := tells_writtenChoice.view_eq trivial trivial equal
          have stops : ∀ (rest : List Char) c (tail : List Char), '\x7d' :: rest = c :: tail → c ≠ ',' := by
            rintro rest c tail starts rfl
            exact absurd (List.cons.inj starts).1 (by decide)
          have tells : Tells (fun _ : String × Bool => True) id (· = ',') (',' :: writtenChoice ·) := by
            simpa only [List.singleton_append] using tells_writtenChoice.behindText ',' []
          obtain ⟨sameFields, ends⟩ := tells.flatMap (fun _ _ => trivial) (fun _ _ => trivial) (stops behind)
            (stops beyond) rest
          rw [List.map_id, List.map_id] at sameFields
          exact ⟨congrArg₂ List.cons same sameFields, (List.cons.inj ends).2⟩

end Json

/-! ## Options -/

/-- A choice of places that keep their whitespace is told by its text. -/
theorem Preservation.render_eq {first second : Preservation} {behind beyond : List Char}
    (equal : first.toJson.render.toList ++ behind = second.toJson.render.toList ++ beyond) :
    first = second ∧ behind = beyond := by
  have apart : ∀ (all : Bool) (fields : List (String × Json)) (behind beyond : List Char),
      (Json.render (.bool all)).toList ++ behind ≠ (Json.render (.object fields)).toList ++ beyond := by
    intro all fields behind beyond same
    obtain ⟨c, rest, written, letter⟩ := Json.tells_bool.starts all trivial
    rw [written, Json.toList_render_object, List.cons_append, List.cons_append] at same
    exact letter (List.cons.inj same).1
  cases first with
  | everywhere all =>
      cases second with
      | everywhere other =>
          obtain ⟨same, rest⟩ := Json.tells_bool.view_eq trivial trivial equal
          exact ⟨congrArg everywhere same, rest⟩
      | tags others => exact absurd equal (apart all _ _ _)
  | tags choices =>
      cases second with
      | everywhere other => exact absurd equal.symm (apart other _ _ _)
      | tags others =>
          unfold toJson at equal
          rw [Json.toList_render_object, Json.toList_render_object, List.cons_append, List.cons_append, List.append_assoc,
            List.append_assoc] at equal
          obtain ⟨entries, rest⟩ := Json.renderFields_eq (List.cons.inj equal).2
          exact ⟨congrArg tags (SortedMap.ext_entries entries), rest⟩

namespace Options

/-- The options agree in all that generated code depends on. -/
structure SameOutput (first second : Options) : Prop where
  preserveWhitespace : first.preserveWhitespace = second.preserveWhitespace
  allowUnknownTags : first.allowUnknownTags = second.allowUnknownTags
  maxTransformPasses : first.maxTransformPasses = second.maxTransformPasses

/-- A fingerprint is all that is fixed of the text of an object, and the values. -/
theorem toList_fingerprint (options : Options) : options.fingerprint.toList =
    '\x7b' :: (Text.jsonString "allowUnknownTags").toList ++ ':' :: ((Json.render (.bool options.allowUnknownTags)).toList ++
      ',' :: ((Text.jsonString "maxTransformPasses").toList ++
        ':' :: ((Json.render (.ofNat options.maxTransformPasses)).toList ++
          ',' :: ((Text.jsonString "preserveWhitespace").toList ++
            ':' :: (options.preserveWhitespace.toJson.render.toList ++ ['\x7d']))))) := by
  unfold fingerprint
  rw [Json.toList_render_object]
  simp [Json.renderFields]

/-- Options have one fingerprint if, and only if, they agree in all that generated code depends on. -/
theorem fingerprint_eq_iff {first second : Options} : first.fingerprint = second.fingerprint ↔ first.SameOutput second := by
  constructor
  · intro equal
    have lists := congrArg String.toList equal
    rw [toList_fingerprint, toList_fingerprint] at lists
    simp only [List.cons_append, List.cons.injEq, List.append_cancel_left_eq, true_and] at lists
    obtain ⟨unknown, afterUnknown⟩ := Json.tells_bool.view_eq trivial trivial lists
    simp only [List.cons.injEq, List.append_cancel_left_eq, true_and] at afterUnknown
    obtain ⟨passes, afterPasses⟩ := Json.ofNat_eq afterUnknown
    simp only [List.cons.injEq, List.append_cancel_left_eq, true_and] at afterPasses
    exact ⟨(Preservation.render_eq afterPasses).1, unknown, passes⟩
  · rintro ⟨whitespace, unknown, passes⟩
    unfold fingerprint
    rw [whitespace, unknown, passes]

end Options

end HtmlTemplate
