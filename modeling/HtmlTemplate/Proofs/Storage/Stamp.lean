import HtmlTemplate.Compiler
import HtmlTemplate.Proofs.Tree.Success
import HtmlTemplate.Storage.FileTree
import Mathlib.Data.List.Basic

/-!
# Stamps are read back exactly

What is stored is a line with the key and then the code, whatever the code looks like. Under a key of one line,
reading gives back the code that was stamped with it and nothing else: no output that was stamped with the key is
missed, and no text with another first line passes. As files hold texts in UTF-8, and different texts have different
bytes, a file of stored output that is used is the stamped code byte for byte.
-/

namespace HtmlTemplate

/-! ## Texts -/

namespace Stamp

variable {key other stored code : String}

theorem toList_write (key code : String) : (write key code).toList = (mark ++ key).toList ++ '\n' :: code.toList := by
  rw [write, String.toList_append, String.toList_append, List.append_assoc]
  rfl

theorem takeWhile_line {line : List Char} (whole : '\n' ∉ line) (rest : List Char) :
    (line ++ '\n' :: rest).takeWhile (fun c => c != '\n') = line := by
  have plain : ∀ c ∈ line, (c != '\n') = true := by
    rintro c member
    exact bne_iff_ne.2 fun same => whole (same ▸ member)
  rw [List.takeWhile_append_of_pos plain, List.takeWhile_cons_of_neg (by simp), List.append_nil]

/-- Output that was stamped with a key of one line is known under that key only. -/
theorem read?_write {other : String} (oneLine : '\n' ∉ other.toList) (key code : String) :
    read? key (write other code) = if other = key then some code else none := by
  have whole : '\n' ∉ (mark ++ other).toList := by
    rw [String.toList_append, List.mem_append]
    rintro (member | member)
    · exact absurd member (by decide)
    · exact oneLine member
  have same : (mark ++ other).toList = (mark ++ key).toList ↔ other = key := by
    rw [String.toList_inj, String.append_right_inj]
  unfold read?
  rw [toList_write]
  dsimp only
  rw [takeWhile_line whole, List.drop_left]
  simp only [beq_iff_eq, same, String.ofList_toList]

/-- What is read under a key was stamped with it: the first line is that of the key, and the rest is the code. -/
theorem eq_write_of_read? (reads : read? key stored = some code) : stored = write key code := by
  unfold read? at reads
  dsimp only at reads
  have whole := List.takeWhile_append_dropWhile (p := fun c => c != '\n') (l := stored.toList)
  have behind : stored.toList.drop (stored.toList.takeWhile fun c => c != '\n').length =
      stored.toList.dropWhile fun c => c != '\n' := by
    conv_lhs => arg 2; rw [← whole]
    exact List.drop_left
  rw [behind] at reads
  cases rest : stored.toList.dropWhile fun c => c != '\n' with
  | nil => simp [rest] at reads
  | cons first text =>
    -- the line ends where a line feed stands
    have ends : first = '\n' := by
      have stops := List.head?_dropWhile_not (fun c => c != '\n') stored.toList
      rw [rest] at stops
      simpa using stops
    rw [rest] at reads
    dsimp only at reads
    split at reads
    · next same =>
      obtain rfl := Option.some.inj reads
      rw [← String.toList_inj, toList_write, ← whole, rest, ends, eq_of_beq same, String.toList_ofList]
    · cases reads

theorem read?_eq_some_iff (oneLine : '\n' ∉ key.toList) : read? key stored = some code ↔ stored = write key code := by
  constructor
  · exact eq_write_of_read?
  · rintro rfl
    exact (read?_write oneLine key code).trans (if_pos rfl)

end Stamp

/-! ## Bytes -/

namespace Digest

theorem toByteArray_eq (text : String) : text.toByteArray = ⟨(textBytes text).toArray⟩ := by
  rw [← String.utf8Encode_toList]
  exact ByteArray.ext List.data_toByteArray

/-- Different texts have different bytes. -/
theorem textBytes_injective : Function.Injective textBytes := by
  intro first second equal
  exact String.toByteArray_inj.1 (by rw [toByteArray_eq, toByteArray_eq, equal])

/-- The digest SHA-256 is a text of one line, as it is written with digits. -/
theorem hexSha256_oneLine (bytes : List UInt8) : '\n' ∉ (hexSha256 bytes).toList := by
  intro member
  unfold hexSha256 at member
  rw [String.toList_ofList] at member
  obtain ⟨byte, -, written⟩ := List.mem_flatMap.1 member
  have digits : ∀ n < 256, (Text.hexPadded 2 n).all Text.isHexDigit = true := by decide +kernel
  exact absurd (List.all_eq_true.1 (digits byte.toNat byte.toNat_lt) _ written) (by decide)

end Digest

/-- A file with some bytes in it holds a text if they are the bytes of that text. -/
theorem Entry.ofBytes_eq_text_iff {bytes : List UInt8} {content : String} :
    ofBytes bytes = .text content ↔ bytes = Digest.textBytes content := by
  have decodes : String.fromUTF8? ⟨bytes.toArray⟩ = some content ↔ bytes = Digest.textBytes content := by
    unfold String.fromUTF8?
    split
    · next valid =>
      rw [Option.some.injEq, ← String.toByteArray_inj, Digest.toByteArray_eq content]
      simp [String.fromUTF8]
    · next invalid =>
      have other : bytes ≠ Digest.textBytes content := by
        rintro rfl
        exact invalid (Digest.toByteArray_eq content ▸ content.isValidUTF8)
      simp [other]
  rw [← decodes, ofBytes]
  cases String.fromUTF8? ⟨bytes.toArray⟩ <;> simp

namespace FileTree

variable {tree : FileTree} {path content : String} {bytes : List UInt8}

/-- The path leads to a file with these bytes in it. -/
def Holds (tree : FileTree) (path : String) (bytes : List UInt8) : Prop :=
  ∃ found, tree.target path = .ok found ∧ found.entry = some (Entry.ofBytes bytes) ∧ found.asDirectory = false

/-- A text is read from a file if the bytes of the text are in it. -/
theorem readText_eq_ok_iff : tree.readText path = .ok content ↔ tree.Holds path (Digest.textBytes content) := by
  have stands : Entry.ofBytes (Digest.textBytes content) = .text content := Entry.ofBytes_eq_text_iff.2 rfl
  unfold Holds
  rw [stands, readText, bind_eq_ok_iff]
  refine exists_congr fun found => and_congr_right fun _ => ?_
  match found with
  | { entry := none, .. } => simp [throw, throwThe, MonadExceptOf.throw]
  | { entry := some .directory, .. } => simp [throw, throwThe, MonadExceptOf.throw]
  | { entry := some .binary, asDirectory, .. } =>
      cases asDirectory <;> simp [throw, throwThe, MonadExceptOf.throw]
  | { entry := some (.text _), asDirectory, .. } =>
      cases asDirectory <;> simp [throw, throwThe, MonadExceptOf.throw, pure, Except.pure]

/-- There are no other bytes in a file than those of the text that it holds. -/
theorem Holds.eq_textBytes (holds : tree.Holds path bytes) (text : tree.Holds path (Digest.textBytes content)) :
    bytes = Digest.textBytes content := by
  obtain ⟨found, leads, entry, -⟩ := holds
  obtain ⟨other, same, here, -⟩ := text
  obtain rfl := Except.ok.inj (leads.symm.trans same)
  have alike : Entry.ofBytes bytes = Entry.ofBytes (Digest.textBytes content) :=
    Option.some.inj (entry.symm.trans here)
  exact Entry.ofBytes_eq_text_iff.1 (alike.trans (Entry.ofBytes_eq_text_iff.2 rfl))

end FileTree

/-! ## Stored output -/

namespace Compiler

variable {compiler : Compiler} {file source code : String} {tree : FileTree}

/-- Stored output is used if the file of the output holds the code with its stamp, and nothing else. -/
theorem stored?_eq_some_iff (oneLine : '\n' ∉ (compiler.key source).toList) :
    compiler.stored? file source tree = some code ↔
      tree.Holds (compiler.outputOf file) (Digest.textBytes (Stamp.write (compiler.key source) code)) := by
  have reads : Storage.read (compiler.outputOf file) tree = tree.readText (compiler.outputOf file) := rfl
  rw [← FileTree.readText_eq_ok_iff, stored?, reads]
  cases read : tree.readText (compiler.outputOf file) with
  | error cause => simp
  | ok content =>
    dsimp only
    rw [Stamp.read?_eq_some_iff oneLine, Except.ok.injEq]

/-- Under a key of one line, what was stamped with a key is read if it is the same key, whatever the code is, and what
is read is what was stamped with the key. So stored output is used exactly if there is a file that holds, byte for byte,
code that was stamped with the key of the source. -/
theorem stored?_exact {key : String} (oneLine : '\n' ∉ key.toList) :
    (∀ other code, '\n' ∉ other.toList →
        Stamp.read? key (Stamp.write other code) = if key = other then some code else none) ∧
      (∀ stored code, Stamp.read? key stored = some code ↔ stored = Stamp.write key code) ∧
      ∀ (compiler : Compiler) (file source : String) (tree : FileTree), compiler.key source = key →
        (∀ code, compiler.stored? file source tree = some code ↔
          tree.Holds (compiler.outputOf file) (Digest.textBytes (Stamp.write key code))) ∧
        ∀ bytes, tree.Holds (compiler.outputOf file) bytes → ∀ code,
          compiler.stored? file source tree = some code ↔ bytes = Digest.textBytes (Stamp.write key code) := by
  refine ⟨?_, fun stored code => Stamp.read?_eq_some_iff oneLine, ?_⟩
  · intro other code otherLine
    rw [Stamp.read?_write otherLine key code]
    exact if_congr eq_comm rfl rfl
  · rintro compiler file source tree rfl
    refine ⟨fun code => stored?_eq_some_iff oneLine, fun bytes holds code => ?_⟩
    rw [stored?_eq_some_iff oneLine]
    exact ⟨holds.eq_textBytes, fun same => same ▸ holds⟩

/-- Code that starts with a stamp of its own, in a file of bytes. -/
theorem stored?_exact_twice :
    let compiler : Compiler := { registry := {}, options := {}, fuel := 1, digest := fun _ => "key" }
    let code := "// source-sha256: other\nbody\n"
    let bytes := Digest.textBytes "// source-sha256: key\n// source-sha256: other\nbody\n"
    let tree : FileTree := { entries := [(["work", "page.html.js"], Entry.ofBytes bytes)], working := ["work"] }
    '\n' ∉ "key".toList ∧ '\n' ∉ "other".toList ∧
      Stamp.read? "key" (Stamp.write "other" code) = none ∧
      Stamp.read? "key" (Stamp.write "key" code) = some code ∧
      compiler.key "text" = "key" ∧ tree.Holds (compiler.outputOf "page.html") bytes ∧
      compiler.stored? "page.html" "text" tree = some code := by
  intro compiler code bytes tree
  have oneLine : '\n' ∉ "key".toList := by decide
  obtain ⟨written, read, stored⟩ := stored?_exact oneLine
  have same : bytes = Digest.textBytes (Stamp.write "key" code) := congrArg Digest.textBytes (by decide)
  have holds : tree.Holds (compiler.outputOf "page.html") bytes := by
    have stands : Entry.ofBytes bytes = .text (Stamp.write "key" code) := Entry.ofBytes_eq_text_iff.2 same
    unfold FileTree.Holds
    simp only [tree, stands]
    exact ⟨{ location := ["work", "page.html.js"], entry := some (.text (Stamp.write "key" code)),
             asDirectory := false }, by decide +kernel, rfl, rfl⟩
  refine ⟨oneLine, by decide, ?_, (read _ code).2 rfl, rfl, holds, ?_⟩
  · exact (written "other" code (by decide)).trans (if_neg (by decide))
  · exact ((stored compiler "page.html" "text" tree rfl).2 bytes holds code).2 same

end Compiler
end HtmlTemplate
