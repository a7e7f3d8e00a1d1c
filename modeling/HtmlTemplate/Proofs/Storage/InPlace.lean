import HtmlTemplate.Proofs.Storage.FileTree
import HtmlTemplate.Proofs.Storage.Transparency

/-!
# Compiling in place

There are two ways to compile the template in a file. One makes the directory that the output lies in if it is
missing, the other puts the output where it belongs and fails if the directory is not there. They read, compile and
look for stored output in the same way, so they part only where a directory is made.
-/

namespace HtmlTemplate

namespace Access

/-! ## Making the directory of a path -/

variable {path : String} {tree : FileTree}

/-- The tree of files after the directory was made that a path lies in. -/
def withParent (path : String) (tree : FileTree) : FileTree :=
  ((makeParent path : Access FileTree Unit).run tree).2

theorem run_makeParent_of_hasParent (there : tree.HasParent path) :
    (makeParent path : Access FileTree Unit).run tree = (.ok (), tree) := by
  unfold makeParent
  split
  · rfl
  next parent lies =>
  split
  · rfl
  next full =>
  rw [run_change_eq]
  change (Except.mapError _ (FileTree.makeDirectories parent tree).1, (FileTree.makeDirectories parent tree).2) = _
  rw [FileTree.makeDirectories_of_isDirectory (there parent lies (by simpa using full))]
  rfl

theorem run_makeParent_cases (path : String) (tree : FileTree) :
    (makeParent path : Access FileTree Unit).run tree = (.ok (), withParent path tree) ∨
      ∃ fault, (makeParent path : Access FileTree Unit).run tree = (.error (.access fault), withParent path tree) := by
  unfold withParent makeParent
  split
  · exact .inl rfl
  split
  · exact .inl rfl
  rw [run_change_eq]
  cases (Storage.makeDirectories _ tree).1 with
  | ok => exact .inl rfl
  | error cause => exact .inr ⟨_, rfl⟩

theorem run_write_cases (path text : String) (tree : FileTree) :
    (∃ after, tree.putFile path (.text text) = .ok after ∧
      (write path text : Access FileTree Unit).run tree = (.ok (), after)) ∨
    ∃ fault, (write path text : Access FileTree Unit).run tree = (.error (.access fault), tree) := by
  unfold write
  rw [run_change_eq]
  cases put : tree.putFile path (.text text) with
  | ok after =>
      refine .inl ⟨after, rfl, ?_⟩
      simp only [Storage.write, put]
      rfl
  | error cause =>
      refine .inr ⟨{ cause, path }, ?_⟩
      simp only [Storage.write, put]
      rfl

theorem withParent_of_hasParent (there : tree.HasParent path) : withParent path tree = tree := by
  rw [withParent, run_makeParent_of_hasParent there]

end Access

namespace Compiler

variable {compiler : Compiler} {path : String} {tree : FileTree}

/-- Do two compilations of the template in a file give the same? Failures to use files or directories are of one
kind. -/
def Alike : Except FileFailure CodeModule → Except FileFailure CodeModule → Prop
  | .ok first, .ok second => first = second
  | .error (.compilation first), .error (.compilation second) => first = second
  | .error (.access _), .error (.access _) => True
  | _, _ => False

theorem alike_refl (result : Except FileFailure CodeModule) : Alike result result := by
  match result with
  | .ok _ => exact rfl
  | .error (.compilation _) => exact rfl
  | .error (.access _) => exact trivial

theorem isOk_of_alike {first second : Except FileFailure CodeModule} (alike : Alike first second) :
    first.isOk = second.isOk := by
  match first, second with
  | .ok _, .ok _ => rfl
  | .error _, .error _ => rfl
  | .ok _, .error _ => exact absurd alike id
  | .error (.compilation _), .ok _ => exact absurd alike id
  | .error (.access _), .ok _ => exact absurd alike id

/-- Does a compilation of the template in a file come to storing its output? -/
def Stores (compiler : Compiler) (path : String) (tree : FileTree) : Prop :=
  compiler.options.writeToDisk = true ∧ ∃ source result, Storage.read path tree = .ok source ∧
    (compiler.reuses = true → compiler.stored? path source tree = none) ∧
    (compiler.compile path source).result = .ok result

/-- Stores the code of a module that was made, and gives the module. -/
def keep (compiler : Compiler) (path source : String) (result : CodeModule) (makesDirectory : Bool) :
    Access FileTree CodeModule :=
  compiler.store makesDirectory path source result.code >>= fun _ => pure result

/-- A compilation that stores its output comes down to that. Any other goes the same way whether directories are made
or not. -/
theorem run_compileStored_cases (compiler : Compiler) (path : String) (tree : FileTree) :
    (compiler.Stores path tree ∧ ∃ source result, ∀ makesDirectory,
      (compiler.compileStored makesDirectory path).run tree =
        (compiler.keep path source result makesDirectory).run tree) ∨
    ¬compiler.Stores path tree ∧
      (compiler.compileFile path).run tree = (compiler.compileFileInPlace path).run tree := by
  cases there : Storage.read path tree with
  | error cause =>
      refine .inr ⟨?_, (run_missing there).trans (run_missing there).symm⟩
      rintro ⟨-, source, result, found, -⟩
      cases there.symm.trans found
  | ok source =>
      have same {other : String} (found : Storage.read path tree = .ok other) : source = other :=
        Except.ok.inj (there.symm.trans found)
      by_cases fresh : compiler.reuses = true → compiler.stored? path source tree = none
      · have renewed (makesDirectory : Bool) : (compiler.compileStored makesDirectory path).run tree =
            (compiler.compileAnew makesDirectory path source).run tree := run_renewed there fresh
        cases compiled : (compiler.compile path source).result with
        | error failure =>
            refine .inr ⟨?_, ?_⟩
            · rintro ⟨-, other, result, found, -, succeeds⟩
              cases same found
              cases compiled.symm.trans succeeds
            · exact ((renewed true).trans (run_failed compiled)).trans
                ((renewed false).trans (run_failed compiled)).symm
        | ok result =>
            by_cases writes : compiler.options.writeToDisk = true
            · refine .inl ⟨⟨writes, source, result, there, fresh, compiled⟩, source, result, fun makesDirectory => ?_⟩
              rw [renewed, compileAnew, compiled]
              simp only [if_pos writes]
              rfl
            · refine .inr ⟨fun stores => writes stores.1, (renewed true).trans (.trans ?_ (renewed false).symm)⟩
              simp only [compileAnew, compiled, if_neg writes]
      · obtain ⟨reuses, stored⟩ := not_forall.1 fresh
        obtain ⟨code, stored⟩ := Option.ne_none_iff_exists'.1 stored
        refine .inr ⟨?_, (run_stored there reuses stored).trans (run_stored there reuses stored).symm⟩
        rintro ⟨-, other, result, found, unstored, -⟩
        cases same found
        cases (unstored reuses).symm.trans stored

/-! ## Storing output -/

section Storing

variable (compiler : Compiler) (path source : String) (result : CodeModule) (tree : FileTree)

/-- In place output is stored where its directory is there, or the files stay as they are. -/
theorem run_keep_inPlace_cases :
    tree.HasParent (compiler.outputOf path) ∧ ((compiler.keep path source result false).run tree).1 = .ok result ∨
      ∃ fault, (compiler.keep path source result false).run tree = (.error (.access fault), tree) := by
  rcases Access.run_write_cases (compiler.outputOf path) (Stamp.write (compiler.key source) result.code) tree with
    ⟨after, put, written⟩ | ⟨fault, failed⟩
  · refine .inl ⟨FileTree.hasParent_of_putFile put, ?_⟩
    exact congrArg Prod.fst (Access.run_bind_ok written fun _ => pure result)
  · exact .inr ⟨fault, Access.run_bind_error failed _⟩

variable {compiler path source result tree}

theorem run_keep_of_makeParent {after : FileTree}
    (made : (Access.makeParent (compiler.outputOf path) : Access FileTree Unit).run tree = (.ok (), after)) :
    (compiler.keep path source result true).run tree = (compiler.keep path source result false).run after := by
  refine Access.run_bind_congr ?_ _
  unfold store
  rw [if_pos rfl, Access.run_bind_ok made]
  rfl

theorem run_keep_of_makeParent_error {failure : FileFailure} {after : FileTree}
    (failed : (Access.makeParent (compiler.outputOf path) : Access FileTree Unit).run tree = (.error failure, after)) :
    (compiler.keep path source result true).run tree = (.error failure, after) := by
  refine Access.run_bind_error ?_ _
  unfold store
  rw [if_pos rfl, Access.run_bind_error failed]

theorem run_keep_of_hasParent (there : tree.HasParent (compiler.outputOf path)) :
    (compiler.keep path source result true).run tree = (compiler.keep path source result false).run tree :=
  run_keep_of_makeParent (Access.run_makeParent_of_hasParent there)

variable (compiler path source result tree)

/-- With and without making its directory, storing output comes to the same if and only if nothing is made. -/
theorem keep_alike_iff :
    Alike ((compiler.keep path source result true).run tree).1 ((compiler.keep path source result false).run tree).1 ∧
        ((compiler.keep path source result true).run tree).2 = ((compiler.keep path source result false).run tree).2 ↔
      Access.withParent (compiler.outputOf path) tree = tree := by
  rcases Access.run_makeParent_cases (compiler.outputOf path) tree with made | ⟨fault, failed⟩
  · constructor
    · rw [run_keep_of_makeParent made]
      rintro ⟨alike, same⟩
      rcases compiler.run_keep_inPlace_cases path source result tree with ⟨there, -⟩ | ⟨fault, inPlace⟩
      · exact Access.withParent_of_hasParent there
      · rw [inPlace] at alike same
        rcases compiler.run_keep_inPlace_cases path source result (Access.withParent (compiler.outputOf path) tree) with
          ⟨-, stored⟩ | ⟨fault, unstored⟩
        · rw [stored] at alike
          exact absurd alike id
        · rw [unstored] at same
          exact same
    · intro unchanged
      rw [run_keep_of_makeParent made, unchanged]
      exact ⟨alike_refl _, rfl⟩
  · rw [run_keep_of_makeParent_error failed]
    rcases compiler.run_keep_inPlace_cases path source result tree with ⟨there, -⟩ | ⟨fault, inPlace⟩
    · exact absurd ((Access.run_makeParent_of_hasParent there).symm.trans failed) nofun
    · rw [inPlace]
      exact ⟨And.right, fun unchanged => ⟨trivial, unchanged⟩⟩

end Storing

/-- Compilations of the template in a file with and without making the directory of the output give the same and leave
the same files if and only if no directory is made for output that is stored. Where the directory is there, they do not
even differ in what they tell about a failure. -/
theorem compileFile_alike_iff (compiler : Compiler) (path : String) (tree : FileTree) :
    let making := (compiler.compileFile path).run tree
    let inPlace := (compiler.compileFileInPlace path).run tree
    (Alike making.1 inPlace.1 ∧ making.2 = inPlace.2 ↔
      (compiler.Stores path tree → Access.withParent (compiler.outputOf path) tree = tree)) ∧
    (tree.HasParent (compiler.outputOf path) → making = inPlace) := by
  intro making inPlace
  rcases run_compileStored_cases compiler path tree with ⟨stores, source, result, stored⟩ | ⟨idle, same⟩
  · rw [show making = _ from stored true, show inPlace = _ from stored false]
    exact ⟨(compiler.keep_alike_iff path source result tree).trans (imp_iff_right stores).symm, run_keep_of_hasParent⟩
  · rw [show making = inPlace from same]
    exact ⟨⟨fun _ stores => absurd stores idle, fun _ => ⟨alike_refl _, rfl⟩⟩, fun _ => rfl⟩

/-- Output that belongs in a directory that is missing: it is stored if the directory is made, and in place it is
not. -/
theorem compileFile_alike_missing :
    let compiler : Compiler := { registry := {}, options := { compiledSuffix := ".d/x.js" }, fuel := 20 }
    let tree : FileTree :=
      { entries := [(["work"], .directory), (["work", "page.html"], .text "<p></p>")], working := ["work"] }
    let making := (compiler.compileFile "page.html").run tree
    let inPlace := (compiler.compileFileInPlace "page.html").run tree
    making.1.isOk = true ∧ making.2.isDirectory "page.html.d" = true ∧ inPlace.1.isOk = false ∧ inPlace.2 = tree ∧
      ¬(Alike making.1 inPlace.1 ∧ making.2 = inPlace.2) := by
  intro compiler tree making inPlace
  have stored : making.1.isOk = true := by decide +kernel
  have failed : inPlace.1.isOk = false := by decide +kernel
  refine ⟨stored, by decide +kernel, failed, by decide +kernel, fun same => ?_⟩
  exact absurd ((stored.symm.trans (isOk_of_alike same.1)).trans failed) (by decide)

end Compiler
end HtmlTemplate
