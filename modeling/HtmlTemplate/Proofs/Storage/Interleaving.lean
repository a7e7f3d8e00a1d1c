import HtmlTemplate.Proofs.Storage.Transparency
import Mathlib.Data.List.Induction
import Mathlib.Data.List.OfFn
import Mathlib.Logic.Function.Iterate

/-!
# Compiling at the same time

The templates in several files can be compiled at the same time. Each compilation is a task that takes a few steps with
the storage, and the steps of the tasks come in any order. If each path names a file of its own, then a task looks
at two files, that of its template and that of its output, and changes the latter. So it goes as if it had the storage
for itself, and the same comes about as when the templates are compiled one after the other.
-/

namespace HtmlTemplate

/-- Distinct paths name distinct files. What a file gives when it is read, and whether and how it changes when it is
written to, depends on that file, and no other file is touched. Directories are no files. -/
structure Storage.Separation (σ File : Type) [Storage σ] where
  /-- The file at a path. -/
  file : String → σ → File
  /-- What reading a file gives. -/
  content : File → Except AccessCause String
  /-- What writing a text to a file gives, and the file after it. -/
  written : String → File → Except AccessCause Unit × File
  /-- What making a directory gives. -/
  directory : String → Except AccessCause Unit
  read_eq : ∀ path (storage : σ), Storage.read path storage = content (file path storage)
  write_eq : ∀ path text (storage : σ), (Storage.write path text storage).1 = (written text (file path storage)).1
  file_write : ∀ path text (storage : σ), file path (Storage.write path text storage).2 = (written text (file path storage)).2
  file_write_of_ne : ∀ {path other}, other ≠ path → ∀ text (storage : σ),
    file other (Storage.write path text storage).2 = file other storage
  makeDirectories_eq : ∀ path (storage : σ), (Storage.makeDirectories path storage).1 = directory path
  file_makeDirectories : ∀ path other (storage : σ), file other (Storage.makeDirectories path storage).2 = file other storage

/-- In files as a map, there is a text or nothing at each path. -/
def Files.separation : Storage.Separation Files (Option String) where
  file path files := files.text? path
  content
    | some text => .ok text
    | none => .error .notFound
  written text _ := (.ok (), some text)
  directory _ := .ok ()
  read_eq path files := Files.read_eq files path
  write_eq _ _ _ := rfl
  file_write path text files := Files.text?_put_self files path (some text)
  file_write_of_ne differs text files := Files.text?_put_of_ne files differs (some text)
  makeDirectories_eq _ _ := rfl
  file_makeDirectories _ _ _ := rfl

/-! ## Tasks -/

/-- How far the compilation of the template in a file has come. -/
inductive Stage
  | start
  /-- The source was read. -/
  | sourced (source : String)
  /-- Stored output cannot be used, and the source was compiled to what is to be stored. -/
  | compiled (source : String) (result : CodeModule)
  /-- The directory of the output is there. -/
  | placed (source : String) (result : CodeModule)
  | done (result : Except FileFailure CodeModule)

/-- The stage that a step comes to. A step that fails is the last one. -/
def Stage.ofResult : Except FileFailure Stage → Stage
  | .ok stage => stage
  | .error failure => .done (.error failure)

namespace Compiler

section Tasks

variable {σ : Type} [Storage σ]

/-- The next thing that the compilation of the template in a file does. -/
def step (compiler : Compiler) (path : String) : Stage → Access σ Stage
  | .start => do return .sourced (← Access.read path)
  | .sourced source => do
      let storage ← get
      match if compiler.reuses then compiler.stored? path source storage else none with
      | some code => return .done (.ok (CodeModule.stored path code))
      | none =>
          match (compiler.compile path source).result with
          | .error failure => throw (.compilation failure)
          | .ok result =>
              return if compiler.options.writeToDisk then .compiled source result else .done (.ok result)
  | .compiled source result => do
      Access.makeParent (compiler.outputOf path)
      return .placed source result
  | .placed source result => do
      Access.write (compiler.outputOf path) (Stamp.write (compiler.key source) result.code)
      return .done (.ok result)
  | .done result => return .done result

/-- A task and the storage after one more step of it. -/
def advance (compiler : Compiler) (path : String) (state : Stage × σ) : Stage × σ :=
  let (result, storage) := (compiler.step path state.1).run state.2
  (Stage.ofResult result, storage)

/-- Several tasks under way: how far each of them has come, and the storage that they share. -/
structure Tasks (σ : Type) (paths : List String) where
  stage : Fin paths.length → Stage
  storage : σ

/-- All tasks before their first steps. -/
def Tasks.start (paths : List String) (storage : σ) : Tasks σ paths :=
  { stage := fun _ => .start, storage }

/-- The tasks after one of them took a step. -/
def turn (compiler : Compiler) {paths : List String} (tasks : Tasks σ paths) (index : Fin paths.length) :
    Tasks σ paths :=
  let (stage, storage) := compiler.advance paths[index] (tasks.stage index, tasks.storage)
  { stage := Function.update tasks.stage index stage, storage }

/-- The tasks after the steps of a schedule. It says which task takes a step, time after time. -/
def interleave (compiler : Compiler) {paths : List String} (tasks : Tasks σ paths)
    (schedule : List (Fin paths.length)) : Tasks σ paths :=
  schedule.foldl compiler.turn tasks

theorem stage_turn_self (compiler : Compiler) {paths : List String} (tasks : Tasks σ paths)
    (index : Fin paths.length) :
    (compiler.turn tasks index).stage index =
      (compiler.advance paths[index] (tasks.stage index, tasks.storage)).1 :=
  Function.update_self ..

theorem stage_turn_of_ne (compiler : Compiler) {paths : List String} (tasks : Tasks σ paths)
    {index other : Fin paths.length} (differs : other ≠ index) :
    (compiler.turn tasks index).stage other = tasks.stage other :=
  Function.update_of_ne differs ..

end Tasks

/-! ## A task on its own -/

section Alone

variable {σ : Type} [Storage σ] {compiler : Compiler} {path : String}

@[simp]
theorem advance_done (result : Except FileFailure CodeModule) (storage : σ) :
    compiler.advance path (.done result, storage) = (.done result, storage) :=
  rfl

theorem iterate_advance_done (count : Nat) (result : Except FileFailure CodeModule) (storage : σ) :
    (compiler.advance path)^[count] (.done result, storage) = (.done result, storage) :=
  Function.iterate_fixed (advance_done result storage) count

theorem advance_of_ok {stage next : Stage} {before after : σ}
    (ran : (compiler.step path stage).run before = (.ok next, after)) :
    compiler.advance path (stage, before) = (next, after) := by
  unfold advance
  rw [ran]
  rfl

theorem advance_of_error {stage : Stage} {failure : FileFailure} {before after : σ}
    (ran : (compiler.step path stage).run before = (.error failure, after)) :
    compiler.advance path (stage, before) = (.done (.error failure), after) := by
  unfold advance
  rw [ran]
  rfl

/-- The directory of the output is made, and then the output is written. -/
theorem iterate_advance_compiled (source : String) (result : CodeModule) (storage : σ) :
    let stores : Access σ CodeModule := compiler.store true path source result.code >>= fun _ => pure result
    (compiler.advance path)^[2] (.compiled source result, storage) =
      (.done (stores.run storage).1, (stores.run storage).2) := by
  intro stores
  rw [Function.iterate_succ_apply]
  cases makes : (Access.makeParent (compiler.outputOf path) : Access σ Unit).run storage with
  | mk made placed =>
  cases made with
  | error failure =>
    have step : compiler.advance path (.compiled source result, storage) = (.done (.error failure), placed) :=
      advance_of_error (Access.run_bind_error makes _)
    have stored : (compiler.store true path source result.code).run storage = (.error failure, placed) :=
      Access.run_bind_error makes _
    rw [step, iterate_advance_done, Access.run_bind_error stored]
  | ok =>
    have step : compiler.advance path (.compiled source result, storage) = (.placed source result, placed) :=
      advance_of_ok (Access.run_bind_ok makes _)
    rw [step, Function.iterate_one]
    cases writes : (Access.write (compiler.outputOf path) (Stamp.write (compiler.key source) result.code) :
      Access σ Unit).run placed with
    | mk wrote after =>
    have stored : (compiler.store true path source result.code).run storage = (wrote, after) :=
      (Access.run_bind_ok makes _).trans writes
    cases wrote with
    | error failure => rw [advance_of_error (Access.run_bind_error writes _), Access.run_bind_error stored]
    | ok => rw [advance_of_ok (Access.run_bind_ok writes _), Access.run_bind_ok stored]; rfl

/-- A source without a result that may be taken is compiled, and the result is written. -/
theorem iterate_advance_fresh {source : String} {storage : σ}
    (fresh : (if compiler.reuses then compiler.stored? path source storage else none) = none) :
    (compiler.advance path)^[3] (.sourced source, storage) =
      (.done ((compiler.compileAnew true path source).run storage).1,
        ((compiler.compileAnew true path source).run storage).2) := by
  rw [Function.iterate_succ_apply]
  cases compiled : (compiler.compile path source).result with
  | error failure =>
    have step : compiler.advance path (.sourced source, storage) = (.done (.error (.compilation failure)), storage) := by
      refine advance_of_error ?_
      unfold step
      rw [Access.run_bind_ok Access.run_get, fresh, compiled]
      rfl
    rw [step, iterate_advance_done, run_failed compiled]
  | ok result =>
    have step : compiler.advance path (.sourced source, storage) =
        (if compiler.options.writeToDisk then .compiled source result else .done (.ok result), storage) := by
      refine advance_of_ok ?_
      unfold step
      rw [Access.run_bind_ok Access.run_get, fresh, compiled]
      rfl
    rw [step]
    unfold compileAnew
    rw [compiled]
    by_cases writes : compiler.options.writeToDisk = true
    · simp only [if_pos writes]
      exact iterate_advance_compiled source result storage
    · simp only [if_neg writes]
      exact iterate_advance_done ..

/-- What comes after the source was read is what is left of the compilation. -/
theorem iterate_advance_sourced {source : String} {storage : σ} (there : Storage.read path storage = .ok source) :
    (compiler.advance path)^[3] (.sourced source, storage) =
      (.done ((compiler.compileFile path).run storage).1, ((compiler.compileFile path).run storage).2) := by
  unfold compileFile
  cases usable : if compiler.reuses then compiler.stored? path source storage else none with
  | some code =>
    have reuses : compiler.reuses = true := by
      by_contra unused
      rw [if_neg unused] at usable
      cases usable
    have stored : compiler.stored? path source storage = some code := by rwa [if_pos reuses] at usable
    have step : compiler.advance path (.sourced source, storage) =
        (.done (.ok (CodeModule.stored path code)), storage) := by
      refine advance_of_ok ?_
      unfold step
      rw [Access.run_bind_ok Access.run_get, usable]
      rfl
    rw [Function.iterate_succ_apply, step, iterate_advance_done, run_stored there reuses stored]
  | none =>
    rw [iterate_advance_fresh usable, run_renewed there fun reuses => by rwa [if_pos reuses] at usable]

/-- On its own, a task comes to what the compilation comes to. -/
theorem iterate_advance_start (storage : σ) :
    (compiler.advance path)^[4] (.start, storage) =
      (.done ((compiler.compileFile path).run storage).1, ((compiler.compileFile path).run storage).2) := by
  rw [Function.iterate_succ_apply]
  cases there : Storage.read path storage with
  | error cause =>
    have step : compiler.advance path (.start, storage) = (.done (.error (.access { cause, path })), storage) :=
      advance_of_error (Access.run_bind_error (Access.run_read_error there) _)
    unfold compileFile
    rw [step, iterate_advance_done, run_missing there]
  | ok source =>
    have step : compiler.advance path (.start, storage) = (.sourced source, storage) :=
      advance_of_ok (Access.run_bind_ok (Access.run_read there) _)
    rw [step, iterate_advance_sourced there]

/-- A task that is done stays as it is, and so does the storage. -/
theorem iterate_advance_of_le {count more : Nat} {result : Except FileFailure CodeModule} {state : Stage × σ} {after : σ}
    (done : (compiler.advance path)^[count] state = (.done result, after)) (le : count ≤ more) :
    (compiler.advance path)^[more] state = (.done result, after) := by
  obtain ⟨rest, rfl⟩ := Nat.exists_eq_add_of_le' le
  rw [Function.iterate_add_apply, done, iterate_advance_done]

end Alone

end Compiler

/-! ## What a task looks at -/

section Locality

variable {σ File α β : Type} [Storage σ]

/-- Are the files of a template and of its output the same in two storages? -/
structure Storage.Separation.Near (separation : Storage.Separation σ File) (input output : String) (first second : σ) :
    Prop where
  input : separation.file input first = separation.file input second
  output : separation.file output first = separation.file output second

/-- Steps that look at two files and change one of them. -/
structure Access.Local (separation : Storage.Separation σ File) (input output : String) (work : Access σ α) : Prop where
  agree : ∀ {first second}, separation.Near input output first second →
    (work.run first).1 = (work.run second).1 ∧ separation.Near input output (work.run first).2 (work.run second).2
  keeps : ∀ {other} storage, other ≠ output → separation.file other (work.run storage).2 = separation.file other storage

namespace Access.Local

variable {separation : Storage.Separation σ File} {input output : String}

theorem pure (value : α) : Local separation input output (Pure.pure value) :=
  ⟨fun near => ⟨rfl, near⟩, fun _ _ => rfl⟩

theorem throw (failure : FileFailure) : Local separation input output (MonadExcept.throw failure : Access σ α) :=
  ⟨fun near => ⟨rfl, near⟩, fun _ _ => rfl⟩

/-- What comes after the storage was looked at may depend on the two files. -/
theorem get {next : σ → Access σ β}
    (same : ∀ {first second}, separation.Near input output first second → next first = next second)
    (each : ∀ storage, Local separation input output (next storage)) :
    Local separation input output (MonadState.get >>= next) where
  agree {first second} near := by
    rw [Access.run_bind_ok Access.run_get, Access.run_bind_ok Access.run_get, same near]
    exact (each second).agree near
  keeps storage differs := by
    rw [Access.run_bind_ok Access.run_get]
    exact (each storage).keeps storage differs

theorem bind {work : Access σ α} {next : α → Access σ β} (first : Local separation input output work)
    (each : ∀ value, Local separation input output (next value)) : Local separation input output (work >>= next) where
  agree {left right} near := by
    have agree := first.agree near
    cases ran : work.run left with
    | mk made after =>
    cases other : work.run right with
    | mk made' after' =>
    rw [ran, other] at agree
    obtain ⟨rfl : made = made', nearer⟩ := agree
    cases made with
    | error =>
      rw [Access.run_bind_error ran, Access.run_bind_error other]
      exact ⟨rfl, nearer⟩
    | ok value =>
      rw [Access.run_bind_ok ran, Access.run_bind_ok other]
      exact (each value).agree nearer
  keeps {name} storage differs := by
    have kept := first.keeps storage differs
    cases ran : work.run storage with
    | mk made after =>
    rw [ran] at kept
    cases made with
    | error => rwa [Access.run_bind_error ran]
    | ok value =>
      rw [Access.run_bind_ok ran]
      exact ((each value).keeps after differs).trans kept

theorem read : Local separation input output (Access.read input) := by
  refine get ?_ fun storage => ?_
  · intro first second near
    rw [separation.read_eq, separation.read_eq, near.input]
  · split
    · exact pure _
    · exact throw _

theorem write (text : String) : Local separation input output (Access.write output text) where
  agree {first second} near := by
    unfold Access.write
    rw [Access.run_change_eq, Access.run_change_eq]
    refine ⟨?_, ?_, ?_⟩
    · simp only [separation.write_eq, near.output]
    · by_cases same : input = output
      · subst same
        simp only [separation.file_write, near.input]
      · simp only [separation.file_write_of_ne same, near.input]
    · simp only [separation.file_write, near.output]
  keeps storage differs := by
    unfold Access.write
    rw [Access.run_change_eq]
    exact separation.file_write_of_ne differs text storage

theorem makeParent (path : String) : Local separation input output (Access.makeParent path) := by
  unfold Access.makeParent
  split
  · exact pure _
  split
  · exact pure _
  constructor
  · intro first second near
    rw [Access.run_change_eq, Access.run_change_eq]
    refine ⟨?_, ?_, ?_⟩
    · simp only [separation.makeDirectories_eq]
    · simp only [separation.file_makeDirectories, near.input]
    · simp only [separation.file_makeDirectories, near.output]
  · intro other storage _
    rw [Access.run_change_eq]
    exact separation.file_makeDirectories ..

end Access.Local

namespace Compiler

variable {compiler : Compiler} {path : String} {separation : Storage.Separation σ File}

theorem stored?_eq_of_near {first second : σ} (near : separation.Near path (compiler.outputOf path) first second)
    (source : String) : compiler.stored? path source first = compiler.stored? path source second := by
  unfold stored?
  rw [separation.read_eq, separation.read_eq, near.output]

/-- A step looks at the file of the template and at the file of its output, and changes the latter only. -/
theorem local_step (compiler : Compiler) (path : String) (stage : Stage) :
    Access.Local separation path (compiler.outputOf path) (compiler.step path stage) := by
  cases stage with
  | start => exact .bind .read fun _ => .pure _
  | sourced source =>
    refine .get ?_ fun storage => ?_
    · intro first second near
      rw [stored?_eq_of_near near]
    · split
      · exact .pure _
      split
      · exact .throw _
      · exact .pure _
  | compiled source result => exact .bind (.makeParent _) fun _ => .pure _
  | placed source result => exact .bind (.write _) fun _ => .pure _
  | done result => exact .pure _

theorem advance_agree (first second : Stage × σ) (same : first.1 = second.1)
    (near : separation.Near path (compiler.outputOf path) first.2 second.2) :
    (compiler.advance path first).1 = (compiler.advance path second).1 ∧
      separation.Near path (compiler.outputOf path) (compiler.advance path first).2
        (compiler.advance path second).2 := by
  have agree := (local_step compiler path first.1).agree near
  unfold advance
  rw [← same]
  exact ⟨congrArg Stage.ofResult agree.1, agree.2⟩

theorem advance_keeps (separation : Storage.Separation σ File) (state : Stage × σ) {other : String}
    (differs : other ≠ compiler.outputOf path) :
    separation.file other (compiler.advance path state).2 = separation.file other state.2 :=
  (local_step compiler path state.1).keeps state.2 differs

/-- A compilation looks at the file of the template and at the file of its output, and changes the latter only. -/
theorem local_compileFile (compiler : Compiler) (separation : Storage.Separation σ File) (path : String) :
    Access.Local separation path (compiler.outputOf path) (compiler.compileFile path) where
  agree {first second} near := by
    have agree (count : Nat) :
        ((compiler.advance path)^[count] (.start, first)).1 = ((compiler.advance path)^[count] (.start, second)).1 ∧
          separation.Near path (compiler.outputOf path) ((compiler.advance path)^[count] (.start, first)).2
            ((compiler.advance path)^[count] (.start, second)).2 := by
      induction count with
      | zero => exact ⟨rfl, near⟩
      | succ count ih =>
        simp only [Function.iterate_succ_apply']
        exact advance_agree _ _ ih.1 ih.2
    simpa only [iterate_advance_start, Stage.done.injEq] using agree 4
  keeps {other} storage differs := by
    have keeps (count : Nat) : separation.file other ((compiler.advance path)^[count] (.start, storage)).2 =
        separation.file other storage := by
      induction count with
      | zero => rfl
      | succ count ih =>
        rw [Function.iterate_succ_apply', advance_keeps separation _ differs, ih]
    simpa only [iterate_advance_start] using keeps 4

/-! ## Tasks together -/

/-- No two of some templates are the same, and none is the output of another. -/
structure Apart (compiler : Compiler) (paths : List String) : Prop where
  distinct : paths.Nodup
  isNoOutput : ∀ path ∈ paths, ∀ other ∈ paths, path ≠ other → compiler.outputOf path ≠ other

variable {paths : List String}

/-- What is not the output of a template stays the same for another one while the template is compiled. -/
theorem Apart.near (apart : compiler.Apart paths) (separation : Storage.Separation σ File) {other : String}
    (template : path ∈ paths) (others : other ∈ paths)
    (differs : other ≠ path) {before after : σ}
    (kept : ∀ name, name ≠ compiler.outputOf path → separation.file name after = separation.file name before) :
    separation.Near other (compiler.outputOf other) after before where
  input := kept other (apart.isNoOutput path template other others differs.symm).symm
  output := kept _ fun same => differs (compiler.outputOf_injective same)

/-- What compiling some templates does for each of them is what compiling that one does, and nothing else is done. -/
theorem compileFiles_eq (separation : Storage.Separation σ File) (apart : compiler.Apart paths) (storage : σ) :
    (compiler.compileFiles paths storage).1 = paths.map (fun path => ((compiler.compileFile path).run storage).1) ∧
      (∀ path ∈ paths, separation.file (compiler.outputOf path) (compiler.compileFiles paths storage).2 =
        separation.file (compiler.outputOf path) ((compiler.compileFile path).run storage).2) ∧
      ∀ other, (∀ path ∈ paths, other ≠ compiler.outputOf path) →
        separation.file other (compiler.compileFiles paths storage).2 = separation.file other storage := by
  induction paths generalizing storage with
  | nil => exact ⟨rfl, by simp, fun _ _ => rfl⟩
  | cons path paths ih =>
    obtain ⟨fresh, distinct⟩ := List.nodup_cons.1 apart.distinct
    have others : compiler.Apart paths := ⟨distinct, fun template member other isOther =>
      apart.isNoOutput template (List.mem_cons_of_mem _ member) other (List.mem_cons_of_mem _ isOther)⟩
    have here := local_compileFile compiler separation path
    obtain ⟨results, outputs, keeps⟩ := ih others ((compiler.compileFile path).run storage).2
    have agree (other : String) (member : other ∈ paths) :=
      (local_compileFile compiler separation other).agree
        (apart.near separation List.mem_cons_self (List.mem_cons_of_mem _ member)
          (ne_of_mem_of_not_mem member fresh) fun name differs => here.keeps storage differs)
    refine ⟨?_, ?_, ?_⟩
    · refine congrArg (((compiler.compileFile path).run storage).1 :: ·) (results.trans ?_)
      exact List.map_congr_left fun other member => (agree other member).1
    · refine List.forall_mem_cons.2 ⟨?_, fun other member => ?_⟩
      · exact keeps _ fun other member same =>
          ne_of_mem_of_not_mem member fresh (compiler.outputOf_injective same).symm
      · exact (outputs other member).trans (agree other member).2.output
    · intro other differs
      obtain ⟨first, rest⟩ := List.forall_mem_cons.1 differs
      exact (keeps other rest).trans (here.keeps storage first)

/-- Each task has come as far as it would have come on its own. -/
structure Tasks.Follows (compiler : Compiler) (separation : Storage.Separation σ File) (storage : σ)
    (tasks : Tasks σ paths) (count : Fin paths.length → Nat) : Prop where
  alone : ∀ index, ∃ alone,
    (compiler.advance paths[index])^[count index] (.start, storage) = (tasks.stage index, alone) ∧
      separation.Near paths[index] (compiler.outputOf paths[index]) alone tasks.storage
  keeps : ∀ other, (∀ path ∈ paths, other ≠ compiler.outputOf path) →
    separation.file other tasks.storage = separation.file other storage

theorem Tasks.follows_start (compiler : Compiler) (separation : Storage.Separation σ File) (paths : List String)
    (storage : σ) : (Tasks.start paths storage).Follows compiler separation storage fun _ => 0 :=
  ⟨fun _ => ⟨storage, rfl, rfl, rfl⟩, fun _ _ => rfl⟩

theorem Tasks.Follows.turn {storage : σ} {tasks : Tasks σ paths} {count : Fin paths.length → Nat}
    (follows : tasks.Follows compiler separation storage count) (apart : compiler.Apart paths)
    (index : Fin paths.length) :
    (compiler.turn tasks index).Follows compiler separation storage (Function.update count index (count index + 1)) := by
  have kept (name : String) (differs : name ≠ compiler.outputOf paths[index]) :
      separation.file name (compiler.turn tasks index).storage = separation.file name tasks.storage :=
    advance_keeps separation (tasks.stage index, tasks.storage) differs
  constructor
  · intro other
    obtain ⟨alone, comes, near⟩ := follows.alone other
    by_cases same : other = index
    · subst same
      have agree := advance_agree (tasks.stage other, alone) (tasks.stage other, tasks.storage) rfl near
      refine ⟨(compiler.advance paths[other] (tasks.stage other, alone)).2, ?_, agree.2⟩
      rw [Function.update_self, Function.iterate_succ_apply', comes]
      exact Prod.ext (agree.1.trans (stage_turn_self compiler tasks other).symm) rfl
    · refine ⟨alone, ?_, ?_⟩
      · rw [Function.update_of_ne same, comes]
        exact Prod.ext (stage_turn_of_ne compiler tasks same).symm rfl
      · have differs : paths[other] ≠ paths[index] := fun equal =>
          same (Fin.ext ((List.Nodup.getElem_inj_iff apart.distinct).1 equal))
        have still := apart.near separation (List.getElem_mem index.isLt) (List.getElem_mem other.isLt) differs kept
        exact ⟨near.input.trans still.input.symm, near.output.trans still.output.symm⟩
  · intro other differs
    exact (kept other (differs _ (List.getElem_mem index.isLt))).trans (follows.keeps other differs)

theorem Tasks.follows_interleave (apart : compiler.Apart paths) (storage : σ) (schedule : List (Fin paths.length)) :
    (compiler.interleave (Tasks.start paths storage) schedule).Follows compiler separation storage schedule.count := by
  induction schedule using List.reverseRecOn with
  | nil => exact Tasks.follows_start compiler separation paths storage
  | append_singleton schedule index ih =>
    have counts : Function.update schedule.count index (schedule.count index + 1) = (schedule ++ [index]).count := by
      funext other
      by_cases same : other = index
      · subst same
        rw [Function.update_self, List.count_append, List.count_singleton_self]
      · rw [Function.update_of_ne same, List.count_append, List.count_singleton, if_neg (by simpa using Ne.symm same)]
        rfl
    rw [← counts]
    unfold interleave
    rw [List.foldl_append]
    exact ih.turn apart index

/-- Is every task done? -/
def Tasks.Finished (tasks : Tasks σ paths) : Prop :=
  ∀ index, ∃ result, tasks.stage index = .done result

/-- A task that is done has come to what the compilation of its template alone comes to. -/
theorem Tasks.Follows.done {storage : σ} {tasks : Tasks σ paths} {count : Fin paths.length → Nat}
    (follows : tasks.Follows compiler separation storage count) {index : Fin paths.length}
    {result : Except FileFailure CodeModule} (done : tasks.stage index = .done result) :
    result = ((compiler.compileFile paths[index]).run storage).1 ∧
      separation.file (compiler.outputOf paths[index]) tasks.storage =
        separation.file (compiler.outputOf paths[index]) ((compiler.compileFile paths[index]).run storage).2 := by
  obtain ⟨alone, comes, near⟩ := follows.alone index
  rw [done] at comes
  have long := iterate_advance_of_le comes (Nat.le_max_left _ 4)
  rw [iterate_advance_of_le (iterate_advance_start storage) (Nat.le_max_right _ 4)] at long
  cases long
  exact ⟨rfl, near.output.symm⟩

/-- Four steps are enough for each task. -/
theorem Tasks.Follows.finished {storage : σ} {tasks : Tasks σ paths} {count : Fin paths.length → Nat}
    (follows : tasks.Follows compiler separation storage count) (enough : ∀ index, 4 ≤ count index) :
    tasks.Finished := by
  intro index
  obtain ⟨alone, comes, -⟩ := follows.alone index
  rw [iterate_advance_of_le (iterate_advance_start storage) (enough index)] at comes
  exact ⟨_, (congrArg Prod.fst comes).symm⟩

/-- If distinct paths name distinct files and no template is the output of another, it does not matter in which order
the steps of several compilations come. Each task is done when it had its steps. When all are, each has come to the
result of compiling its template alone, which is also what compiling the templates one after the other gives, and
every file is as it is then. -/
theorem compileFiles_interleaved (compiler : Compiler) (separation : Storage.Separation σ File)
    (paths : List String) (distinct : paths.Nodup)
    (apart : ∀ path ∈ paths, ∀ other ∈ paths, path ≠ other → compiler.outputOf path ≠ other) (storage : σ)
    (schedule : List (Fin paths.length)) :
    let tasks := compiler.interleave (Tasks.start paths storage) schedule
    let inOrder := compiler.compileFiles paths storage
    inOrder.1 = paths.map (fun path => ((compiler.compileFile path).run storage).1) ∧
      ((∀ index, 4 ≤ schedule.count index) → tasks.Finished) ∧
      (tasks.Finished → List.ofFn tasks.stage = inOrder.1.map Stage.done ∧
        ∀ path, separation.file path tasks.storage = separation.file path inOrder.2) := by
  intro tasks inOrder
  have apart : compiler.Apart paths := ⟨distinct, apart⟩
  have follows : tasks.Follows compiler separation storage schedule.count := Tasks.follows_interleave apart storage schedule
  obtain ⟨results, outputs, keeps⟩ := compileFiles_eq separation apart storage
  refine ⟨results, follows.finished, fun finished => ⟨?_, fun path => ?_⟩⟩
  · rw [results]
    refine List.ext_getElem (by simp) fun index inside _ => ?_
    rw [List.length_ofFn] at inside
    obtain ⟨result, done⟩ := finished ⟨index, inside⟩
    rw [List.getElem_ofFn, List.getElem_map, List.getElem_map, done]
    exact congrArg Stage.done (follows.done done).1
  · by_cases output : ∃ template ∈ paths, path = compiler.outputOf template
    · obtain ⟨template, member, rfl⟩ := output
      obtain ⟨index, inside, rfl⟩ := List.getElem_of_mem member
      obtain ⟨result, done⟩ := finished ⟨index, inside⟩
      exact (follows.done done).2.trans (outputs _ member).symm
    · have other : ∀ template ∈ paths, path ≠ compiler.outputOf template :=
        fun template member same => output ⟨template, member, same⟩
      exact (follows.keeps path other).trans (keeps path other).symm

/-- One of these templates is missing. -/
theorem compileFiles_interleaved_three :
    let compiler : Compiler := { registry := {}, options := { preserveWhitespace := .everywhere true }, fuel := 20 }
    let paths := ["one.html", "two.html", "three.html"]
    let files : Files := ⟨fun path => if path = "one.html" then some "1" else if path = "two.html" then some "2" else none⟩
    let schedule : List (Fin 3) := [1, 0, 2, 0, 1, 1, 2, 0, 2, 1, 2, 0]
    let tasks := compiler.interleave (Tasks.start paths files) schedule
    let inOrder := compiler.compileFiles paths files
    inOrder.1.map (·.isOk) = [true, true, false] ∧ tasks.Finished ∧
      List.ofFn tasks.stage = inOrder.1.map Stage.done ∧
      ∀ path, Files.separation.file path tasks.storage = Files.separation.file path inOrder.2 := by
  intro compiler paths files schedule
  have interleaved := compileFiles_interleaved compiler Files.separation paths
    (by decide) (by decide) files schedule
  dsimp only at interleaved ⊢
  have finished := interleaved.2.1 (by decide)
  exact ⟨by decide +kernel, finished, interleaved.2.2 finished⟩

end Compiler

end Locality

end HtmlTemplate
