import HtmlTemplate.Proofs.Storage.Stamp
import HtmlTemplate.Proofs.Tree.Success
import Mathlib.Data.List.Basic
import Mathlib.Data.Set.Basic

/-!
# Stored output is never stale

Templates are edited and compiled in any order. What is stored next to a template is the output of some
source that the template once had, under the key of that source (`Intact`). As keys tell sources apart, a
compilation that uses stored output gives what it would give without: it gives its code back under the key that
it was stamped with, and under no other one.
-/

namespace HtmlTemplate

/-! ## Files as a map -/

/-- The texts of files by their paths. There are no directories, and every path can be written to. -/
structure Files where
  text? : String → Option String

namespace Files

/-- The files with another text in one of them, or with one of them removed. -/
def put (files : Files) (path : String) (text? : Option String) : Files :=
  { text? := fun other => if other = path then text? else files.text? other }

@[simp]
theorem text?_put_self (files : Files) (path : String) (text? : Option String) :
    (files.put path text?).text? path = text? := by
  simp [put]

theorem text?_put_of_ne (files : Files) {path other : String} (differs : other ≠ path) (text? : Option String) :
    (files.put path text?).text? other = files.text? other := by
  simp [put, differs]

instance : Storage Files where
  read path files :=
    match files.text? path with
    | some text => .ok text
    | none => .error .notFound
  write path text files := (.ok (), files.put path (some text))
  makeDirectories _ files := (.ok (), files)

theorem read_eq (files : Files) (path : String) :
    Storage.read path files =
      match files.text? path with
      | some text => Except.ok text
      | none => Except.error AccessCause.notFound :=
  rfl

end Files

/-- Something that happens to a template: its file is given a text or removed, or it is compiled. -/
inductive TemplateEvent
  | edit (path : String) (text? : Option String)
  | compile (path : String)

/-- The path of the template that something happens to. -/
def TemplateEvent.path : TemplateEvent → String
  | edit path _ => path
  | compile path => path

/-! ## Compiling the template in a file -/

namespace CodeModule

theorem fromCache_of_generate {tree : Tree} {choices : Preservation} {root : NodeId} {result : CodeModule}
    (generated : generate tree choices root = .ok result) : result.fromCache = false := by
  obtain ⟨_, _, made⟩ := bind_eq_ok_iff.1 generated
  cases made
  rfl

end CodeModule

namespace Compilation

/-- A module that a compilation gives was not in the storage. -/
theorem fromCache_of_run {registry : Registry} {options : Options} {fuel : Nat} {file source : String}
    {result : CodeModule} (compiled : (run registry options fuel file source).result = .ok result) :
    result.fromCache = false := by
  unfold run at compiled
  split at compiled
  · cases compiled
  unfold ofTree at compiled
  dsimp only at compiled
  split at compiled
  · cases compiled
  obtain ⟨_, _, finished⟩ := bind_eq_ok_iff.1 (mapError_eq_ok_iff.1 compiled)
  obtain ⟨generated, made, done⟩ := bind_eq_ok_iff.1 finished
  cases done
  exact (CodeModule.fromCache_of_generate made : generated.fromCache = false)

end Compilation

namespace Access

variable {σ α β : Type} {before middle : σ}

theorem run_get : (get : Access σ σ).run before = (.ok before, before) :=
  rfl

theorem run_bind_ok {work : Access σ α} {value : α} (done : work.run before = (.ok value, middle))
    (next : α → Access σ β) : (work >>= next).run before = (next value).run middle := by
  show ExceptT.bindCont next (work.run before).1 (work.run before).2 = _
  rw [done]
  rfl

theorem run_bind_error {work : Access σ α} {failure : FileFailure}
    (failed : work.run before = (.error failure, middle)) (next : α → Access σ β) :
    (work >>= next).run before = (.error failure, middle) := by
  show ExceptT.bindCont next (work.run before).1 (work.run before).2 = _
  rw [failed]
  rfl

theorem run_bind_congr {first second : Access σ α} (same : first.run before = second.run middle)
    (next : α → Access σ β) : (first >>= next).run before = (second >>= next).run middle := by
  change ExceptT.bindCont next (first.run before).1 (first.run before).2 = _
  rw [same]
  rfl

theorem run_change_eq (path : String) (work : σ → Except AccessCause Unit × σ) :
    (change path work).run before =
      ((work before).1.mapError fun cause => FileFailure.access { cause, path }, (work before).2) := by
  unfold change
  rw [run_bind_ok run_get]
  generalize work before = outcome
  obtain ⟨result, storage⟩ := outcome
  cases result with
  | ok => rfl
  | error => rfl

variable [Storage σ] {path : String}

theorem run_read {text : String} (there : Storage.read path before = .ok text) :
    (read path : Access σ String).run before = (.ok text, before) := by
  unfold read
  rw [run_bind_ok run_get, there]
  rfl

theorem run_read_error {cause : AccessCause} (missing : Storage.read path before = .error cause) :
    (read path : Access σ String).run before = (.error (.access { cause, path }), before) := by
  unfold read
  rw [run_bind_ok run_get, missing]
  rfl

/-- What is done to files succeeds. -/
theorem run_change {files after : Files} {work : Files → Except AccessCause Unit × Files}
    (works : work files = (.ok (), after)) : (change path work).run files = (.ok (), after) := by
  rw [run_change_eq, works]
  rfl

theorem run_write (files : Files) (text : String) :
    (write path text : Access Files Unit).run files = (.ok (), files.put path (some text)) :=
  run_change rfl

theorem run_makeParent (files : Files) : (makeParent path : Access Files Unit).run files = (.ok (), files) := by
  unfold makeParent
  split
  · rfl
  split
  · rfl
  · exact run_change rfl

end Access

namespace Compiler

variable {compiler : Compiler} {path source : String}

/-! A compilation of the template in a file, by what it finds. -/

section Outcomes

variable {σ : Type} [Storage σ] {storage : σ} {makesDirectory : Bool}

theorem run_missing {cause : AccessCause} (missing : Storage.read path storage = .error cause) :
    (compiler.compileStored makesDirectory path).run storage = (.error (.access { cause, path }), storage) :=
  Access.run_bind_error (Access.run_read_error missing) _

theorem run_stored {code : String} (there : Storage.read path storage = .ok source)
    (reuses : compiler.reuses = true) (stored : compiler.stored? path source storage = some code) :
    (compiler.compileStored makesDirectory path).run storage = (.ok (CodeModule.stored path code), storage) := by
  unfold compileStored
  rw [Access.run_bind_ok (Access.run_read there), Access.run_bind_ok Access.run_get, if_pos reuses, stored]
  rfl

theorem run_renewed (there : Storage.read path storage = .ok source)
    (fresh : compiler.reuses = true → compiler.stored? path source storage = none) :
    (compiler.compileStored makesDirectory path).run storage =
      (compiler.compileAnew makesDirectory path source).run storage := by
  unfold compileStored
  rw [Access.run_bind_ok (Access.run_read there), Access.run_bind_ok Access.run_get]
  by_cases reuses : compiler.reuses = true
  · rw [if_pos reuses, fresh reuses]
  · rw [if_neg reuses]

theorem run_anew (there : Storage.read path storage = .ok source)
    (absent : compiler.stored? path source storage = none) :
    (compiler.compileStored makesDirectory path).run storage =
      (compiler.compileAnew makesDirectory path source).run storage :=
  run_renewed there fun _ => absent

theorem run_failed {failure : Failure} (failed : (compiler.compile path source).result = .error failure) :
    (compiler.compileAnew makesDirectory path source).run storage = (.error (.compilation failure), storage) := by
  unfold compileAnew
  rw [failed]
  rfl

end Outcomes

theorem run_store (files : Files) (makesDirectory : Bool) (code : String) :
    (compiler.store makesDirectory path source code).run files =
      (.ok (), files.put (compiler.outputOf path) (some (Stamp.write (compiler.key source) code))) := by
  unfold store
  cases makesDirectory with
  | false => exact Access.run_write files _
  | true =>
    rw [if_pos rfl, Access.run_bind_ok (Access.run_makeParent files)]
    exact Access.run_write files _

theorem run_compiled {files : Files} {makesDirectory : Bool} {result : CodeModule}
    (reuses : compiler.reuses = true) (compiled : (compiler.compile path source).result = .ok result) :
    (compiler.compileAnew makesDirectory path source).run files =
      (.ok result, files.put (compiler.outputOf path) (some (Stamp.write (compiler.key source) result.code))) := by
  have writes : compiler.options.writeToDisk = true := by
    simp only [Compiler.reuses, Bool.and_eq_true] at reuses
    exact reuses.1
  unfold compileAnew
  rw [compiled]
  dsimp only
  rw [if_pos writes, Access.run_bind_ok (run_store files makesDirectory result.code)]
  rfl

/-! ## Keys tell sources apart -/

/-- The digest has no collisions, and what it gives is a text of one line. -/
structure HasFaithfulDigest (compiler : Compiler) : Prop where
  injective : Function.Injective compiler.digest
  oneLine : ∀ bytes, '\n' ∉ (compiler.digest bytes).toList

theorem HasFaithfulDigest.key_injective (faithful : compiler.HasFaithfulDigest) :
    Function.Injective compiler.key := by
  intro first second equal
  have material := faithful.injective equal
  unfold keyMaterial at material
  iterate 4 replace material := List.append_cancel_right material
  exact Digest.textBytes_injective material

theorem HasFaithfulDigest.key_oneLine (faithful : compiler.HasFaithfulDigest) (source : String) :
    '\n' ∉ (compiler.key source).toList :=
  faithful.oneLine _

theorem outputOf_injective (compiler : Compiler) : Function.Injective compiler.outputOf :=
  fun _ _ equal => (String.append_left_inj compiler.options.compiledSuffix).1 equal

/-! ## What is stored -/

/-- What is stored for a template, if anything, is the output of some source under the key of the source. -/
def Intact (compiler : Compiler) (templates : Set String) (files : Files) : Prop :=
  ∀ path ∈ templates, ∀ text, files.text? (compiler.outputOf path) = some text →
    ∃ source result, (compiler.compile path source).result = .ok result ∧
      text = Stamp.write (compiler.key source) result.code

variable {templates : Set String} {files : Files}

/-- Stored output that is used is what a compilation gives. -/
theorem Intact.compiles (intact : compiler.Intact templates files) (faithful : compiler.HasFaithfulDigest)
    (template : path ∈ templates) {code : String} (stored : compiler.stored? path source files = some code) :
    ∃ result, (compiler.compile path source).result = .ok result ∧ code = result.code := by
  unfold stored? at stored
  rw [Files.read_eq] at stored
  cases there : files.text? (compiler.outputOf path) with
  | none => simp [there] at stored
  | some text =>
    obtain ⟨earlier, result, compiled, rfl⟩ := intact path template text there
    have known : compiler.key earlier = compiler.key source ∧ result.code = code := by
      simpa [there, Stamp.read?_write (faithful.key_oneLine earlier)] using stored
    obtain rfl := faithful.key_injective known.1
    exact ⟨result, compiled, known.2.symm⟩

/-- What compiling the template in a file comes to, and the files after it. -/
inductive Outcome (compiler : Compiler) (files : Files) (path : String) : Except FileFailure CodeModule → Files → Prop
  | missing (missing : files.text? path = none) :
      Outcome compiler files path (.error (.access { cause := .notFound, path })) files
  | reused {source : String} {result : CodeModule} (there : files.text? path = some source)
      (stored : compiler.stored? path source files = some result.code)
      (compiled : (compiler.compile path source).result = .ok result) :
      Outcome compiler files path (.ok (CodeModule.stored path result.code)) files
  | failed {source : String} {failure : Failure} (there : files.text? path = some source)
      (absent : compiler.stored? path source files = none)
      (failed : (compiler.compile path source).result = .error failure) :
      Outcome compiler files path (.error (.compilation failure)) files
  | anew {source : String} {result : CodeModule} (there : files.text? path = some source)
      (absent : compiler.stored? path source files = none)
      (compiled : (compiler.compile path source).result = .ok result) :
      Outcome compiler files path (.ok result)
        (files.put (compiler.outputOf path) (some (Stamp.write (compiler.key source) result.code)))

theorem Intact.outcome (intact : compiler.Intact templates files) (faithful : compiler.HasFaithfulDigest)
    (reuses : compiler.reuses = true) (template : path ∈ templates) :
    compiler.Outcome files path ((compiler.compileFile path).run files).1 ((compiler.compileFile path).run files).2 := by
  unfold compileFile
  cases there : files.text? path with
  | none =>
    have read : Storage.read path files = .error AccessCause.notFound := by rw [Files.read_eq, there]
    rw [run_missing read]
    exact .missing there
  | some source =>
    have read : Storage.read path files = .ok source := by rw [Files.read_eq, there]
    cases stored : compiler.stored? path source files with
    | some code =>
      obtain ⟨result, compiled, rfl⟩ := intact.compiles faithful template stored
      rw [run_stored read reuses stored]
      exact .reused there stored compiled
    | none =>
      rw [run_anew read stored]
      cases compiled : (compiler.compile path source).result with
      | error failure =>
        rw [run_failed compiled]
        exact .failed there stored compiled
      | ok result =>
        rw [run_compiled reuses compiled]
        exact .anew there stored compiled

/-- A result is what a compilation of the text in the file gives. -/
theorem Outcome.compiles {result : CodeModule} {later : Files} (outcome : compiler.Outcome files path (.ok result) later) :
    ∃ source current, files.text? path = some source ∧ (compiler.compile path source).result = .ok current ∧
      result.code = current.code := by
  cases outcome with
  | reused there _ compiled => exact ⟨_, _, there, compiled, rfl⟩
  | anew there _ compiled => exact ⟨_, _, there, compiled, rfl⟩

/-- Stored output is used if and only if it is up to date. -/
theorem Outcome.isUpToDate_iff {result : Except FileFailure CodeModule} {later : Files}
    (outcome : compiler.Outcome files path result later) :
    compiler.isUpToDate path files = true ↔ ∃ stored, result = .ok stored ∧ stored.fromCache = true := by
  unfold isUpToDate
  rw [Files.read_eq]
  cases outcome with
  | missing missing => simp [missing]
  | reused there stored _ => simp [there, stored, CodeModule.stored]
  | failed there absent _ => simp [there, absent]
  | anew there absent compiled => simp [there, absent, Compilation.fromCache_of_run compiled]

theorem Outcome.unchanged {failure : FileFailure} {later : Files}
    (outcome : compiler.Outcome files path (.error failure) later) : later = files := by
  cases outcome <;> rfl

/-- What is stored for one template does not lie where another one is stored, or where a template is. -/
theorem Intact.put_output (intact : compiler.Intact templates files) {result : CodeModule}
    (compiled : (compiler.compile path source).result = .ok result) :
    compiler.Intact templates
      (files.put (compiler.outputOf path) (some (Stamp.write (compiler.key source) result.code))) := by
  intro other template text there
  by_cases same : compiler.outputOf other = compiler.outputOf path
  · obtain rfl := compiler.outputOf_injective same
    rw [Files.text?_put_self] at there
    exact ⟨source, result, compiled, (Option.some.inj there).symm⟩
  · exact intact other template text ((Files.text?_put_of_ne files same _).symm.trans there)

theorem Outcome.intact {result : Except FileFailure CodeModule} {later : Files}
    (outcome : compiler.Outcome files path result later) (intact : compiler.Intact templates files) :
    compiler.Intact templates later := by
  cases outcome with
  | missing _ => exact intact
  | reused _ _ _ => exact intact
  | failed _ _ _ => exact intact
  | anew _ _ compiled => exact intact.put_output compiled

theorem Intact.edit (intact : compiler.Intact templates files)
    (apart : ∀ path ∈ templates, compiler.outputOf path ∉ templates) (template : path ∈ templates)
    (text? : Option String) : compiler.Intact templates (files.put path text?) := by
  intro other otherTemplate text there
  have differs : compiler.outputOf other ≠ path := by
    rintro rfl
    exact apart other otherTemplate template
  exact intact other otherTemplate text ((Files.text?_put_of_ne files differs text?).symm.trans there)

/-! ## Edits and compilations in any order -/

/-- The files after something happened. -/
def after (compiler : Compiler) (files : Files) : TemplateEvent → Files
  | .edit path text? => files.put path text?
  | .compile path => ((compiler.compileFile path).run files).2

/-- The files after some things happened, one after the other. -/
def afterAll (compiler : Compiler) (files : Files) (events : List TemplateEvent) : Files :=
  events.foldl compiler.after files

theorem Intact.after (intact : compiler.Intact templates files) (faithful : compiler.HasFaithfulDigest)
    (reuses : compiler.reuses = true) (apart : ∀ path ∈ templates, compiler.outputOf path ∉ templates)
    {event : TemplateEvent} (template : event.path ∈ templates) :
    compiler.Intact templates (compiler.after files event) := by
  cases event with
  | edit path text? => exact intact.edit apart template text?
  | compile path => exact (intact.outcome faithful reuses template).intact intact

theorem Intact.afterAll (intact : compiler.Intact templates files) (faithful : compiler.HasFaithfulDigest)
    (reuses : compiler.reuses = true) (apart : ∀ path ∈ templates, compiler.outputOf path ∉ templates)
    {events : List TemplateEvent} (within : ∀ event ∈ events, event.path ∈ templates) :
    compiler.Intact templates (compiler.afterAll files events) := by
  induction events generalizing files with
  | nil => exact intact
  | cons event events ih =>
    obtain ⟨template, others⟩ := List.forall_mem_cons.1 within
    exact ih (intact.after faithful reuses apart template) others

/-- Whatever happened to some templates since nothing was stored for them, a compiler that stores its output and
uses what is stored does not betray it: a result has the code that the text which the file holds now compiles to,
stored output is used if and only if it counts as up to date, and a failure leaves the files as they were. -/
theorem compileFile_transparent (faithful : compiler.HasFaithfulDigest) (reuses : compiler.reuses = true)
    (apart : ∀ path ∈ templates, compiler.outputOf path ∉ templates)
    (clean : ∀ path ∈ templates, files.text? (compiler.outputOf path) = none) {events : List TemplateEvent}
    (within : ∀ event ∈ events, event.path ∈ templates) (template : path ∈ templates) :
    let now := compiler.afterAll files events
    let outcome := (compiler.compileFile path).run now
    (∀ answer, outcome.1 = .ok answer →
      ∃ source current, now.text? path = some source ∧ (compiler.compile path source).result = .ok current ∧
        answer.code = current.code) ∧
    (compiler.isUpToDate path now = true ↔ ∃ answer, outcome.1 = .ok answer ∧ answer.fromCache = true) ∧
    ∀ failure, outcome.1 = .error failure → outcome.2 = now := by
  have intact : compiler.Intact templates files := by
    intro other otherTemplate text there
    simp [clean other otherTemplate] at there
  have comes := (intact.afterAll faithful reuses apart within).outcome faithful reuses template
  refine ⟨?_, comes.isUpToDate_iff, ?_⟩
  · intro answer ok
    exact (ok ▸ comes).compiles
  · intro failure failed
    exact (failed ▸ comes).unchanged

end Compiler

/-! Every digest collides somewhere. To try this, there is one that tells the digest of some bytes from a spelling of
all others. -/

namespace Digest

/-- The character that stands for a byte. -/
def byteCharacter (byte : UInt8) : Char :=
  Char.ofNat (0x100 + byte.toNat)

/-- The digest of some bytes; all others are spelled out behind a mark. -/
def only (known : List UInt8) (digest : String) (bytes : List UInt8) : String :=
  if bytes = known then digest else String.ofList ('x' :: bytes.map byteCharacter)

theorem toNat_byteCharacter (byte : UInt8) : (byteCharacter byte).toNat = 0x100 + byte.toNat := by
  have small := byte.toNat_lt
  have valid : (0x100 + byte.toNat).isValidChar := .inl (by omega)
  unfold byteCharacter Char.ofNat
  rw [dif_pos valid]
  rfl

theorem byteCharacter_injective : Function.Injective byteCharacter := by
  intro byte other same
  have numbers := congrArg Char.toNat same
  rw [toNat_byteCharacter, toNat_byteCharacter] at numbers
  exact UInt8.toNat_inj.1 (by omega)

variable {known : List UInt8} {digest : String}

theorem only_injective (unmarked : digest.toList.head? ≠ some 'x') : Function.Injective (only known digest) := by
  have differs : ∀ rest, digest ≠ String.ofList ('x' :: rest) := by
    rintro rest rfl
    exact unmarked (by rw [String.toList_ofList]; rfl)
  intro first second equal
  unfold only at equal
  split at equal <;> split at equal
  · rename_i isKnown otherIsKnown
    exact isKnown.trans otherIsKnown.symm
  · exact absurd equal (differs _)
  · exact absurd equal.symm (differs _)
  · exact List.map_injective_iff.2 byteCharacter_injective (List.cons.inj (String.ofList_injective equal)).2

theorem only_oneLine (oneLine : '\n' ∉ digest.toList) (bytes : List UInt8) :
    '\n' ∉ (only known digest bytes).toList := by
  intro member
  unfold only at member
  split at member
  · exact oneLine member
  · rw [String.toList_ofList] at member
    obtain ⟨byte, -, same⟩ := List.mem_map.1 (List.mem_of_ne_of_mem (by decide) member)
    have number := toNat_byteCharacter byte
    rw [same] at number
    have small : '\n'.toNat = 10 := rfl
    omega

end Digest

/-- An edit that is taken back costs no compilation. -/
theorem Compiler.compileFile_transparent_undone :
    let plain : Compiler := { registry := {}, options := { preserveWhitespace := .everywhere true }, fuel := 20 }
    let digest := "df319e0fc8216290fd2052c9c528e9db4a9df6c1b5c90f560edf2d6e8bcb567e"
    let compiler := { plain with digest := Digest.only (plain.keyMaterial "one") digest }
    let events : List TemplateEvent :=
      [.edit "page.html" (some "one"), .compile "page.html", .edit "page.html" (some "two"),
       .edit "page.html" (some "one")]
    let now := compiler.afterAll { text? := fun _ => none } events
    plain.key "one" = digest ∧
      ∃ answer, ((compiler.compileFile "page.html").run now).1 = .ok answer ∧ answer.fromCache = true := by
  intro plain digest compiler events now
  have faithful : compiler.HasFaithfulDigest :=
    ⟨Digest.only_injective (by decide), Digest.only_oneLine (by decide)⟩
  let templates : Set String := {"page.html"}
  have apart : ∀ path ∈ templates, compiler.outputOf path ∉ templates := by
    rintro path rfl
    exact fun (same : "page.html.js" = "page.html") => absurd same (by decide)
  have within : ∀ event ∈ events, event.path = "page.html" := by
    simp [events, TemplateEvent.path]
  have clean : ∀ path ∈ templates, (⟨fun _ => none⟩ : Files).text? (compiler.outputOf path) = none := fun _ _ => rfl
  have transparent := compileFile_transparent faithful rfl apart clean within
    (rfl : "page.html" ∈ templates)
  refine ⟨by decide +kernel, transparent.2.1.1 ?_⟩
  have compiles : (compiler.compile "page.html" "one").result.isOk = true := by decide +kernel
  obtain ⟨result, compiled⟩ : ∃ result, (compiler.compile "page.html" "one").result = .ok result := by
    cases outcome : (compiler.compile "page.html" "one").result with
    | ok result => exact ⟨result, rfl⟩
    | error failure => simp [outcome, Except.isOk, Except.toBool] at compiles
  have stored : now.text? "page.html.js" = some (Stamp.write (compiler.key "one") result.code) := by
    let edited := compiler.after ⟨fun _ => none⟩ (.edit "page.html" (some "one"))
    have run : ((compiler.compileFile "page.html").run edited).2 = _ :=
      congrArg Prod.snd ((run_anew rfl rfl).trans (run_compiled rfl compiled))
    exact (congrFun (congrArg Files.text? run) "page.html.js").trans (Files.text?_put_self ..)
  have reads : compiler.stored? "page.html" "one" now = some result.code := by
    unfold stored?
    rw [Files.read_eq, show compiler.outputOf "page.html" = "page.html.js" from rfl, stored]
    exact (Stamp.read?_write (faithful.key_oneLine "one") _ _).trans (if_pos rfl)
  show (compiler.stored? "page.html" "one" now).isSome = true
  rw [reads]
  rfl

end HtmlTemplate
