import HtmlTemplate.Compilation
import HtmlTemplate.Storage.Access
import HtmlTemplate.Storage.Stamp
import HtmlTemplate.Taglib

/-!
# Compilers

A compiler compiles templates in files, and stores their output next to them. Stored output is stamped
with a key, the digest of everything that the output depends on, and is used as long as the key fits.
-/

namespace HtmlTemplate

/-- Everything that a compilation depends on, its template aside. -/
structure Compiler where
  registry : Registry
  options : Options
  /-- How far a walk may go. -/
  fuel : Nat
  /-- Condenses what output depends on into a key. -/
  digest : List UInt8 → String := Digest.hexSha256

/-- Why the file of a template gives no module. -/
inductive FileFailure
  | compilation (failure : Failure)
  | access (fault : AccessFault)
  deriving Repr

/-- Steps with files in a storage. What was done before a failure stays done. -/
abbrev Access (σ α : Type) := ExceptT FileFailure (StateM σ) α

namespace Access

/-- Fails for a cause with a path. -/
def fail (path : String) (cause : AccessCause) : Access σ α :=
  throw (.access { cause, path })

/-- The text in a file. -/
def read [Storage σ] (path : String) : Access σ String := do
  match Storage.read path (← get) with
  | .ok content => return content
  | .error cause => fail path cause

/-- Does something to the storage that a path is needed for. -/
def change (path : String) (work : σ → Except AccessCause Unit × σ) : Access σ Unit := do
  let (result, storage) := work (← get)
  set storage
  match result with
  | .ok () => return ()
  | .error cause => fail path cause

/-- Puts a text into a file. -/
def write [Storage σ] (path content : String) : Access σ Unit :=
  change path (Storage.write path content)

/-- Makes the directory that a path lies in, unless it lies in the working directory. -/
def makeParent [Storage σ] (path : String) : Access σ Unit :=
  match Path.parent? path with
  | none => return ()
  | some parent =>
      if parent.isEmpty then return () else change parent (Storage.makeDirectories parent)

end Access

namespace Compiler

/-- Compiles a template, given the path of its file and its source. -/
def compile (compiler : Compiler) (file source : String) : Compilation :=
  Compilation.run compiler.registry compiler.options compiler.fuel file source

/-- What the output of a source depends on. -/
def keyMaterial (compiler : Compiler) (source : String) : List UInt8 :=
  Digest.textBytes source ++ [0] ++ Digest.textBytes compiler.options.fingerprint ++ [0] ++
    Digest.textBytes compiler.registry.fingerprint

/-- The key of the output of a source. -/
def key (compiler : Compiler) (source : String) : String :=
  compiler.digest (compiler.keyMaterial source)

/-- The path of the output for the template in a file. -/
def outputOf (compiler : Compiler) (file : String) : String :=
  outputPath file compiler.options.compiledSuffix

/-- The code that is stored for a source of the template in a file. -/
def stored? [Storage σ] (compiler : Compiler) (file source : String) (storage : σ) : Option String :=
  match Storage.read (compiler.outputOf file) storage with
  | .ok content => Stamp.read? (compiler.key source) content
  | .error _ => none

/-- Is stored output used? -/
def reuses (compiler : Compiler) : Bool :=
  compiler.options.writeToDisk && compiler.options.checkUpToDate

/-- Stores code for a source of the template in a file. -/
def store [Storage σ] (compiler : Compiler) (makesDirectory : Bool) (file source code : String) :
    Access σ Unit := do
  let output := compiler.outputOf file
  if makesDirectory then Access.makeParent output
  Access.write output (Stamp.write (compiler.key source) code)

/-- Compiles a source of the template in a file, and stores the code if it is to be stored. -/
def compileAnew [Storage σ] (compiler : Compiler) (makesDirectory : Bool) (file source : String) :
    Access σ CodeModule := do
  match (compiler.compile file source).result with
  | .error failure => throw (.compilation failure)
  | .ok result => do
      if compiler.options.writeToDisk then compiler.store makesDirectory file source result.code
      return result

/-- Compiles the template in a file, unless there is stored output that can be used. -/
def compileStored [Storage σ] (compiler : Compiler) (makesDirectory : Bool) (file : String) :
    Access σ CodeModule := do
  let source ← Access.read file
  let storage ← get
  match if compiler.reuses then compiler.stored? file source storage else none with
  | some code => return CodeModule.stored file code
  | none => compiler.compileAnew makesDirectory file source

/-- Compiles the template in a file. The directory that its output lies in is made if it is missing. -/
def compileFile [Storage σ] (compiler : Compiler) (file : String) : Access σ CodeModule :=
  compiler.compileStored true file

/-- Compiles the template in a file. The directory that its output lies in has to be there. -/
def compileFileInPlace [Storage σ] (compiler : Compiler) (file : String) : Access σ CodeModule :=
  compiler.compileStored false file

/-- Compiles the templates in files, one after the other. A failure is no trouble to the others. -/
def compileFiles [Storage σ] (compiler : Compiler) :
    List String → σ → List (Except FileFailure CodeModule) × σ
  | [], storage => ([], storage)
  | file :: files, storage =>
      let (result, storage) := (compiler.compileFile file).run storage
      let (results, storage) := compileFiles compiler files storage
      (result :: results, storage)

/-- Is there stored output for the template in a file that fits what is in the file? -/
def isUpToDate [Storage σ] (compiler : Compiler) (file : String) (storage : σ) : Bool :=
  match Storage.read file storage with
  | .ok source => (compiler.stored? file source storage).isSome
  | .error _ => false

end Compiler

end HtmlTemplate
