import TexBundle.Bundler
import TexBundle.Codec.Document
import TexBundle.Codec.Outline
import TexBundle.Codec.Results
import TexBundle.Codec.Settings
import TexBundle.CommandLine.Arguments
import TexBundle.Storage.Directory

/-!
# Running the command line

The object store is a directory, the document a JSON file.

* `run`: what an invocation does to the files, and what it prints or why it fails;
* `Report.ofResult`: exit code and output. Problems that the user can mend are reported as JSON on
  standard output, all others in words on standard error.
-/

namespace TexBundle.CommandLine

open Json

/-- Why an invocation failed. -/
inductive Failure where
  | settings (file reason : Text)
  | unreadable (file : Text) (cause : FileError)
  | malformed (file : Text) (cause : DecodeError)
  | bundle (cause : BundleError)
  | storing (cause : FileError)
  | outside (dir path : Text)
deriving DecidableEq, Repr

namespace Failure

/-- What failed, without the cause if that has a text of its own. -/
def headline : Failure → Text
  | settings file _ => "failed to load config " ++ file
  | unreadable file _ => "failed to read document " ++ file
  | malformed file _ => "invalid document JSON in " ++ file
  | bundle cause => cause.message
  | storing cause => cause.message
  | outside dir path => "refusing to write outside " ++ dir ++ ": " ++ path

/-- The text of the cause, where the headline does without. -/
def cause? : Failure → Option Text
  | settings _ reason => some reason
  | unreadable _ cause => some cause.message
  | malformed _ cause => some cause.message
  | _ => none

def message (f : Failure) : Text :=
  f.headline ++ f.cause?.elim [] fun cause => (": " : Text) ++ cause

end Failure

variable {m : Type → Type} [Monad m]

/-- A part of a run. -/
abbrev Task (m : Type → Type) := ExceptT Failure m

/-- A file operation as part of a run, given what a failure of it means. -/
def onFiles {α : Type} (failure : FileError → Failure) (act : m (Except FileError α)) :
    Task m α := do
  match ← ExceptT.lift act with
  | .ok a => return a
  | .error e => throw (failure e)

/-- The text of a file. -/
def readText (fs : FileSystem m) (failure : FileError → Failure) (path : Text) : Task m Text := do
  match Utf8.decode? (← onFiles failure (fs.read path)) with
  | some t => return t
  | none => throw (failure .notUtf8)

def loadSettings (fs : FileSystem m) : Option Text → Task m Settings
  | none => return {}
  | some path => do
    let t ← readText fs (fun e => .settings path e.message) path
    match Settings.decoder.run t with
    | .ok s => return s
    | .error e => throw (.settings path e.message)

def loadDocument (fs : FileSystem m) (path : Text) : Task m Document := do
  let t ← readText fs (.unreadable path) path
  match Document.decoder.run t with
  | .ok d => return d
  | .error e => throw (.malformed path e)

/-- Runs an operation. -/
def perform {α : Type} (b : Bundler m) (op : Operation m α) : Task m α := do
  match (← ExceptT.lift (op.run.run b.guard)).1 with
  | .ok a => return a
  | .error e => throw (.bundle e)

/-- Writes one file of a package below a directory. -/
def writeFile (fs : FileSystem m) (dir : Text) (f : PackagedFile) : Task m Unit := do
  let relative := Path.dropSlashes f.path
  if Path.escapes relative then throw (.outside dir f.path)
  let target := FilePath.join dir relative
  onFiles .storing (fs.makeParent target)
  onFiles .storing (fs.write target f.bytes)

def writeFiles (fs : FileSystem m) (dir : Text) : List PackagedFile → Task m Unit
  | [] => return ()
  | f :: fs' => do
    writeFile fs dir f
    writeFiles fs dir fs'

/-- Writes a package into a directory, the main source first. -/
def writePackage (fs : FileSystem m) (dir : Text) (p : Package) : Task m Unit := do
  onFiles .storing (fs.makeDirectories dir)
  onFiles .storing (fs.write (FilePath.join dir "main.tex") (Utf8.encode p.mainSource))
  writeFiles fs dir p.files

/-- A JSON value on lines of its own. -/
def lines (v : Json) : Text := v.pretty ++ "\n"

/-- What a command prints about a document. -/
def execute (fs : FileSystem m) (b : Bundler m) (id : Text) : Command → Task m Text
  | .flatten => perform b (b.mergedSource id)
  | .references => do
    let s ← perform b (b.referenceSection id)
    return lines (.ofOption (·.outline.toJson) s)
  | .package out => do
    writePackage fs out (← perform b (b.buildPackage id))
    return []
  | .resolve request none => do
    return lines (← perform b (b.resolveFile id request)).toJson
  | .resolve request (some output) => do
    let (resolution, bytes) ← perform b (b.fetchFile id request)
    onFiles .storing (fs.write output bytes)
    return lines resolution.toJson

/-- What an invocation prints. -/
def run (fs : FileSystem m) (i : Invocation) : Task m Text := do
  let settings ← loadSettings fs i.settings
  let document ← loadDocument fs i.document
  let b : Bundler m :=
    ⟨DirectoryStore.store ⟨i.root⟩ fs, Shelf.store { documents := [document] }, settings⟩
  execute fs b document.id i.command

/-! ## Reports -/

structure Report where
  exitCode : UInt32 := 0
  stdout : Text := []
  stderr : Text := []
deriving DecidableEq, Repr

/-- A problem that the user can mend. -/
def problemJson (e : BundleError) : Json :=
  .object (Json.member "error" (.string e.message) ++
    Json.optionalMember "missing" (e.defects?.map fun ds => .array (ds.map Defect.toJson)))

/-- A failure in words. -/
def Report.ofMessage (exitCode : UInt32) (message : Text) : Report :=
  { exitCode := exitCode, stderr := "Error: " ++ message ++ "\n" }

def Report.ofFailure (f : Failure) : Report :=
  match f with
  | .bundle e =>
    match e.errorClass with
    | .validation => { exitCode := 2, stdout := lines (problemJson e) }
    | .notFound => .ofMessage 3 f.message
    | .internal => .ofMessage 1 f.message
  | _ => .ofMessage 1 f.message

def Report.ofResult : Except Failure Text → Report
  | .ok t => { stdout := t }
  | .error f => .ofFailure f

end TexBundle.CommandLine
