import TexBundle.Manifest
import TexBundle.Storage.Store
import TexBundle.Text.Utf8

/-!
# Collecting stored files

Reading the files of a bundle, leniently for previews and strictly for packages.

* `loadTexts`: the texts of files, those that cannot be read left out;
* `collectResources`, `collectAssets`: a file or a defect for each file that a package needs;
* `defects`, `files`: the two halves of what has been collected.
-/

namespace TexBundle

namespace Collection

variable {m : Type → Type} [Monad m]

/-- The paths and texts of the files of a manifest. Files that cannot be downloaded are left out. -/
def loadTexts (store : ObjectStore m) (manifest : Manifest) (bucket : Text) :
    List ListedFile → m (List (Text × Text))
  | [] => return []
  | f :: fs => do
    let result ← store.download bucket (manifest.storageKey f.path)
    let rest ← loadTexts store manifest bucket fs
    match result with
    | .ok bytes => return (f.path, Utf8.decodeLossy bytes) :: rest
    | .error _ => return rest

/-- What one needed file comes to. -/
abbrev Outcome := Except Defect PackagedFile

/-- Downloads an object that must not be empty; `label` names it in a defect. -/
def fetch (store : ObjectStore m) (bucket key label : Text) : m (Except Defect Bytes) := do
  match ← store.download bucket key with
  | .ok [] => return .error (.ofKind label .emptyPayload)
  | .ok bytes => return .ok bytes
  | .error e => return .error ⟨label, .downloadFailed, "download failed: " ++ e.message⟩

/-- A file of the bundle, with the recorded digest. -/
def collectResource (store : ObjectStore m) (manifest : Manifest) (bucket : Text) (f : ListedFile) :
    m Outcome := do
  match ← fetch store bucket (manifest.storageKey f.path) f.path with
  | .error d => return .error d
  | .ok bytes =>
    if f.verify bytes then return .ok ⟨f.path, bytes⟩
    else return .error (.ofKind f.path .checksumMismatch)

/-- A figure of a document. Its key is looked up only if it is the document's own and is one
segment. -/
def collectAsset (store : ObjectStore m) (bucket document key : Text) : m Outcome := do
  if !Asset.isOwnedBy key document then return .error (.ofKind key .ownershipMismatch)
  else if !Asset.isWellFormed key then return .error (.ofKind key .invalidKey)
  else
    match ← fetch store bucket (Asset.path key) key with
    | .error d => return .error d
    | .ok bytes => return .ok ⟨Asset.path key, bytes⟩

def collectResources (store : ObjectStore m) (manifest : Manifest) (bucket : Text) :
    List ListedFile → m (List Outcome)
  | [] => return []
  | f :: fs => do
    let outcome ← collectResource store manifest bucket f
    return outcome :: (← collectResources store manifest bucket fs)

/-- The figures with these keys. -/
def collectKeys (store : ObjectStore m) (bucket document : Text) : List Text → m (List Outcome)
  | [] => return []
  | key :: keys => do
    let outcome ← collectAsset store bucket document key
    return outcome :: (← collectKeys store bucket document keys)

/-- The figures that a source refers to. -/
def collectAssets (store : ObjectStore m) (bucket document source : Text) : m (List Outcome) :=
  collectKeys store bucket document (Source.figureKeys source)

def defects (outcomes : List Outcome) : List Defect :=
  outcomes.filterMap fun
    | .error d => some d
    | .ok _ => none

def files (outcomes : List Outcome) : List PackagedFile :=
  outcomes.filterMap fun
    | .error _ => none
    | .ok f => some f

/-- All files, or all defects if there are any. -/
def settle (outcomes : List Outcome) : Except (List Defect) (List PackagedFile) :=
  match defects outcomes with
  | [] => .ok (files outcomes)
  | ds => .error ds

/-- Checks and downloads the figures that a source of a document refers to. -/
def validateAssets (store : ObjectStore m) (source document bucket : Text) :
    m (Except (List Defect) (List PackagedFile)) := do
  return settle (← collectAssets store bucket document source)

end Collection

end TexBundle
