import TexBundle.Path
import TexBundle.Source.Figure

/-!
# Figure assets

A figure is stored under `assets/key`, where the key is `document__suffix`. A document may only use
figures of its own.

* `Asset.path`: where a figure lies, in the store and in a package;
* `Asset.isOwnedBy`, `Asset.isWellFormed`: the two tests a key has to pass before it is looked up;
* `Defect`: one problem found while collecting a package.
-/

namespace TexBundle

namespace Asset

def path (key : Text) : Text := Path.below Source.figurePrefix key

/-- Whether the key is the document's id, two underscores, and something more. -/
def isOwnedBy (key document : Text) : Bool :=
  !document.isEmpty && (Text.stripPrefix? (document ++ "__") key).any (!·.isEmpty)

/-- Whether the key is one path segment. -/
def isWellFormed (key : Text) : Bool := !key.isEmpty && !key.any Path.isSlash

end Asset

inductive DefectKind where
  | ownershipMismatch
  | invalidKey
  | downloadFailed
  | emptyPayload
  | checksumMismatch
deriving DecidableEq, Repr

def DefectKind.describe : DefectKind → Text
  | ownershipMismatch => "asset does not belong to this document"
  | invalidKey => "invalid asset key"
  | downloadFailed => "download failed"
  | emptyPayload => "stored file is empty"
  | checksumMismatch => "checksum mismatch"

/-- One problem found while collecting a package; `label` is the figure's key or the path of a file
of the bundle. -/
structure Defect where
  label : Text
  kind : DefectKind
  reason : Text
deriving DecidableEq, Repr

/-- A problem whose reason is what its kind says. -/
def Defect.ofKind (label : Text) (kind : DefectKind) : Defect := ⟨label, kind, kind.describe⟩

/-- A file that a package holds beside its main source. -/
structure PackagedFile where
  path : Text
  bytes : Bytes
deriving DecidableEq, Repr

/-- All that is needed to compile a document. -/
structure Package where
  mainSource : Text
  files : List PackagedFile
deriving DecidableEq, Repr

end TexBundle
