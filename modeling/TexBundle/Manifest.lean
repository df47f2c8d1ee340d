import TexBundle.Digest
import TexBundle.Error
import TexBundle.Text.Blank

/-!
# Manifests

Where a bundle is stored and which files it has.

* `Manifest.validate`: what every operation relies on;
* `Manifest.storageKey`: where a file of the bundle is stored;
* `Manifest.texFiles`, `bibliographyFiles`, `resourceFiles`: the files by use, never the entry;
* `ListedFile.verify`: whether bytes have the recorded digest.
-/

namespace TexBundle

structure ListedFile where
  path : Text
  sha256 : Option Text := none
  size : Option UInt64 := none
deriving DecidableEq, Repr

namespace ListedFile

/-- Whether the bytes have the recorded digest. Without one, all bytes have. -/
def verify (f : ListedFile) (bytes : Bytes) : Bool :=
  match f.sha256 with
  | some expected => Text.sameAscii (hex (Sha256.digest bytes)) (Text.trim expected)
  | none => true

/-- Whether the path has the extension `ext`, up to the case of ASCII letters. -/
def hasExtension (f : ListedFile) (ext : Text) : Bool :=
  (Path.extension? f.path).any (Text.sameAscii · ext)

end ListedFile

structure Manifest where
  bucket : Text := []
  basePrefix : Text
  entryPath : Text
  files : List ListedFile := []
deriving DecidableEq, Repr

namespace Manifest

/-- Both the prefix and the entry have to be there, and all paths have to be relative. -/
def validate (m : Manifest) : Except BundleError Unit :=
  if Text.allBlank m.basePrefix then throw (.manifestInvalid "basePrefix is empty")
  else if Text.allBlank m.entryPath then throw (.manifestInvalid "entryPath is empty")
  else if Path.isAbsolute m.entryPath then
    throw (.manifestInvalid ("entryPath must be relative: " ++ m.entryPath))
  else match m.files.find? (Path.isAbsolute ·.path) with
    | some f => throw (.manifestInvalid ("file path must be relative: " ++ f.path))
    | none => pure ()

/-- Where the file with a relative path is stored. -/
def storageKey (m : Manifest) (relative : Text) : Text := Path.below m.basePrefix relative

/-- The bucket to read from; a blank name means the default one. -/
def bucketOr (m : Manifest) (default : Text) : Text :=
  if Text.allBlank m.bucket then default else m.bucket

/-- The files other than the entry. -/
def bundleFiles (m : Manifest) : List ListedFile := m.files.filter (·.path ≠ m.entryPath)

def texFiles (m : Manifest) : List ListedFile := m.bundleFiles.filter (·.hasExtension "tex")

def bibliographyFiles (m : Manifest) : List ListedFile :=
  m.bundleFiles.filter (·.hasExtension "bib")

/-- What compiling needs besides LaTeX sources. -/
def resourceFiles (m : Manifest) : List ListedFile := m.bundleFiles.filter (!·.hasExtension "tex")

end Manifest

end TexBundle
