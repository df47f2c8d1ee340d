import TexBundle.Manifest

/-!
# Documents

The editor's record of a document: its LaTeX is stored inline, or as a bundle that a manifest
describes.
-/

namespace TexBundle

structure Metadata where
  /-- LaTeX of a document that is no bundle. -/
  latex : Option Text := none
deriving DecidableEq, Repr

structure Document where
  id : Text
  title : Text := []
  projectId : Option Text := none
  metadata : Metadata := {}
  manifest : Option Manifest := none
deriving DecidableEq, Repr

/-- Where a document's LaTeX comes from. -/
inductive Origin where
  | bundle (manifest : Manifest)
  | inline (latex : Text)
deriving DecidableEq, Repr

/-- A manifest comes before inline LaTeX, and has to be valid. -/
def Document.origin (d : Document) : Except BundleError Origin :=
  match d.manifest, d.metadata.latex with
  | some m, _ => do
    m.validate
    return .bundle m
  | none, some latex => pure (.inline latex)
  | none, none => throw (.manifestInvalid ("document " ++ d.id ++ " has no LaTeX manifest"))

end TexBundle
