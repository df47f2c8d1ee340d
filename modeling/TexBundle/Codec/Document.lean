import TexBundle.Document
import TexBundle.Json.Basic
import TexBundle.Json.Decoder

/-!
# JSON of documents and manifests

Optional members without a value are not written. On reading they may be `null` or missing, and all
but the identifying members have a default.
-/

namespace TexBundle

open Json

/-- A field that is left out if it has no value. -/
def Json.Record.optional {α β : Type} (r : Record (Option α → β)) (name : Text) (d : Decoder α) :
    Record β :=
  r.field name d.option (.always none)

namespace ListedFile

def toJson (f : ListedFile) : Json :=
  .object (member "path" (.string f.path) ++ optionalMember "sha256" (f.sha256.map .string) ++
    optionalMember "size" (f.size.map fun n => .number n.toNat))

def record : Record ListedFile :=
  Record.make ListedFile.mk
    |>.field "path" .text .refused
    |>.optional "sha256" .text
    |>.optional "size" (.word "u64")

def decoder : Decoder ListedFile := record.decoder "struct ManifestFile"

end ListedFile

namespace Manifest

def toJson (m : Manifest) : Json :=
  .object [("bucket", .string m.bucket), ("basePrefix", .string m.basePrefix),
    ("entryPath", .string m.entryPath), ("files", .array (m.files.map ListedFile.toJson))]

def record : Record Manifest :=
  Record.make Manifest.mk
    |>.field "bucket" .text (.always [])
    |>.field "basePrefix" .text .refused
    |>.field "entryPath" .text .refused
    |>.field "files" ListedFile.decoder.list (.always [])

def decoder : Decoder Manifest := record.decoder "struct Manifest"

/-- The manifest written in a text. -/
def ofJson (t : Text) : Except BundleError Manifest :=
  (decoder.run t).mapError fun e => .manifestInvalid e.message

end Manifest

namespace Metadata

def toJson (m : Metadata) : Json := .object (optionalMember "latex" (m.latex.map .string))

def record : Record Metadata := (Record.make Metadata.mk).optional "latex" .text

def decoder : Decoder Metadata := record.decoder "struct DocumentMetadata"

end Metadata

namespace Document

def toJson (d : Document) : Json :=
  .object (member "id" (.string d.id) ++ member "title" (.string d.title) ++
    optionalMember "projectId" (d.projectId.map .string) ++
    member "metadata" d.metadata.toJson ++
    optionalMember "latexManifest" (d.manifest.map Manifest.toJson))

def record : Record Document :=
  Record.make Document.mk
    |>.field "id" .text .refused
    |>.field "title" .text (.always [])
    |>.optional "projectId" .text
    |>.field "metadata" Metadata.decoder (.always {})
    |>.optional "latexManifest" Manifest.decoder

def decoder : Decoder Document := record.decoder "struct Document"

end Document

end TexBundle
