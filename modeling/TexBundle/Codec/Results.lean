import TexBundle.Json.Basic
import TexBundle.Json.Decoder
import TexBundle.Lookup
import TexBundle.Preview

/-!
# JSON of results

Reference sections, previews, packages, defects and resolutions.
-/

namespace TexBundle

open Json

/-- `null` or a value. -/
def Json.ofOption {α : Type} (f : α → Json) : Option α → Json
  | some a => f a
  | none => .null

namespace ReferenceSection

def toJson (s : ReferenceSection) : Json :=
  .object [("id", .string s.id), ("title", .string s.title),
    ("lines", .array (s.lines.map .string))]

def record : Record ReferenceSection :=
  Record.make ReferenceSection.mk
    |>.field "id" .text .refused
    |>.field "title" .text .refused
    |>.field "lines" (.list .text) .refused

def decoder : Decoder ReferenceSection := record.decoder "struct ReferenceSection"

end ReferenceSection

namespace Preview

def toJson (p : Preview) : Json :=
  .object [("source", .string p.source),
    ("references", .ofOption ReferenceSection.toJson p.references)]

def record : Record Preview :=
  Record.make Preview.mk
    |>.field "source" .text .refused
    |>.field "references" ReferenceSection.decoder.option (.fromObject none)

def decoder : Decoder Preview := record.decoder "struct Preview"

end Preview

namespace PackagedFile

def toJson (f : PackagedFile) : Json :=
  .object [("relPath", .string f.path),
    ("bytes", .array (f.bytes.map fun b => .number b.toNat))]

def record : Record PackagedFile :=
  Record.make PackagedFile.mk
    |>.field "relPath" .text .refused
    |>.field "bytes" (.list .byte) .refused

def decoder : Decoder PackagedFile := record.decoder "struct PackageFile"

end PackagedFile

namespace Package

def toJson (p : Package) : Json :=
  .object [("mainSource", .string p.mainSource),
    ("files", .array (p.files.map PackagedFile.toJson))]

def record : Record Package :=
  Record.make Package.mk
    |>.field "mainSource" .text .refused
    |>.field "files" PackagedFile.decoder.list .refused

def decoder : Decoder Package := record.decoder "struct BundlePackage"

end Package

namespace DefectKind

def name : DefectKind → Text
  | ownershipMismatch => "ownershipMismatch"
  | invalidKey => "invalidKey"
  | downloadFailed => "downloadFailed"
  | emptyPayload => "emptyPayload"
  | checksumMismatch => "checksumMismatch"

def all : List DefectKind :=
  [ownershipMismatch, invalidKey, downloadFailed, emptyPayload, checksumMismatch]

def decoder : Decoder DefectKind := .enumeration (all.map fun k => (k.name, k))

end DefectKind

namespace Defect

def toJson (d : Defect) : Json :=
  .object [("key", .string d.label), ("kind", .string d.kind.name), ("reason", .string d.reason)]

def record : Record Defect :=
  Record.make Defect.mk
    |>.field "key" .text .refused
    |>.field "kind" DefectKind.decoder .refused
    |>.field "reason" .text .refused

def decoder : Decoder Defect := record.decoder "struct MissingAsset"

end Defect

namespace Resolution

def toJson (r : Resolution) : Json :=
  .object [("requestedPath", .string r.requested), ("resolvedRelativePath", .string r.resolved)]

def record : Record Resolution :=
  Record.make Resolution.mk
    |>.field "requestedPath" .text .refused
    |>.field "resolvedRelativePath" .text .refused

def decoder : Decoder Resolution := record.decoder "struct ResolvedBundleFile"

end Resolution

end TexBundle
