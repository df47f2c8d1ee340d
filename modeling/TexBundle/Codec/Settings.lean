import TexBundle.Json.Basic
import TexBundle.Json.Decoder
import TexBundle.Settings

/-!
# JSON of settings

A settings file only needs the members it changes. Settings are written with one member per line.
-/

namespace TexBundle.Settings

open Json

def toJson (s : Settings) : Json :=
  .object [("maxIncludeDepth", .number s.maxIncludeDepth.toNat),
    ("referenceFallbackLimit", .number s.referenceFallbackLimit.toNat),
    ("titleLimit", .number s.titleLimit.toNat), ("authorLimit", .number s.authorLimit.toNat),
    ("yearLimit", .number s.yearLimit.toNat),
    ("preferredExtensions", .array (s.preferredExtensions.map .string)),
    ("maxExpandedBytes", .number s.maxExpandedBytes.toNat),
    ("defaultBucket", .string s.defaultBucket)]

/-- A field that keeps the value of the default settings if it is missing. -/
def number {β : Type} (r : Record (UInt64 → β)) (name : Text) (value : Settings → UInt64) :
    Record β :=
  r.field name (.word "usize") (.always (value {}))

def record : Record Settings :=
  Record.make Settings.mk
    |> (number · "maxIncludeDepth" maxIncludeDepth)
    |> (number · "referenceFallbackLimit" referenceFallbackLimit)
    |> (number · "titleLimit" titleLimit)
    |> (number · "authorLimit" authorLimit)
    |> (number · "yearLimit" yearLimit)
    |>.field "preferredExtensions" (.list .text) (.always ({} : Settings).preferredExtensions)
    |> (number · "maxExpandedBytes" maxExpandedBytes)
    |>.field "defaultBucket" .text (.always ({} : Settings).defaultBucket)

def decoder : Decoder Settings := record.decoder "struct BundleConfig"

/-- The text of a settings file. -/
def fileText (s : Settings) : Text := s.toJson.pretty

end TexBundle.Settings
