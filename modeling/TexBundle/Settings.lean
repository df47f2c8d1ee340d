import TexBundle.Expansion

/-!
# Settings

The tunable limits of bundle resolution. Every setting has a default.

* `Settings.limits`: how far include expansion may go.
-/

namespace TexBundle

structure Settings where
  /-- Nesting levels of include directives that are followed. -/
  maxIncludeDepth : UInt64 := .ofNat ({} : Limits).maxDepth
  /-- Entries listed when nothing is cited. -/
  referenceFallbackLimit : UInt64 := 50
  titleLimit : UInt64 := 200
  authorLimit : UInt64 := 160
  yearLimit : UInt64 := 16
  /-- Extensions tried, in order, for a request without one. -/
  preferredExtensions : List Text := ["pdf", "png", "jpg", "jpeg", "svg", "webp", "gif", "eps"]
  /-- Bytes that include expansion may splice in, markers included. -/
  maxExpandedBytes : UInt64 := .ofNat ({} : Limits).maxBytes
  /-- The bucket of documents that name none. -/
  defaultBucket : Text := "latex-bundles"
deriving DecidableEq, Repr

def Settings.limits (s : Settings) : Limits := ⟨s.maxIncludeDepth.toNat, s.maxExpandedBytes.toNat⟩

end TexBundle
