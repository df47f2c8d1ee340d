import TexBundle.References

/-!
# Previews

The flattened source of a document and its reference section.
-/

namespace TexBundle

structure Preview where
  source : Text
  references : Option ReferenceSection
deriving DecidableEq, Repr

end TexBundle
