import TexBundle.Text.Basic

/-!
# Bibliographies

An entry has a kind, a key and named field values; a bibliography is its list of entries.

* `Entry.field?`: a field's value, an empty one counting as absent;
* `Bibliography.get?`, `Bibliography.last?`: the first and the last entry of a key.
-/

namespace TexBundle

/-- One bibliography entry. Its kind and the field names are in lower case, its values trimmed and
without delimiters; no field name occurs twice. -/
structure Entry where
  kind : Text
  key : Text
  fields : List (Text × Text)
deriving DecidableEq, Repr

namespace Entry

/-- The value of a field that is present and not empty. -/
def field? (e : Entry) (name : Text) : Option Text :=
  (e.fields.lookup name).filter (· ≠ [])

end Entry

/-- Entries in the order of the source. -/
structure Bibliography where
  entries : List Entry
deriving DecidableEq, Repr

namespace Bibliography

/-- The first entry with a key. -/
def get? (b : Bibliography) (key : Text) : Option Entry := b.entries.find? (·.key == key)

/-- The last entry with a key. -/
def last? (b : Bibliography) (key : Text) : Option Entry := b.entries.reverse.find? (·.key == key)

end Bibliography

end TexBundle
