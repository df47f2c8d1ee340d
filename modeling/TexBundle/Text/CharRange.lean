/-!
# Ranges of characters

Classes of characters are written as lists of ranges of code points.
-/

namespace TexBundle.Text

/-- The characters from `first` to `last`. -/
structure CharRange where
  first : Nat
  last : Nat

def CharRange.has (r : CharRange) (c : Char) : Bool := r.first ≤ c.toNat && c.toNat ≤ r.last

end TexBundle.Text
