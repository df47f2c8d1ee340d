import TexBundle.Binary64

/-!
# Reading JSON numbers

A number is read in two steps: its parts as they are written, and then the value they mean.

* `NumberText.read?`: the parts, if the text follows the grammar;
* `NumberText.value`: a whole number in 64 bits is an integer, any other number a double.
-/

namespace TexBundle.Json

/-- The parts of a number as written; the exponent has a sign of its own. -/
structure NumberText where
  negative : Bool
  whole : Text
  fraction : Option Text
  exponent : Option (Bool × Text)
deriving DecidableEq, Repr

/-- What a number means. -/
inductive NumberValue where
  | integer (n : Int)
  | float (x : Binary64)
  | outOfRange
deriving DecidableEq, Repr

namespace NumberText

/-- The digits at the start of a text, if there are any. -/
def digits? (t : Text) : Option (Text × Text) :=
  if t.takeWhile Char.isDigit = [] then none
  else some (t.takeWhile Char.isDigit, t.dropWhile Char.isDigit)

/-- Digits that do not start with a zero, or one zero alone. -/
def whole? (t : Text) : Option (Text × Text) := do
  let (digits, rest) ← digits? t
  if digits.head? = some '0' ∧ digits.length ≠ 1 then none else some (digits, rest)

def fraction? (t : Text) : Option (Option Text × Text) :=
  match t with
  | '.' :: t => (digits? t).map fun (digits, rest) => (some digits, rest)
  | t => some (none, t)

/-- The sign of an exponent; a plus sign may be left out. -/
def exponentSign (t : Text) : Bool × Text :=
  match t with
  | '-' :: t => (true, t)
  | '+' :: t => (false, t)
  | t => (false, t)

def exponent? (t : Text) : Option (Option (Bool × Text) × Text) :=
  match t with
  | c :: t' =>
    if c = 'e' ∨ c = 'E' then
      let (negative, t') := exponentSign t'
      (digits? t').map fun (digits, rest) => (some (negative, digits), rest)
    else some (none, t)
  | [] => some (none, [])

/-- The number at the start of a text, and the text behind it. -/
def read? (t : Text) : Option (NumberText × Text) := do
  let (negative, t) := match t with
    | '-' :: t => (true, t)
    | t => (false, t)
  let (whole, t) ← whole? t
  let (fraction, t) ← fraction? t
  let (exponent, rest) ← exponent? t
  return (⟨negative, whole, fraction, exponent⟩, rest)

/-- The number that digits mean behind the digits of `n`. -/
def valueFrom (n : Nat) (digits : Text) : Nat :=
  digits.foldl (fun n c => 10 * n + (c.toNat - '0'.toNat)) n

/-- The largest whole number that is kept exactly. -/
def maxWhole : Nat := UInt64.size - 1

/-- Takes up digits as long as the number stays within 64 bits, and counts the digits left over. -/
def accumulate (n : Nat) : Text → Nat × Nat
  | [] => (n, 0)
  | c :: t =>
    let m := valueFrom n [c]
    if m ≤ maxWhole then accumulate m t else (n, t.length + 1)

/-- The digits that count, and the scale of their last one. -/
def significand (x : NumberText) : Nat × Int :=
  let (n, left) := accumulate 0 x.whole
  let fraction := x.fraction.getD []
  let (n, left') := accumulate n fraction
  (n, left - (fraction.length - left' : Nat))

/-- Larger exponents are not told apart. -/
def maxExponent : Nat := Nat.pow 2 31 - 1

/-- The magnitude as a double; none if it is too large. -/
def magnitude? (x : NumberText) : Option Binary64 :=
  let (n, scale) := x.significand
  match x.exponent with
  | none => Binary64.ofDecimal? n scale
  | some (negative, digits) =>
    let e := valueFrom 0 digits
    if maxExponent < e then if n = 0 ∨ negative then Binary64.round? 0 1 else none
    else Binary64.ofDecimal? n (if negative then scale - e else scale + e)

/-- The meaning of a number that is not an integer. -/
def floatValue (x : NumberText) : NumberValue :=
  match x.magnitude? with
  | some m => .float { m with negative := x.negative }
  | none => .outOfRange

/-- Whole numbers without fraction and exponent are integers, as far as 64 bits hold them (the
negative ones in two's complement); all others, and zero with a minus sign, are doubles. -/
def value (x : NumberText) : NumberValue :=
  let n := valueFrom 0 x.whole
  match x.fraction, x.exponent, x.negative with
  | none, none, false => if n ≤ maxWhole then .integer n else x.floatValue
  | none, none, true => if n ≠ 0 ∧ n ≤ Nat.pow 2 63 then .integer (-n) else x.floatValue
  | _, _, _ => x.floatValue

end NumberText

end TexBundle.Json
