import TexBundle.Text.Basic

/-!
# Double-precision numbers

Finite binary numbers of 53 significant bits, held exactly as `± mantissa · 2 ^ exponent`.

* `Binary64.round?`: the nearest one to a fraction, ties to even;
* `Binary64.ofDecimal?`: a decimal read in two roundings, of its digits and of the scaling;
* `Binary64.shortest`: the fewest digits that read back as the same number;
* `Binary64.text`: those digits, written out positionally for exponents from -5 to 15.
-/

namespace TexBundle

structure Binary64 where
  negative : Bool
  mantissa : Nat
  exponent : Int
deriving DecidableEq, Repr

namespace Binary64

/-- `num / den` divided by `2 ^ e`, as a fraction. -/
def scaled (num den : Nat) (e : Int) : Nat × Nat := (num * Nat.pow 2 (-e).toNat, den * Nat.pow 2 e.toNat)

/-- The exponent that leaves 53 bits of `num / den` before the point, or the least one. -/
def exponentOf (num den : Nat) : Int :=
  let e : Int := (num.log2 : Int) - den.log2 - 52
  let (n, d) := scaled num den e
  max (if n < Nat.pow 2 52 * d then e - 1 else e) (-1074)

/-- The whole number nearest to `num / den`, the even one of two. -/
def nearest (num den : Nat) : Nat :=
  let q := num / den
  let r := num % den
  if den < 2 * r ∨ (2 * r = den ∧ q % 2 = 1) then q + 1 else q

/-- The positive number nearest to `num / den`; none if that is too large. -/
def round? (num den : Nat) : Option Binary64 :=
  let e := exponentOf num den
  let (n, d) := scaled num den e
  let q := nearest n d
  let (m, e) := if q = Nat.pow 2 53 then (Nat.pow 2 52, e + 1) else (q, e)
  if e ≤ 971 then some ⟨false, m, e⟩ else none

/-- The magnitude as a fraction. -/
def fraction (x : Binary64) : Nat × Nat :=
  (x.mantissa * Nat.pow 2 x.exponent.toNat, Nat.pow 2 (-x.exponent).toNat)

def times? (x y : Binary64) : Option Binary64 :=
  let (a, b) := x.fraction
  let (c, d) := y.fraction
  round? (a * c) (b * d)

def over? (x y : Binary64) : Option Binary64 :=
  let (a, b) := x.fraction
  let (c, d) := y.fraction
  round? (a * d) (b * c)

/-- The largest power of ten that a scaling may use. -/
def maxScale : Nat := 308

/-- The number `digits · 10 ^ scale`, the digits and the power of ten being rounded each before they
are put together; none if it is too large. A scale below `-2 · maxScale` leaves nothing. -/
def ofDecimal? (digits : Nat) (scale : Int) : Option Binary64 := do
  let x ← round? digits 1
  let n := scale.natAbs
  if x.mantissa = 0 then return x
  else if 0 ≤ scale then
    if n ≤ maxScale then x.times? (← round? (Nat.pow 10 n) 1) else none
  else if n ≤ maxScale then x.over? (← round? (Nat.pow 10 n) 1)
  else if n ≤ 2 * maxScale then
    (← x.over? (← round? (Nat.pow 10 maxScale) 1)).over? (← round? (Nat.pow 10 (n - maxScale)) 1)
  else round? 0 1

/-- Whether `d · 10 ^ k` reads back as the number: it is no further away than half a step to the
neighbour, and exactly half a step only if the mantissa is even. -/
def readsBack (x : Binary64) (d : Nat) (k : Int) : Bool :=
  let e := x.exponent - 2
  let point := d * Nat.pow 10 k.toNat * Nat.pow 2 (-e).toNat
  let unit := Nat.pow 2 e.toNat * Nat.pow 10 (-k).toNat
  let below := if x.mantissa = Nat.pow 2 52 ∧ -1074 < x.exponent then 1 else 2
  let low := (4 * x.mantissa - below) * unit
  let high := (4 * x.mantissa + 2) * unit
  if x.mantissa % 2 = 0 then low ≤ point && point ≤ high else low < point && point < high

/-- The better of the two neighbours of a number on the grid of multiples of `10 ^ k`, if one reads
back. -/
def onGrid? (x : Binary64) (k : Int) : Option Nat :=
  let (n, d) := x.fraction
  let (n, d) := (n * Nat.pow 10 (-k).toNat, d * Nat.pow 10 k.toNat)
  let low := n / d
  match readsBack x low k, readsBack x (low + 1) k with
  | true, true => some (if 2 * (n % d) < d ∨ (2 * (n % d) = d ∧ low % 2 = 0) then low else low + 1)
  | true, false => some low
  | false, true => some (low + 1)
  | false, false => none

/-- Digits and scale on the coarsest grid, from `10 ^ k` down, that has a hit. -/
def shortestFrom (x : Binary64) : Nat → Int → Nat × Int
  | 0, k => (0, k)
  | n + 1, k =>
    match onGrid? x k with
    | some d => (d, k)
    | none => shortestFrom x n (k - 1)

/-- The fewest digits that read back, and their scale. -/
def shortest (x : Binary64) : Nat × Int := shortestFrom x 660 309

/-- `digits · 10 ^ k` in scientific form. -/
def scientific (digits : Text) (e : Int) : Text :=
  let fraction := digits.drop 1
  digits.take 1 ++ (if fraction = [] then [] else '.' :: fraction) ++
    ['e', if e < 0 then '-' else '+'] ++ Text.ofNat e.natAbs

/-- `digits · 10 ^ k` written out, with at least one digit on each side of the point. -/
def positional (digits : Text) (k e : Int) : Text :=
  if 0 ≤ k then digits ++ List.replicate k.toNat '0' ++ ".0"
  else if 0 ≤ e then digits.take (e.toNat + 1) ++ "." ++ digits.drop (e.toNat + 1)
  else "0." ++ List.replicate (-e - 1).toNat '0' ++ digits

/-- The shortest text that reads back. -/
def text (x : Binary64) : Text :=
  let sign : Text := if x.negative then ['-'] else []
  if x.mantissa = 0 then sign ++ "0.0"
  else
    let (d, k) := shortest x
    let digits := Text.ofNat d
    let e := k + digits.length - 1
    sign ++ if -5 ≤ e ∧ e ≤ 15 then positional digits k e else scientific digits e

end Binary64

end TexBundle
