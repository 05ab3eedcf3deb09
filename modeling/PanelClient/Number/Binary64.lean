import PanelClient.Number.Rounding
/-!
# Finite binary64 numbers, exactly

Every finite number of the binary64 format is a whole multiple of `2 ^ -1074`, the least positive
one. A number is therefore kept as a sign and that multiple, and arithmetic is exact arithmetic on
natural numbers followed by one rounding.

* `Binary64`: sign and magnitude in units of `2 ^ -1074`;
* `Binary64.round`: the nearest number with 53 significant bits, ties to even, or nothing when that
  lies beyond the largest finite number;
* `Binary64.mul`, `Binary64.div`: the rounded product and quotient;
* `Binary64.lt`: the order of the numbers;
* `Binary64.bits`: the interchange encoding in 64 bits.
-/

namespace PanelClient

/-- A finite binary64 number: `units * 2 ^ -1074`, negated when `negative` holds. Zero has both
signs. -/
structure Binary64 where
  /-- The sign bit. -/
  negative : Bool
  /-- The magnitude, in multiples of the least positive number. -/
  units : Nat
  deriving DecidableEq, Repr, Inhabited

namespace Binary64

/-- One, in units. -/
def unitsPerOne : Nat := Nat.pow 2 1074

/-- Magnitudes from here on are beyond the finite range. -/
def overflowUnits : Nat := Nat.pow 2 2098

/-- The power of two by which a magnitude with integer part `n` is coarsened so that at most 53
bits remain. -/
def coarseness (n : Nat) : Nat := n.log2 + 1 - 53

/-- The magnitude nearest to `num / den` units that has at most 53 significant bits. -/
def roundUnits (num den : Nat) : Nat :=
  let step := Nat.pow 2 (coarseness (num / den))
  roundDiv num (den * step) * step

/-- The number nearest to `num / den` units, if it is finite. -/
def round (negative : Bool) (num den : Nat) : Option Binary64 :=
  let u := roundUnits num den
  if u < overflowUnits then some ⟨negative, u⟩ else none

/-- The nearest number to a natural number; every 64-bit one is in range. -/
def ofNat (n : Nat) : Binary64 := ⟨false, roundUnits (n * unitsPerOne) 1⟩

/-- The nearest number to `10 ^ k`, for the exponents in range. -/
def tenPow (k : Nat) : Binary64 := ofNat (Nat.pow 10 k)

/-- The rounded product. -/
def mul (x y : Binary64) : Option Binary64 :=
  round (x.negative != y.negative) (x.units * y.units) unitsPerOne

/-- The rounded quotient, for a divisor other than zero. -/
def div (x y : Binary64) : Option Binary64 :=
  round (x.negative != y.negative) (x.units * unitsPerOne) y.units

/-- Whether `x` is less than `y`; the two zeros are equal. -/
def lt (x y : Binary64) : Bool :=
  let signed (z : Binary64) : Int := if z.negative then -z.units else z.units
  signed x < signed y

/-- The number with the opposite sign. -/
def neg (x : Binary64) : Binary64 := { x with negative := !x.negative }

/-- Neither positive nor negative. -/
def isZero (x : Binary64) : Bool := x.units == 0

/-- The nearest number to an integer. -/
def ofInt : Int → Binary64
  | .ofNat n => ofNat n
  | .negSucc n => (ofNat (n + 1)).neg

/-- The encoding of the magnitude: eleven bits of exponent above 52 bits of fraction. -/
def magnitudeBits (u : Nat) : Nat :=
  if u < Nat.pow 2 52 then u
  else
    let e := u.log2 - 52
    (e + 1) * Nat.pow 2 52 + (u / Nat.pow 2 e - Nat.pow 2 52)

/-- The interchange encoding. -/
def bits (x : Binary64) : Nat :=
  (if x.negative then Nat.pow 2 63 else 0) + magnitudeBits x.units

end Binary64

end PanelClient
