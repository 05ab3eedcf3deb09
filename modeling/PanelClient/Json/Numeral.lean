import PanelClient.Number.Binary64
/-!
# Numbers of a JSON text

* `Numeral`: a number as written, sign, digits and exponent;
* `Numeral.scan`: the longest number at the front of a text;
* `Number`: the value of a number, an integer or a binary64 number;
* `Numeral.value?`: the value of a written number, if it has one.

A number without fraction and exponent that fits 64 bits (unsigned, or signed when it has a minus
sign) is an integer. For all others the digits are gathered into a significand of 64 bits, digits
that no longer fit are dropped, and the significand is scaled by a power of ten in binary64
arithmetic.
-/

namespace PanelClient.Json

/-- A number as written. -/
structure Numeral where
  /-- A minus sign stands in front. -/
  negative : Bool
  /-- The digits before the point. -/
  whole : List Nat
  /-- The digits after the point; none when there is no point. -/
  fraction : List Nat
  /-- The exponent, when there is one. -/
  exponent : Option Int
  deriving DecidableEq, Repr, Inhabited

/-- The value of a number. -/
inductive Number where
  | int (i : Int)
  | real (x : Binary64)
  deriving DecidableEq, Repr, Inhabited

/-- The value of a row of decimal digits. -/
def ofDigits (ds : List Nat) : Nat := ds.foldl (fun n d => n * 10 + d) 0

namespace Numeral

/-- The digits at the front of a text, and the rest. -/
def spanDigits : List Char → List Nat × List Char
  | [] => ([], [])
  | c :: r =>
    if c.isDigit then
      let (ds, rest) := spanDigits r
      ((c.toNat - '0'.toNat) :: ds, rest)
    else ([], c :: r)

/-- The exponent at the front of a text. The error says whether the text ends too early. -/
def scanExponent (text : List Char) : Except Bool (Option Int × List Char) :=
  match text with
  | e :: r =>
    if e == 'e' || e == 'E' then
      let (sign, r) : Int × List Char :=
        match r with
        | '+' :: r => (1, r)
        | '-' :: r => (-1, r)
        | r => (1, r)
      match spanDigits r with
      | ([], rest) => .error rest.isEmpty
      | (ds, rest) => .ok (some (sign * ofDigits ds), rest)
    else .ok (none, text)
  | [] => .ok (none, [])

/-- The fraction at the front of a text. The error says whether the text ends too early. -/
def scanFraction : List Char → Except Bool (List Nat × List Char)
  | '.' :: r =>
    match spanDigits r with
    | ([], rest) => .error rest.isEmpty
    | (ds, rest) => .ok (ds, rest)
  | r => .ok ([], r)

/-- The digits before the point: a lone zero, or a row that starts with another digit. -/
def scanWhole (text : List Char) : Except Bool (List Nat × List Char) :=
  match spanDigits text with
  | ([], rest) => .error rest.isEmpty
  | (0 :: _ :: _, _) => .error false
  | (ds, rest) => .ok (ds, rest)

/-- The number at the front of a text, and the rest. The error says whether the text ends before
the number is complete. -/
def scan (text : List Char) : Except Bool (Numeral × List Char) := do
  let (negative, r) :=
    match text with
    | '-' :: r => (true, r)
    | r => (false, r)
  let (whole, r) ← scanWhole r
  let (fraction, r) ← scanFraction r
  let (exponent, r) ← scanExponent r
  return (⟨negative, whole, fraction, exponent⟩, r)

/-! ### Values -/

/-- The first number that 64 bits do not hold. -/
def wordLimit : Nat := UInt64.size

/-- Appends digits to a significand while it fits 64 bits, and counts them. -/
def absorb (significand : Nat) : List Nat → Nat × Nat
  | [] => (significand, 0)
  | d :: ds =>
    let next := significand * 10 + d
    if next < wordLimit then
      let (s, n) := absorb next ds
      (s, n + 1)
    else (significand, 0)

/-- `x` times `10 ^ e`, where `tries` bounds the steps of `308` decimal places taken for a very
negative exponent: three of them take any 64-bit significand to zero. -/
def scaled (x : Binary64) (e : Int) : Nat → Option Binary64
  | 0 => some x
  | tries + 1 =>
    if e.natAbs ≤ 308 then
      if 0 ≤ e then x.mul (.tenPow e.natAbs) else x.div (.tenPow e.natAbs)
    else if x.isZero then some x
    else if 0 ≤ e then none
    else do scaled (← x.div (.tenPow 308)) (e + 308) tries

/-- The number in binary64, if it is in range. -/
def real? (n : Numeral) : Option Binary64 := do
  let (s, taken) := absorb 0 n.whole
  let (s, places) := absorb s n.fraction
  let e : Int := (n.whole.length - taken : Int) - places + n.exponent.getD 0
  let x ← scaled (.ofNat s) e 4
  return if n.negative then x.neg else x

/-- The value of a number; nothing when it is beyond the range of binary64. -/
def value? (n : Numeral) : Option Number :=
  let i := ofDigits n.whole
  if n.fraction = [] ∧ n.exponent = none ∧ i < wordLimit then
    if !n.negative then some (.int i)
    else if 0 < i ∧ 2 * i ≤ wordLimit then some (.int (-i))
    else some (.real (Binary64.ofNat i).neg)
  else .real <$> n.real?

/-- A whole number as it is written. -/
def ofInt (i : Int) : Numeral :=
  ⟨i < 0, (Nat.toDigits 10 i.natAbs).map fun c => c.toNat - '0'.toNat, [], none⟩

end Numeral

namespace Number

/-- The number as a natural number below `limit`, if it is one. -/
def natBelow? (limit : Nat) : Number → Option Nat
  | .int i => if 0 ≤ i ∧ i < limit then some i.toNat else none
  | .real _ => none

/-- The number in binary64; integers are rounded. -/
def toReal : Number → Binary64
  | .int i => .ofInt i
  | .real x => x

end Number

end PanelClient.Json
