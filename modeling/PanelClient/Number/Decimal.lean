import PanelClient.Number.Binary64
/-!
# Decimal text of numbers

* `Decimal.fixed`: a quotient with a fixed count of places, ties to even;
* `Binary64.toFixed`: the same for a binary64 number, computed on its exact value;
* `Binary64.shortest`: the fewest digits that read back as the same number, and of those the
  nearest to it;
* `Binary64.toText`: the shortest digits, positional for exponents from `-5` to `16` and in
  scientific form outside.
-/

namespace PanelClient

namespace Decimal

/-- The digits of `n`, padded with zeros on the left to at least `width`. -/
def padded (width n : Nat) : String :=
  let ds := Nat.toDigits 10 n
  String.ofList (List.replicate (width - ds.length) '0' ++ ds)

/-- `n` thousandths (for three places) as a positional decimal. -/
def positional (places n : Nat) : String :=
  toString (n / Nat.pow 10 places) ++ "." ++ padded places (n % Nat.pow 10 places)

/-- The quotient `num / den` with `places` decimal places, ties to even. -/
def fixed (places num den : Nat) : String :=
  positional places (roundDiv (num * Nat.pow 10 places) den)

end Decimal

namespace Binary64

/-- The number with a fixed count of decimal places. Negative zero keeps its sign, and so does a
negative number that rounds to zero. -/
def toFixed (places : Nat) (x : Binary64) : String :=
  (if x.negative then "-" else "") ++ Decimal.fixed places x.units unitsPerOne

/-- Four times the ends of the interval of magnitudes that round to `u`, and whether the ends
belong to it. Below a power of two the neighbour is only half as far away. -/
def readBack (u : Nat) : Nat × Nat × Bool :=
  let c := coarseness u
  let step := Nat.pow 2 c
  let below := if 0 < c ∧ u = Nat.pow 2 (52 + c) then step else 2 * step
  (4 * u - below, 4 * u + 2 * step, (u / step) % 2 == 0)

/-- The multiple of `10 ^ k` (in units, times four) nearest to `u` that reads back as `u`, as a
count of `10 ^ k`. -/
def candidate? (u : Nat) (k : Int) : Option Nat :=
  let (lo, hi, ends) := readBack u
  -- one grid step is `gridNum / gridDen` quarter units
  let gridNum := 4 * unitsPerOne * Nat.pow 10 k.toNat
  let gridDen := Nat.pow 10 (-k).toNat
  let inside (n : Nat) : Bool :=
    let p := n * gridNum
    if ends then lo * gridDen ≤ p && p ≤ hi * gridDen else lo * gridDen < p && p < hi * gridDen
  let q := 4 * u * gridDen / gridNum
  let low := q * gridNum
  let high := (q + 1) * gridNum
  let v := 4 * u * gridDen
  match inside q, inside (q + 1) with
  | true, true =>
    let down := v - low
    let up := high - v
    some (if down < up then q else if up < down then q + 1 else q + q % 2)
  | true, false => some q
  | false, true => some (q + 1)
  | false, false => none

/-- The decimal exponent of the first grid, from the top, that has a number reading back as `u`. -/
def shortestFrom (u : Nat) : Nat → Int → Nat × Int
  | 0, k => (u, k)
  | n + 1, k =>
    match candidate? u k with
    | some (d + 1) => (d + 1, k)
    | _ => shortestFrom u n (k - 1)

/-- The shortest decimal `digits * 10 ^ exponent` that reads back as the magnitude `u`. -/
def shortest (u : Nat) : Nat × Int := shortestFrom u 640 309

/-- The shortest text that reads back as the number. -/
def toText (x : Binary64) : String :=
  let sign := if x.negative then "-" else ""
  if x.isZero then sign ++ "0.0"
  else
    let (n, k) := shortest x.units
    let ds := Nat.toDigits 10 n
    let point : Int := ds.length + k
    let body : String :=
      if 0 ≤ k ∧ point ≤ 16 then
        String.ofList (ds ++ List.replicate k.toNat '0') ++ ".0"
      else if 0 < point ∧ point ≤ 16 then
        String.ofList (ds.take point.toNat) ++ "." ++ String.ofList (ds.drop point.toNat)
      else if -5 < point ∧ point ≤ 0 then
        "0." ++ String.ofList (List.replicate (-point).toNat '0' ++ ds)
      else
        let fraction := if ds.length ≤ 1 then "" else "." ++ String.ofList (ds.drop 1)
        String.ofList (ds.take 1) ++ fraction ++ "e" ++ toString (point - 1)
    sign ++ body

end Binary64

end PanelClient
