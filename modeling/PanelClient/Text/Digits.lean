/-!
# Digits

* `Digits.value?`: the value of a digit, hexadecimal ones included;
* `Digits.read?`: the number that digits write in a base.
-/

namespace PanelClient.Digits

/-- The value of a digit; letters of either case go on after nine. -/
def value? (c : Char) : Option Nat :=
  if '0' ≤ c && c ≤ '9' then some (c.toNat - '0'.toNat)
  else if 'a' ≤ c && c ≤ 'f' then some (c.toNat - 'a'.toNat + 10)
  else if 'A' ≤ c && c ≤ 'F' then some (c.toNat - 'A'.toNat + 10)
  else none

/-- The number that digits write in a base, if they are digits of that base; no digits write
zero. -/
def read? (base : Nat) (ds : List Char) : Option Nat :=
  ds.foldlM (fun n c => do
    let d ← value? c
    if d < base then return n * base + d else none) 0

end PanelClient.Digits
