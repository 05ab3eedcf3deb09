import PanelClient.Number.Decimal
/-!
# Amounts of memory

* `Memory.scale`: an amount in the first unit of which no more than 1024 are left;
* `Memory.ofKib`: an amount of KiB in that unit, with three places.
-/

namespace PanelClient.Memory

/-- The units, each 1024 times the one before. -/
def units : List String := ["KiB", "MiB", "GiB", "TiB"]

/-- How many of a unit make up one of the next. -/
def perNext : Binary64 := Binary64.ofNat 1024

/-- The amount `value` of the first unit, divided by 1024 as long as it is more than that and there
is a next unit; and the unit arrived at. The quotients are finite: they get smaller. -/
def scale (value : Binary64) : List String → Binary64 × String
  | unit :: next :: larger =>
    if perNext.lt value then scale ((value.div perNext).getD value) (next :: larger)
    else (value, unit)
  | [unit] => (value, unit)
  | [] => (value, "")

/-- The text of an amount of KiB. -/
def ofKib (kib : UInt64) : String :=
  if kib = 0 then "0 KiB"
  else
    let (value, unit) := scale (Binary64.ofNat kib.toNat) units
    value.toFixed 3 ++ " " ++ unit

end PanelClient.Memory
