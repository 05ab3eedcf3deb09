/-!
# Rounding a quotient to the nearest integer

Every place where this library shortens a number (binary floating point, a fixed count of decimal
places) rounds an exact quotient of natural numbers, ties to the even neighbour.

* `roundDiv`: the nearest integer to `num / den`, ties to even;
* `two_mul_roundDiv_le` and `le_two_mul_roundDiv`: it is at most half a unit away.
-/

namespace PanelClient

/-- The integer nearest to `num / den`, and of two equally near ones the even one. -/
def roundDiv (num den : Nat) : Nat :=
  let q := num / den
  let r := 2 * (num % den)
  if r < den then q else if den < r then q + 1 else q + q % 2

variable {num den : Nat}

/-- The rounded quotient exceeds the exact one by at most half a unit. -/
theorem two_mul_roundDiv_le : 2 * (den * roundDiv num den) ≤ 2 * num + den := by
  have h := Nat.div_add_mod num den
  simp only [roundDiv]
  split
  · omega
  · split
    · rw [Nat.mul_add, Nat.mul_one]; omega
    · rcases Nat.mod_two_eq_zero_or_one (num / den) with hq | hq <;>
        rw [hq] <;> simp only [Nat.mul_add, Nat.mul_zero, Nat.mul_one] <;> omega

/-- The rounded quotient falls short of the exact one by at most half a unit. -/
theorem le_two_mul_roundDiv (hd : 0 < den) :
    2 * num ≤ 2 * (den * roundDiv num den) + den := by
  have h := Nat.div_add_mod num den
  have hr := Nat.mod_lt num hd
  simp only [roundDiv]
  split
  · omega
  · split
    · rw [Nat.mul_add, Nat.mul_one]; omega
    · rcases Nat.mod_two_eq_zero_or_one (num / den) with hq | hq <;>
        rw [hq] <;> simp only [Nat.mul_add, Nat.mul_zero, Nat.mul_one] <;> omega

@[simp] theorem roundDiv_zero_left : roundDiv 0 den = 0 := by
  by_cases h : den = 0
  · subst h; rfl
  · simp [roundDiv, Nat.pos_of_ne_zero h]

@[simp] theorem roundDiv_one : roundDiv num 1 = num := by
  simp [roundDiv, Nat.mod_one]

end PanelClient
