import PanelClient.Number.Rounding
import Mathlib.Data.Rat.Lemmas
import Mathlib.Algebra.Order.Field.Rat
import Mathlib.Tactic.Linarith
import Mathlib.Tactic.FieldSimp

/-!
# What rounding to the nearest integer means

A natural number is nearest to a rational one if it is at most half away from it, and even if it is
just half away. There is one such number only, it grows with the rational number, and `roundDiv`
finds it.

* `IsNearest` : the natural number that a rational one is rounded to;
* `IsNearest.le_of_le` : rounding is monotone; `IsNearest.unique` : it has one result;
* `IsNearest.nearest` and `IsNearest.even_of_tie` : no other natural number is nearer, and the result
  is even if another one is as near;
* `isNearest_roundDiv` : the rounded quotient is nearest to the exact one.
-/

namespace PanelClient

/-- Two natural numbers are at least one apart, also by way of a rational number. -/
theorem one_le_abs_sub_add_abs_sub (x : ℚ) {m n : ℕ} (h : m ≠ n) :
    1 ≤ |(m : ℚ) - x| + |(n : ℚ) - x| :=
  calc (1 : ℚ) ≤ |(m : ℚ) - n| := by
        have : (1 : ℤ) ≤ |(m : ℤ) - n| := Int.one_le_abs (by omega)
        exact_mod_cast this
    _ ≤ |(m : ℚ) - x| + |x - n| := abs_sub_le _ _ _
    _ = |(m : ℚ) - x| + |(n : ℚ) - x| := by rw [abs_sub_comm x]

/-- `n` is the natural number nearest to `x`, the even one if there are two. -/
structure IsNearest (x : ℚ) (n : ℕ) : Prop where
  /-- It is at most half away. -/
  close : |(n : ℚ) - x| ≤ 1 / 2
  /-- It is even if another one is as near. -/
  even : |(n : ℚ) - x| = 1 / 2 → Even n

namespace IsNearest

variable {x y : ℚ} {m n : ℕ}

theorem of_eq (h : (n : ℚ) = x) : IsNearest x n := by
  subst h
  constructor <;> norm_num

/-- Rounding is monotone. The numbers `m` and `n` could only be in the wrong order if both were just
half away, as neighbours, and then one of them is odd. -/
theorem le_of_le (hm : IsNearest x m) (hn : IsNearest y n) (hxy : x ≤ y) : m ≤ n := by
  by_contra! hlt
  have hle : (n : ℚ) + 1 ≤ m := by exact_mod_cast hlt
  have hx := abs_le.1 hm.close
  have hy := abs_le.1 hn.close
  have hmx : |(m : ℚ) - x| = 1 / 2 := by
    rw [abs_of_nonneg (by linarith)]
    linarith
  have hny : |(n : ℚ) - y| = 1 / 2 := by
    rw [abs_of_nonpos (by linarith)]
    linarith
  have hmn : m = n + 1 := by
    have : (m : ℚ) = n + 1 := by linarith
    exact_mod_cast this
  have hodd : Even (n + 1) := hmn ▸ hm.even hmx
  exact (Nat.even_add_one.1 hodd) (hn.even hny)

theorem unique (hm : IsNearest x m) (hn : IsNearest x n) : m = n :=
  le_antisymm (hm.le_of_le hn le_rfl) (hn.le_of_le hm le_rfl)

/-- No other natural number is nearer. -/
theorem nearest (hn : IsNearest x n) (t : ℕ) : |(n : ℚ) - x| ≤ |(t : ℚ) - x| := by
  rcases eq_or_ne t n with rfl | htn
  · exact le_rfl
  · have hsum := one_le_abs_sub_add_abs_sub x htn
    have hclose := hn.close
    linarith

/-- If another natural number is as near, the result is even. -/
theorem even_of_tie (hn : IsNearest x n) {t : ℕ} (htn : t ≠ n)
    (htie : |(t : ℚ) - x| = |(n : ℚ) - x|) : Even n := by
  have hsum := one_le_abs_sub_add_abs_sub x htn
  exact hn.even (le_antisymm hn.close (by linarith))

end IsNearest

variable {num den : ℕ}

/-- The rounded quotient is even if it is just half a unit away from the exact one. -/
theorem even_roundDiv (hd : 0 < den)
    (h : 2 * (den * roundDiv num den) = 2 * num + den ∨
      2 * num = 2 * (den * roundDiv num den) + den) : Even (roundDiv num den) := by
  have hdm := Nat.div_add_mod num den
  have hlt := Nat.mod_lt num hd
  simp only [roundDiv] at h ⊢
  split_ifs at h ⊢ with hlow hhigh
  · omega
  · rw [Nat.mul_add, Nat.mul_one] at h
    omega
  · rw [Nat.even_iff]
    omega

theorem isNearest_roundDiv (num : ℕ) (hd : 0 < den) : IsNearest (num / den) (roundDiv num den) := by
  have hden : (0 : ℚ) < den := by exact_mod_cast hd
  have hhigh : (2 : ℚ) * (den * roundDiv num den) ≤ 2 * num + den := by
    exact_mod_cast two_mul_roundDiv_le
  have hlow : (2 : ℚ) * num ≤ 2 * (den * roundDiv num den) + den := by
    exact_mod_cast le_two_mul_roundDiv hd
  have hdiff : (roundDiv num den : ℚ) - num / den = (den * roundDiv num den - num) / den := by
    field_simp
  constructor
  · rw [hdiff, abs_le, le_div_iff₀ hden, div_le_iff₀ hden]
    constructor <;> linarith
  · intro htie
    rw [hdiff, abs_eq (by norm_num), div_eq_iff hden.ne', div_eq_iff hden.ne'] at htie
    refine even_roundDiv hd (htie.imp (fun h => ?_) fun h => ?_)
    · have : (2 : ℚ) * (den * roundDiv num den) = 2 * num + den := by linarith
      exact_mod_cast this
    · have : (2 : ℚ) * num = 2 * (den * roundDiv num den) + den := by linarith
      exact_mod_cast this

end PanelClient
