import PanelClient.Number.Decimal
import PanelClient.Proofs.Number.Rounding
import Mathlib.Tactic.Positivity
import Mathlib.Tactic.Ring

/-!
# What the arithmetic of binary64 numbers means

The magnitudes of the format are the multiples of the unit with at most 53 significant bits, below the
overflow threshold. `Binary64.roundUnits` finds the nearest of them, the one with an even significand
if there are two. The reason is that the grid on which it rounds contains all magnitudes from
`2 ^ 52` steps on, and that the quotient is not below that; smaller ones are farther away.

* `Binary64.IsMagnitude` : at most 53 significant bits;
* `Binary64.IsNearestMagnitude` : the magnitude that a rational number is rounded to;
* `Binary64.isNearestMagnitude_roundUnits` : `roundUnits` finds it;
* `Binary64.Rounds` : the same for numbers of the format and their values;
* `Binary64.rounds_ofNat`, `Binary64.div_eq`, `Binary64.lt_iff` : conversion of whole numbers, exact
  quotients, and the order.
-/

namespace PanelClient

namespace Binary64

/-! ### Magnitudes -/

/-- At most 53 significant bits. -/
def IsMagnitude (u : ℕ) : Prop := ∃ m e, m < 2 ^ 53 ∧ u = m * 2 ^ e

/-- The leading bits of a magnitude: at most 53. -/
def significand (u : ℕ) : ℕ := u / 2 ^ coarseness u

/-- `u` is the magnitude nearest to `x`, the one with an even significand if there are two. -/
structure IsNearestMagnitude (x : ℚ) (u : ℕ) : Prop where
  /-- It has at most 53 significant bits. -/
  magnitude : IsMagnitude u
  /-- No other magnitude is nearer. -/
  nearest : ∀ v, IsMagnitude v → |(u : ℚ) - x| ≤ |(v : ℚ) - x|
  /-- If another magnitude is as near, the significand is even. -/
  even : ∀ v, IsMagnitude v → v ≠ u → |(v : ℚ) - x| = |(u : ℚ) - x| → Even (significand u)

theorem isMagnitude_of_le {u : ℕ} (h : u ≤ 2 ^ 53) : IsMagnitude u := by
  rcases h.lt_or_eq with hlt | rfl
  · exact ⟨u, 0, hlt, by simp⟩
  · exact ⟨1, 53, by norm_num, by simp⟩

theorem IsMagnitude.mul_two_pow {u : ℕ} (h : IsMagnitude u) (k : ℕ) : IsMagnitude (u * 2 ^ k) := by
  obtain ⟨m, e, hm, rfl⟩ := h
  exact ⟨m, e + k, hm, by rw [Nat.mul_assoc, ← Nat.pow_add]⟩

/-- A magnitude with many bits has zeros at its end. -/
theorem IsMagnitude.exists_mul_two_pow {u : ℕ} (h : IsMagnitude u) {k : ℕ} (hu : 2 ^ (53 + k) ≤ u) :
    ∃ w, IsMagnitude w ∧ u = w * 2 ^ k := by
  obtain ⟨m, e, hm, rfl⟩ := h
  have hke : k ≤ e := by
    by_contra! hek
    have hlt : m * 2 ^ e < 2 ^ (53 + k) :=
      calc m * 2 ^ e < 2 ^ 53 * 2 ^ e := Nat.mul_lt_mul_of_pos_right hm (Nat.two_pow_pos e)
        _ = 2 ^ (53 + e) := (Nat.pow_add ..).symm
        _ ≤ 2 ^ (53 + k) := Nat.pow_le_pow_right (by omega) (by omega)
    omega
  exact ⟨m * 2 ^ (e - k), ⟨m, e - k, hm, rfl⟩, by
    rw [Nat.mul_assoc, ← Nat.pow_add, Nat.sub_add_cancel hke]⟩

/-! ### The grid of a quotient -/

variable {k : ℕ}

theorem lt_two_pow_coarseness (k : ℕ) : k < 2 ^ (53 + coarseness k) :=
  calc k < 2 ^ (k.log2 + 1) := Nat.lt_log2_self
    _ ≤ 2 ^ (53 + coarseness k) := Nat.pow_le_pow_right (by omega) (by unfold coarseness; omega)

theorem two_pow_coarseness_le (h : coarseness k ≠ 0) : 2 ^ (52 + coarseness k) ≤ k := by
  have hk : k ≠ 0 := by
    rintro rfl
    exact h rfl
  have hlog : 52 + coarseness k = k.log2 := by
    unfold coarseness at h ⊢
    omega
  exact hlog ▸ Nat.log2_self_le hk

theorem coarseness_eq {c : ℕ} (hlow : c ≠ 0 → 2 ^ (52 + c) ≤ k) (hhigh : k < 2 ^ (53 + c)) :
    coarseness k = c := by
  rcases eq_or_ne k 0 with rfl | hk
  · by_contra hc
    exact absurd (hlow (Ne.symm hc)) (by simp)
  · have hlt : k.log2 < 53 + c := (Nat.log2_lt hk).2 hhigh
    have hle : c ≠ 0 → 52 + c ≤ k.log2 := fun hc => (Nat.le_log2 hk).2 (hlow hc)
    unfold coarseness
    omega

/-- A magnitude is on the grid of steps of `2 ^ c`, or below the part of it that has 53 bits. -/
theorem IsMagnitude.grid_or_lt {v : ℕ} (hv : IsMagnitude v) (c : ℕ) :
    (∃ t, v = t * 2 ^ c) ∨ (c ≠ 0 ∧ v < 2 ^ 52 * 2 ^ c) := by
  obtain ⟨m, e, hm, rfl⟩ := hv
  rcases le_or_gt c e with hce | hec
  · refine .inl ⟨m * 2 ^ (e - c), ?_⟩
    rw [Nat.mul_assoc, ← Nat.pow_add, Nat.sub_add_cancel hce]
  · refine .inr ⟨by omega, ?_⟩
    calc m * 2 ^ e < 2 ^ 53 * 2 ^ e := Nat.mul_lt_mul_of_pos_right hm (Nat.two_pow_pos e)
      _ = 2 ^ (53 + e) := (Nat.pow_add ..).symm
      _ ≤ 2 ^ (52 + c) := Nat.pow_le_pow_right (by omega) (by omega)
      _ = 2 ^ 52 * 2 ^ c := Nat.pow_add ..

/-! ### Rounding on the grid -/

section Grid

variable {x : ℚ} {c r : ℕ}

theorem abs_grid_sub (x : ℚ) (c t : ℕ) :
    |((t * 2 ^ c : ℕ) : ℚ) - x| = |(t : ℚ) - x / 2 ^ c| * 2 ^ c := by
  have hstep : (0 : ℚ) < 2 ^ c := by positivity
  rw [← abs_of_pos hstep, ← abs_mul, abs_of_pos hstep, sub_mul, div_mul_cancel₀ _ hstep.ne']
  push_cast
  rfl

theorem significand_grid (hlow : c ≠ 0 → 2 ^ 52 ≤ r) (hhigh : r < 2 ^ 53) :
    significand (r * 2 ^ c) = r := by
  have hc : coarseness (r * 2 ^ c) = c := by
    refine coarseness_eq (fun hc => ?_) ?_
    · rw [Nat.pow_add]
      exact Nat.mul_le_mul_right _ (hlow hc)
    · rw [Nat.pow_add]
      exact Nat.mul_lt_mul_of_pos_right hhigh (Nat.two_pow_pos c)
  rw [significand, hc, Nat.mul_div_cancel _ (Nat.two_pow_pos c)]

theorem even_significand (hlow : c ≠ 0 → 2 ^ 52 ≤ r) (hhigh : r ≤ 2 ^ 53) (hr : Even r) :
    Even (significand (r * 2 ^ c)) := by
  rcases hhigh.lt_or_eq with hlt | rfl
  · rwa [significand_grid hlow hlt]
  · -- a power of two lies on the next coarser grid too
    have hpow : 2 ^ 53 * 2 ^ c = 2 ^ 52 * 2 ^ (c + 1) := by ring
    rw [hpow, significand_grid (fun _ => le_rfl) (by norm_num)]
    exact ⟨2 ^ 51, by norm_num⟩

/-- Rounding on a grid on which the number has 53 bits (or, on the finest grid, at most so many)
finds the nearest magnitude. -/
theorem isNearestMagnitude_grid (hlow : c ≠ 0 → 2 ^ 52 ≤ x / 2 ^ c) (hhigh : x / 2 ^ c ≤ 2 ^ 53)
    (hr : IsNearest (x / 2 ^ c) r) : IsNearestMagnitude x (r * 2 ^ c) := by
  have hstep : (0 : ℚ) < 2 ^ c := by positivity
  have hrlow : c ≠ 0 → 2 ^ 52 ≤ r := fun hc =>
    (IsNearest.of_eq (by norm_num : ((2 ^ 52 : ℕ) : ℚ) = 2 ^ 52)).le_of_le hr (hlow hc)
  have hrhigh : r ≤ 2 ^ 53 :=
    hr.le_of_le (IsNearest.of_eq (by norm_num : ((2 ^ 53 : ℕ) : ℚ) = 2 ^ 53)) hhigh
  have hgrid (t : ℕ) : |((r * 2 ^ c : ℕ) : ℚ) - x| ≤ |((t * 2 ^ c : ℕ) : ℚ) - x| := by
    rw [abs_grid_sub, abs_grid_sub]
    exact mul_le_mul_of_nonneg_right (hr.nearest t) hstep.le
  -- what is below the part of the grid with 53 bits is farther away than its least number
  have hbelow {v : ℕ} (hc : c ≠ 0) (hv : v < 2 ^ 52 * 2 ^ c) :
      |((r * 2 ^ c : ℕ) : ℚ) - x| < |(v : ℚ) - x| := by
    have hx : ((2 ^ 52 * 2 ^ c : ℕ) : ℚ) ≤ x := by
      have := (le_div_iff₀ hstep).1 (hlow hc)
      push_cast
      exact this
    have hvx : (v : ℚ) < ((2 ^ 52 * 2 ^ c : ℕ) : ℚ) := by exact_mod_cast hv
    calc |((r * 2 ^ c : ℕ) : ℚ) - x| ≤ |((2 ^ 52 * 2 ^ c : ℕ) : ℚ) - x| := hgrid _
      _ = x - ((2 ^ 52 * 2 ^ c : ℕ) : ℚ) := by rw [abs_sub_comm, abs_of_nonneg (by linarith)]
      _ < x - v := by linarith
      _ = |(v : ℚ) - x| := by rw [abs_sub_comm, abs_of_nonneg (by linarith)]
  refine ⟨?_, fun v hv => ?_, fun v hv hne htie => ?_⟩
  · exact (isMagnitude_of_le hrhigh).mul_two_pow c
  · rcases hv.grid_or_lt c with ⟨t, rfl⟩ | ⟨hc, hlt⟩
    · exact hgrid t
    · exact (hbelow hc hlt).le
  · rcases hv.grid_or_lt c with ⟨t, rfl⟩ | ⟨hc, hlt⟩
    · refine even_significand hrlow hrhigh (hr.even_of_tie (t := t) ?_ ?_)
      · rintro rfl
        exact hne rfl
      · rw [abs_grid_sub, abs_grid_sub] at htie
        exact mul_right_cancel₀ hstep.ne' htie
    · exact absurd htie (hbelow hc hlt).ne'

end Grid

/-- **Rounding to 53 significant bits is correct**: it finds the magnitude nearest to the exact
quotient, of two equally near ones that with an even significand. -/
theorem isNearestMagnitude_roundUnits (num : ℕ) {den : ℕ} (hd : 0 < den) :
    IsNearestMagnitude (num / den) (roundUnits num den) := by
  have hden : (0 : ℚ) < den := by exact_mod_cast hd
  set c := coarseness (num / den) with hc
  have hstep : (0 : ℚ) < 2 ^ c := by positivity
  have hr := isNearest_roundDiv num (Nat.mul_pos hd (Nat.two_pow_pos c))
  rw [Nat.cast_mul, ← div_div, Nat.cast_pow, Nat.cast_ofNat] at hr
  refine isNearestMagnitude_grid (fun hc0 => ?_) ?_ hr
  · have hle : 2 ^ 52 * 2 ^ c * den ≤ num := by
      rw [← Nat.pow_add]
      exact (Nat.le_div_iff_mul_le hd).1 (two_pow_coarseness_le hc0)
    rw [le_div_iff₀ hstep, le_div_iff₀ hden]
    exact_mod_cast hle
  · have hlt : num < 2 ^ 53 * 2 ^ c * den := by
      rw [← Nat.pow_add]
      exact (Nat.div_lt_iff_lt_mul hd).1 (lt_two_pow_coarseness _)
    rw [div_le_iff₀ hstep, div_le_iff₀ hden]
    exact_mod_cast hlt.le

/-! ### Nearest to a candidate -/

section Nearest

variable {x u w : ℚ}

/-- If the smaller candidate is not nearer, the number is not below the middle of both. -/
theorem add_le_of_nearest (h : |u - x| ≤ |w - x|) (hlt : w < u) : u + w ≤ 2 * x := by
  have hux : u - x ≤ |w - x| := (le_abs_self _).trans h
  rcases abs_cases (w - x) with ⟨habs, -⟩ | ⟨habs, -⟩ <;> linarith

/-- If the greater candidate is not nearer, the number is not above the middle of both. -/
theorem le_add_of_nearest (h : |u - x| ≤ |w - x|) (hlt : u < w) : 2 * x ≤ u + w := by
  have hux : -(u - x) ≤ |w - x| := (neg_le_abs _).trans h
  rcases abs_cases (w - x) with ⟨habs, -⟩ | ⟨habs, -⟩ <;> linarith

theorem le_of_nearest (h : |u - x| ≤ |w - x|) (hle : x ≤ w) : u ≤ w := by
  by_contra! hlt
  have hmiddle := add_le_of_nearest h hlt
  linarith

theorem ge_of_nearest (h : |u - x| ≤ |w - x|) (hle : w ≤ x) : w ≤ u := by
  by_contra! hlt
  have hmiddle := le_add_of_nearest h hlt
  linarith

end Nearest

theorem IsNearestMagnitude.eq_of_isMagnitude {u v : ℕ} (h : IsNearestMagnitude v u)
    (hv : IsMagnitude v) : u = v :=
  le_antisymm (by exact_mod_cast le_of_nearest (h.nearest v hv) le_rfl)
    (by exact_mod_cast ge_of_nearest (h.nearest v hv) le_rfl)

/-! ### Numbers and their values -/

theorem unitsPerOne_eq : unitsPerOne = 2 ^ 1074 := by decide +kernel

theorem unitsPerOne_pos : 0 < unitsPerOne := by decide +kernel

theorem cast_unitsPerOne_pos : (0 : ℚ) < unitsPerOne := by exact_mod_cast unitsPerOne_pos

theorem overflowUnits_eq : overflowUnits = 2 ^ 1024 * unitsPerOne := by decide +kernel

/-- The rational number that `x` stands for. -/
def value (x : Binary64) : ℚ := (if x.negative then -1 else 1) * (x.units / unitsPerOne)

/-- The finite numbers of the format. -/
structure IsFinite (x : Binary64) : Prop where
  /-- The magnitude has at most 53 significant bits. -/
  magnitude : IsMagnitude x.units
  /-- The magnitude is in range. -/
  lt : x.units < overflowUnits

/-- `x` is the number of the format nearest to `q`, with an even significand if there are two. -/
structure Rounds (q : ℚ) (x : Binary64) : Prop where
  /-- It is a number of the format. -/
  finite : x.IsFinite
  /-- No other one is nearer. -/
  nearest : ∀ y : Binary64, y.IsFinite → |x.value - q| ≤ |y.value - q|
  /-- If another one is as near, the significand is even. -/
  even : ∀ y : Binary64, y.IsFinite → y.value ≠ x.value → |y.value - q| = |x.value - q| →
    Even (significand x.units)

section Value

variable {x y z : Binary64} {q : ℚ}

theorem value_of_nonneg (hx : x.negative = false) : x.value = x.units / unitsPerOne := by
  rw [value, hx, if_neg Bool.false_ne_true, one_mul]

theorem units_eq (hx : x.negative = false) : (x.units : ℚ) = x.value * unitsPerOne := by
  rw [value_of_nonneg hx, div_mul_cancel₀ _ cast_unitsPerOne_pos.ne']

theorem abs_value_sub (hx : x.negative = false) (q : ℚ) :
    |x.value - q| * unitsPerOne = |(x.units : ℚ) - q * unitsPerOne| := by
  rw [units_eq hx, ← sub_mul, abs_mul, abs_of_pos cast_unitsPerOne_pos]

theorem value_nonneg (u : ℕ) : 0 ≤ (⟨false, u⟩ : Binary64).value := by
  rw [value_of_nonneg rfl]
  positivity

theorem value_neg (u : ℕ) : (⟨true, u⟩ : Binary64).value = -(⟨false, u⟩ : Binary64).value := by
  rw [value_of_nonneg (x := ⟨false, u⟩) rfl, value, if_pos rfl, neg_one_mul]

/-- Without its sign a number is at least as near to one that is not negative. -/
theorem abs_value_sub_le (hq : 0 ≤ q) (x : Binary64) :
    |(⟨false, x.units⟩ : Binary64).value - q| ≤ |x.value - q| := by
  obtain ⟨_ | _, u⟩ := x
  · exact le_rfl
  · have hv := value_nonneg u
    rw [value_neg, abs_of_nonpos (by linarith : -(⟨false, u⟩ : Binary64).value - q ≤ 0)]
    exact abs_le.2 ⟨by linarith, by linarith⟩

/-- If it is as near to a positive number with its sign, the sign does not count. -/
theorem value_eq_of_abs_le (hq : 0 < q)
    (h : |x.value - q| ≤ |(⟨false, x.units⟩ : Binary64).value - q|) :
    x.value = (⟨false, x.units⟩ : Binary64).value := by
  obtain ⟨_ | _, u⟩ := x
  · rfl
  · have hv := value_nonneg u
    rw [value_neg, abs_of_nonpos (by linarith : -(⟨false, u⟩ : Binary64).value - q ≤ 0)] at h
    rw [value_neg]
    rcases abs_cases ((⟨false, u⟩ : Binary64).value - q) with ⟨habs, -⟩ | ⟨habs, -⟩ <;> linarith

/-- The nearest magnitude to a positive number is the nearest number of the format. -/
theorem rounds_of_isNearestMagnitude {u : ℕ} (hq : 0 < q)
    (h : IsNearestMagnitude (q * unitsPerOne) u) (hu : u < overflowUnits) : Rounds q ⟨false, u⟩ := by
  have hpositive (v : ℕ) (hv : IsMagnitude v) :
      |(⟨false, u⟩ : Binary64).value - q| ≤ |(⟨false, v⟩ : Binary64).value - q| := by
    refine le_of_mul_le_mul_right ?_ cast_unitsPerOne_pos
    rw [abs_value_sub rfl, abs_value_sub rfl]
    exact h.nearest v hv
  refine ⟨⟨h.magnitude, hu⟩, fun y hy => ?_, fun y hy hne htie => ?_⟩
  · exact (hpositive _ hy.magnitude).trans (abs_value_sub_le hq.le y)
  · have hpos : y.value = (⟨false, y.units⟩ : Binary64).value :=
      value_eq_of_abs_le hq (htie.le.trans (hpositive _ hy.magnitude))
    rw [hpos] at hne htie
    refine h.even y.units hy.magnitude (fun hyu => hne (by rw [hyu])) ?_
    rw [← abs_value_sub (x := ⟨false, y.units⟩) rfl, ← abs_value_sub (x := ⟨false, u⟩) rfl, htie]

namespace Rounds

theorem le_of_le (h : Rounds q x) (hy : y.IsFinite) (hle : q ≤ y.value) : x.value ≤ y.value :=
  le_of_nearest (h.nearest y hy) hle

theorem ge_of_ge (h : Rounds q x) (hy : y.IsFinite) (hle : y.value ≤ q) : y.value ≤ x.value :=
  ge_of_nearest (h.nearest y hy) hle

theorem eq_of_eq (h : Rounds q x) (hy : y.IsFinite) (heq : y.value = q) : x.value = q :=
  le_antisymm (heq ▸ h.le_of_le hy heq.ge) (heq ▸ h.ge_of_ge hy heq.le)

/-- Rounding is monotone. If the results were in the wrong order, the smaller number would be above
the middle of them and the greater one below it. -/
theorem mono {q' : ℚ} {x' : Binary64} (h : Rounds q x) (h' : Rounds q' x') (hlt : q < q') :
    x.value ≤ x'.value := by
  by_contra! hgt
  have hmiddle := add_le_of_nearest (h.nearest x' h'.finite) hgt
  have hmiddle' := le_add_of_nearest (h'.nearest x h.finite) hgt
  linarith

end Rounds

end Value

/-! ### Operations -/

section Operations

variable {x y z : Binary64} {n : ℕ}

/-- A natural number with at most 53 significant bits is a number of the format. -/
theorem IsMagnitude.isFinite (hn : IsMagnitude n) (hlt : n < 2 ^ 1024) :
    IsFinite ⟨false, n * unitsPerOne⟩ := by
  constructor
  · rw [unitsPerOne_eq]
    exact hn.mul_two_pow _
  · rw [overflowUnits_eq]
    exact Nat.mul_lt_mul_of_pos_right hlt unitsPerOne_pos

theorem value_natCast (n : ℕ) : (⟨false, n * unitsPerOne⟩ : Binary64).value = n := by
  rw [value_of_nonneg rfl, Nat.cast_mul, mul_div_cancel_right₀ _ cast_unitsPerOne_pos.ne']

theorem isFinite_natCast {t : ℕ} (ht : t ≤ 2 ^ 53) : IsFinite ⟨false, t * unitsPerOne⟩ :=
  (isMagnitude_of_le ht).isFinite (lt_of_le_of_lt ht (by decide +kernel))

/-- A positive number of 64 bits is converted to the nearest one of the format. -/
theorem rounds_ofNat (hn : 0 < n) (hlt : n < 2 ^ 64) : Rounds n (ofNat n) := by
  have h := isNearestMagnitude_roundUnits (n * unitsPerOne) Nat.one_pos
  rw [Nat.cast_one, div_one, Nat.cast_mul] at h
  have htop : IsFinite ⟨false, 2 ^ 64 * unitsPerOne⟩ :=
    IsMagnitude.isFinite ⟨1, 64, by norm_num, by norm_num⟩ (by decide +kernel)
  refine rounds_of_isNearestMagnitude (by exact_mod_cast hn) h (lt_of_le_of_lt ?_ htop.lt)
  have hle : (n : ℚ) * unitsPerOne ≤ ((2 ^ 64 * unitsPerOne : ℕ) : ℚ) := by
    exact_mod_cast Nat.mul_le_mul_right _ hlt.le
  exact_mod_cast le_of_nearest (h.nearest _ htop.magnitude) hle

section OfNat

variable (hn : 0 < n) (hlt : n < 2 ^ 64)
include hn

/-- Up to `2 ^ 53` conversion is exact. -/
theorem value_ofNat (hle : n ≤ 2 ^ 53) : (ofNat n).value = n :=
  (rounds_ofNat hn (by omega)).eq_of_eq (isFinite_natCast hle) (value_natCast n)

/-- Conversion is monotone. -/
theorem value_ofNat_le {a : ℕ} (hna : n ≤ a) (ha : a < 2 ^ 64) :
    (ofNat n).value ≤ (ofNat a).value := by
  rcases hna.lt_or_eq with hlt | rfl
  · exact (rounds_ofNat hn (by omega)).mono (rounds_ofNat (by omega) ha) (by exact_mod_cast hlt)
  · exact le_rfl

include hlt

theorem le_value_ofNat {t : ℕ} (ht : t ≤ 2 ^ 53) (hle : t ≤ n) : (t : ℚ) ≤ (ofNat n).value := by
  have hge := (rounds_ofNat hn hlt).ge_of_ge (isFinite_natCast ht)
    (by rw [value_natCast]; exact_mod_cast hle)
  rwa [value_natCast] at hge

/-- Conversion does not move a number across one below `2 ^ 53`. -/
theorem lt_value_ofNat_iff {t : ℕ} (ht : t < 2 ^ 53) : t < (ofNat n).value ↔ t < n := by
  rcases le_or_gt n (2 ^ 53) with hle | hgt
  · rw [value_ofNat hn hle, Nat.cast_lt]
  · have ht' : (t : ℚ) < (2 ^ 53 : ℕ) := by exact_mod_cast ht
    exact iff_of_true (lt_of_lt_of_le ht' (le_value_ofNat hn hlt le_rfl hgt.le)) (by omega)

/-- Above `2 ^ 53` the error is at most `2 ^ 10`: there is a multiple of `2 ^ 11` that near. -/
theorem abs_value_ofNat_sub_le : |(ofNat n).value - n| ≤ if n ≤ 2 ^ 53 then 0 else 2 ^ 10 := by
  split_ifs with hle
  · rw [value_ofNat hn hle, sub_self, abs_zero]
  · set t := (n + 2 ^ 10) / 2 ^ 11 with ht
    have hfinite : IsFinite ⟨false, t * 2 ^ 11 * unitsPerOne⟩ := by
      refine ((isMagnitude_of_le ?_).mul_two_pow 11).isFinite ?_
      · omega
      · exact lt_of_le_of_lt (by omega : t * 2 ^ 11 ≤ 2 ^ 64) (by decide +kernel)
    have hnear := (rounds_ofNat hn hlt).nearest _ hfinite
    rw [value_natCast] at hnear
    refine hnear.trans (abs_le.2 ⟨?_, ?_⟩)
    · have : n ≤ t * 2 ^ 11 + 2 ^ 10 := by omega
      have : (n : ℚ) ≤ ((t * 2 ^ 11 : ℕ) : ℚ) + 2 ^ 10 := by exact_mod_cast this
      linarith
    · have : t * 2 ^ 11 ≤ n + 2 ^ 10 := by omega
      have : ((t * 2 ^ 11 : ℕ) : ℚ) ≤ (n : ℚ) + 2 ^ 10 := by exact_mod_cast this
      linarith

end OfNat

/-- A quotient that is a number of the format is not rounded. -/
theorem div_eq (hx : x.negative = false) (hy : y.negative = false) (hy0 : 0 < y.units)
    (hz : z.negative = false) (hfinite : z.IsFinite) (h : x.value = z.value * y.value) :
    x.div y = some z := by
  have hy0' : (y.units : ℚ) ≠ 0 := by exact_mod_cast hy0.ne'
  have hquotient : ((x.units * unitsPerOne : ℕ) : ℚ) / y.units = z.units := by
    rw [div_eq_iff hy0', Nat.cast_mul, units_eq hx, units_eq hy, units_eq hz, h]
    ring
  have hround : roundUnits (x.units * unitsPerOne) y.units = z.units := by
    have := isNearestMagnitude_roundUnits (x.units * unitsPerOne) hy0
    rw [hquotient] at this
    exact this.eq_of_isMagnitude hfinite.magnitude
  obtain ⟨negative, u⟩ := z
  subst hz
  simp only [div, round, hround, if_pos hfinite.lt, hx, hy, bne_self_eq_false]

/-- The order of the numbers is the order of their values. -/
theorem lt_iff : x.lt y = true ↔ x.value < y.value := by
  have hsigned (z : Binary64) : z.value * unitsPerOne =
      ((if z.negative then -z.units else z.units : ℤ) : ℚ) := by
    rw [value, mul_assoc, div_mul_cancel₀ _ cast_unitsPerOne_pos.ne']
    split_ifs <;> simp
  rw [lt, decide_eq_true_eq, ← Int.cast_lt (R := ℚ), ← hsigned, ← hsigned,
    mul_lt_mul_iff_left₀ cast_unitsPerOne_pos]

end Operations

end Binary64

end PanelClient
