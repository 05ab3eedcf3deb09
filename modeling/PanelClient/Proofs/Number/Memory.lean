import PanelClient.Number.Memory
import PanelClient.Proofs.Number.Decimal

/-!
# Memory figures are accurate and never go backwards

The divisions by 1024 are exact: they lower the exponent of a number that is far from the least one.
So the number printed is the amount as a binary64 number, divided by a power of 1024 and rounded to
three places once. At most 1024 of a unit are left unless there is no larger one, and more than one
unless there is no smaller one; this is why figures in different units are in the right order.

* `Memory.Arrives`, `Memory.exists_arrives` : what the divisions arrive at;
* `Memory.Figure.read?` : what a figure says;
* `Memory.Printed` : how a number in KiB is printed, and `Memory.Printed.quantity_le`, that larger
  ones are not printed as smaller amounts;
* `Memory.figures_accurate` : the figures of all amounts.
-/

namespace PanelClient

namespace Memory

open Binary64

/-! ### The divisions -/

/-- `x` can be divided by 1024 for `n` times without rounding. -/
structure DividesExactly (n : ℕ) (x : Binary64) : Prop where
  /-- The number is not negative. -/
  nonneg : x.negative = false
  /-- The number is in range. -/
  lt : x.units < overflowUnits
  /-- The magnitude has zeros to lose. -/
  exact : ∃ w, IsMagnitude w ∧ x.units = w * 1024 ^ n

variable {n : ℕ} {x : Binary64}

theorem value_perNext : perNext.value = 1024 :=
  (rounds_ofNat (by norm_num) (by norm_num)).eq_of_eq (isFinite_natCast (t := 1024) (by norm_num))
    (value_natCast 1024)

theorem units_perNext_pos : 0 < perNext.units := by
  have hunits : (perNext.units : ℚ) = 1024 * unitsPerOne := by
    rw [units_eq rfl, value_perNext]
  have hpos : (0 : ℚ) < perNext.units := by
    rw [hunits]
    exact mul_pos (by norm_num) cast_unitsPerOne_pos
  exact_mod_cast hpos

/-- One division by 1024. -/
theorem DividesExactly.div_perNext (h : DividesExactly (n + 1) x) :
    ∃ z, x.div perNext = some z ∧ z.value = x.value / 1024 ∧ DividesExactly n z := by
  obtain ⟨w, hw, hx⟩ := h.exact
  have hunits : x.units = w * 1024 ^ n * 1024 := by rw [hx, Nat.pow_succ, Nat.mul_assoc]
  have hfinite : IsFinite ⟨false, w * 1024 ^ n⟩ := by
    constructor
    · rw [show 1024 = 2 ^ 10 by norm_num, ← Nat.pow_mul]
      exact hw.mul_two_pow _
    · exact lt_of_le_of_lt (by dsimp only; omega) h.lt
  have hvalue : x.value = (⟨false, w * 1024 ^ n⟩ : Binary64).value * 1024 := by
    rw [value_of_nonneg h.nonneg, value_of_nonneg rfl, hunits]
    push_cast
    ring
  refine ⟨⟨false, w * 1024 ^ n⟩, ?_, ?_, rfl, hfinite.lt, w, hw, rfl⟩
  · exact div_eq h.nonneg rfl units_perNext_pos rfl hfinite (by rw [value_perNext, hvalue])
  · rw [hvalue, mul_div_cancel_right₀ _ (by norm_num)]

/-- The divisions lead from `x` to `y` in the unit of index `u`. -/
structure Arrives (us : List String) (x y : Binary64) (u : ℕ) : Prop where
  /-- It is one of the units. -/
  lt : u < us.length
  /-- This is what the loop returns. -/
  scale : scale x us = (y, us[u])
  /-- The result is not negative. -/
  nonneg : y.negative = false
  /-- The result is the exact quotient. -/
  value : y.value = x.value / 1024 ^ u
  /-- More than 1024 are left before each division. -/
  before : ∀ v < u, 1024 ^ (v + 1) < x.value
  /-- No more than 1024 are left in the end, unless the units are used up. -/
  after : u + 1 < us.length → x.value ≤ 1024 ^ (u + 1)

/-- Without a division. -/
theorem Arrives.zero {unit : String} {rest : List String} (hx : x.negative = false)
    (hle : rest ≠ [] → x.value ≤ 1024) (hscale : Memory.scale x (unit :: rest) = (x, unit)) :
    Arrives (unit :: rest) x x 0 where
  lt := Nat.zero_lt_succ _
  scale := hscale
  nonneg := hx
  value := by rw [pow_zero, div_one]
  before v hv := absurd hv (Nat.not_lt_zero v)
  after hlt := by
    rw [zero_add, pow_one]
    exact hle (List.ne_nil_of_length_pos (Nat.lt_of_succ_lt_succ hlt))

/-- One division more. -/
theorem Arrives.succ {unit : String} {rest : List String} {y z : Binary64} {u : ℕ}
    (h : Arrives rest z y u) (hz : z.value = x.value / 1024) (hmore : 1024 < x.value)
    (hscale : Memory.scale x (unit :: rest) = Memory.scale z rest) :
    Arrives (unit :: rest) x y (u + 1) where
  lt := Nat.succ_lt_succ h.lt
  scale := hscale.trans h.scale
  nonneg := h.nonneg
  value := by rw [h.value, hz, div_div, pow_succ, mul_comm]
  before v hv := by
    cases v with
    | zero => rwa [zero_add, pow_one]
    | succ v =>
      have hlt := h.before v (Nat.lt_of_succ_lt_succ hv)
      rwa [hz, lt_div_iff₀ (by norm_num), ← pow_succ] at hlt
  after hlast := by
    have hle := h.after (Nat.lt_of_succ_lt_succ hlast)
    rwa [hz, div_le_iff₀ (by norm_num), ← pow_succ] at hle

/-- The divisions arrive somewhere, by induction on the units that are left. -/
theorem exists_arrives (us : List String) (hne : us ≠ []) (x : Binary64)
    (hx : DividesExactly (us.length - 1) x) : ∃ y u, Arrives us x y u := by
  induction us generalizing x with
  | nil => exact absurd rfl hne
  | cons unit rest ih =>
    cases rest with
    | nil => exact ⟨x, 0, .zero hx.nonneg (fun h => absurd rfl h) rfl⟩
    | cons next larger =>
      cases hlt : perNext.lt x with
      | false =>
        have hle : x.value ≤ 1024 := by
          rw [← value_perNext, ← not_lt, ← lt_iff, hlt]
          exact Bool.false_ne_true
        exact ⟨x, 0, .zero hx.nonneg (fun _ => hle) (by simp [Memory.scale, hlt])⟩
      | true =>
        have hmore : 1024 < x.value := by rwa [← value_perNext, ← lt_iff]
        obtain ⟨z, hdiv, hz, hexact⟩ := hx.div_perNext
        obtain ⟨y, u, hy⟩ := ih (List.cons_ne_nil _ _) z hexact
        exact ⟨y, u + 1, hy.succ hz hmore (by simp [Memory.scale, hlt, hdiv])⟩

/-- An amount is so far from the least number that it can be divided three times. -/
theorem dividesExactly_ofNat {kib : ℕ} (hkib : 0 < kib) (hlt : kib < 2 ^ 64) :
    DividesExactly 3 (ofNat kib) := by
  have hfinite := (rounds_ofNat hkib hlt).finite
  have hone : (1 : ℚ) ≤ (ofNat kib).value := by
    exact_mod_cast le_value_ofNat hkib hlt (show 1 ≤ 2 ^ 53 by norm_num) hkib
  have hle : unitsPerOne ≤ (ofNat kib).units := by
    have : (unitsPerOne : ℚ) ≤ (ofNat kib).units := by
      rw [units_eq rfl]
      exact le_mul_of_one_le_left cast_unitsPerOne_pos.le hone
    exact_mod_cast this
  have hlarge : 2 ^ (53 + 30) ≤ unitsPerOne := by decide +kernel
  obtain ⟨w, hw, hunits⟩ := hfinite.magnitude.exists_mul_two_pow (hlarge.trans hle)
  exact ⟨rfl, hfinite.lt, w, hw, by rw [hunits]; norm_num⟩

/-! ### What is printed -/

/-- `d` KiB are printed as `m` thousandths of the unit of index `u`. -/
structure Printed (d : ℚ) (u m : ℕ) : Prop where
  /-- It is one of the units. -/
  lt : u < units.length
  /-- Except in the smallest unit there is more than one of it. -/
  low : u ≠ 0 → 1024 ^ u < d
  /-- Except in the largest unit there are not more than 1024 of it. -/
  high : u + 1 < units.length → d ≤ 1024 ^ (u + 1)
  /-- The quotient is rounded to thousandths, ties to even. -/
  nearest : IsNearest (d / 1024 ^ u * 10 ^ 3) m

namespace Printed

variable {d d' : ℚ} {u u' m m' v : ℕ}

theorem le (h : Printed d u m) (hu : u + 1 < units.length) : m ≤ 1024 * 10 ^ 3 := by
  have hpow : (0 : ℚ) < 1024 ^ u := by positivity
  have hquotient : d / 1024 ^ u ≤ 1024 := by
    rw [div_le_iff₀ hpow, mul_comm, ← pow_succ]
    exact h.high hu
  exact h.nearest.le_of_le (.of_eq rfl) (by push_cast; linarith)

theorem ge (h : Printed d u m) (hu : u ≠ 0) : 10 ^ 3 ≤ m := by
  have hpow : (0 : ℚ) < 1024 ^ u := by positivity
  have hquotient : 1 < d / 1024 ^ u := by
    rw [lt_div_iff₀ hpow, one_mul]
    exact h.low hu
  exact (IsNearest.of_eq rfl).le_of_le h.nearest (by push_cast; linarith)

/-- Larger numbers are printed in the same unit or a larger one. -/
theorem unit_le (h : Printed d u m) (h' : Printed d' u' m') (hle : d ≤ d') : u ≤ u' := by
  by_contra! hgt
  have hchain : (1024 : ℚ) ^ u < 1024 ^ (u' + 1) :=
    calc (1024 : ℚ) ^ u < d := h.low (by omega)
      _ ≤ d' := hle
      _ ≤ 1024 ^ (u' + 1) := h'.high (lt_of_le_of_lt hgt h.lt)
  have := (pow_lt_pow_iff_right₀ (by norm_num : (1 : ℚ) < 1024)).1 hchain
  omega

/-- **Figures never go backwards.** In one unit this is so because rounding is monotone. In different
units the smaller figure says at most 1024, and the larger one at least one. -/
theorem quantity_le (h : Printed d u m) (h' : Printed d' u' m') (hle : d ≤ d') :
    (m : ℚ) / 10 ^ 3 * 1024 ^ u ≤ m' / 10 ^ 3 * 1024 ^ u' := by
  rcases (h.unit_le h' hle).lt_or_eq with hlt | rfl
  · have hm : (m : ℚ) ≤ 1024 * 10 ^ 3 := by exact_mod_cast h.le (lt_of_le_of_lt hlt h'.lt)
    have hm' : (10 : ℚ) ^ 3 ≤ m' := by exact_mod_cast h'.ge (by omega)
    calc (m : ℚ) / 10 ^ 3 * 1024 ^ u ≤ 1024 * 1024 ^ u := by gcongr; linarith
      _ = 1024 ^ (u + 1) := by rw [pow_succ, mul_comm]
      _ ≤ 1024 ^ u' := pow_le_pow_right₀ (by norm_num) hlt
      _ ≤ m' / 10 ^ 3 * 1024 ^ u' := le_mul_of_one_le_left (by positivity) (by linarith)
  · have hm : m ≤ m' := h.nearest.le_of_le h'.nearest (by gcongr)
    gcongr

end Printed

/-- What the text of an amount says: a number with some places, and a unit by its index. -/
structure Figure where
  /-- The number. -/
  number : ℚ
  /-- The count of places. -/
  places : ℕ
  /-- The index of the unit. -/
  unit : ℕ
  deriving DecidableEq

namespace Figure

/-- The amount in KiB. -/
def quantity (f : Figure) : ℚ := f.number * 1024 ^ f.unit

/-- A decimal, a space and the name of a unit. -/
def read? (text : String) : Option Figure :=
  match split (· == ' ') text.toList with
  | [decimal, name] => do
    let (number, places) ← Decimal.read? decimal
    let unit ← ["KiB", "MiB", "GiB", "TiB"].idxOf? (String.ofList name)
    return ⟨number, places, unit⟩
  | _ => none

/-- The units go by the names that a figure is read with, and none has a space in it. -/
theorem idxOf?_units : ∀ (u : ℕ) (hu : u < units.length),
    split (· == ' ') units[u].toList = [units[u].toList] ∧
      ["KiB", "MiB", "GiB", "TiB"].idxOf? units[u] = some u := by
  decide +kernel

theorem read?_positional {places : ℕ} (hp : 0 < places) (m : ℕ) {u : ℕ} (hu : u < units.length) :
    read? (Decimal.positional places m ++ " " ++ units[u]) =
      some ⟨(m : ℚ) / 10 ^ places, places, u⟩ := by
  obtain ⟨hname, hindex⟩ := idxOf?_units u hu
  have hdecimal : split (· == ' ') (Decimal.positional places m).toList =
      [(Decimal.positional places m).toList] := by
    refine split_of_forall fun c hc => beq_eq_false_iff_ne.2 ?_
    rintro rfl
    exact absurd (Decimal.isDigit_or_eq_of_mem_positional hc) (by decide)
  have hsplit : split (· == ' ') (Decimal.positional places m ++ " " ++ units[u]).toList =
      [(Decimal.positional places m).toList, units[u].toList] := by
    have hlist : (Decimal.positional places m ++ " " ++ units[u]).toList =
        (Decimal.positional places m).toList ++ ' ' :: units[u].toList := by simp
    rw [hlist, split_append_cons (by rfl), hdecimal, hname]
    rfl
  simp only [read?, hsplit, Decimal.read?_positional hp, String.ofList_toList, hindex,
    Option.bind_eq_bind, Option.bind_some, Option.pure_def]

end Figure

theorem ofKib_zero : ofKib 0 = "0 KiB" := rfl

theorem toNat_pos {kib : UInt64} (hkib : kib ≠ 0) : 0 < kib.toNat :=
  Nat.pos_of_ne_zero fun h => hkib (UInt64.toNat_inj.1 h)

/-- An amount is printed as the figure of its number in the format. -/
theorem exists_printed {kib : UInt64} (hkib : kib ≠ 0) : ∃ u m,
    Printed (ofNat kib.toNat).value u m ∧ Figure.read? (ofKib kib) = some ⟨(m : ℚ) / 10 ^ 3, 3, u⟩ := by
  obtain ⟨y, u, h⟩ := exists_arrives units (List.cons_ne_nil _ _) _
    (dividesExactly_ofNat (toNat_pos hkib) kib.toNat_lt)
  obtain ⟨m, hm, hprint⟩ := exists_toFixed h.nonneg 3
  refine ⟨u, m, ⟨h.lt, fun hu => ?_, h.after, ?_⟩, ?_⟩
  · have := h.before (u - 1) (by omega)
    rwa [Nat.sub_add_cancel (by omega)] at this
  · rwa [h.value] at hm
  · have hlt := h.lt
    have hofKib : ofKib kib = Decimal.positional 3 m ++ " " ++ units[u] := by
      rw [ofKib, if_neg hkib, h.scale]
      dsimp only
      rw [hprint]
    rw [hofKib, Figure.read?_positional (by norm_num) m hlt]

/-! ### Accuracy -/

/-- `u` is the largest unit of which `kib` KiB are more than one, and the smallest if there is
none. -/
structure IsLargestUnit (kib u : ℕ) : Prop where
  /-- It is one of the four units. -/
  lt : u < 4
  /-- There is more than one of it, unless it is the smallest. -/
  more : u ≠ 0 → 1024 ^ u < kib
  /-- It is at least as large as every unit of which there is more than one. -/
  largest : ∀ v < 4, 1024 ^ v < kib → v ≤ u

/-- The figure `f` says how much `kib` KiB are. -/
structure Accurate (kib : ℕ) (f : Figure) : Prop where
  /-- It has three places. -/
  places : f.places = 3
  /-- The unit is the largest of which there is more than one. -/
  unit : IsLargestUnit kib f.unit
  /-- The number is the quotient rounded to three places, ties to even. What is divided is the amount
  itself, or the nearest number of the format if it is above `2 ^ 53`. -/
  rounded : ∃ d : Binary64, Rounds kib d ∧ (kib ≤ 2 ^ 53 → d.value = kib) ∧
    ∃ m : ℕ, f.number = m / 10 ^ 3 ∧ IsNearest (d.value / 1024 ^ f.unit * 10 ^ 3) m
  /-- It is within half a thousandth of the exact quotient, and `2 ^ (-20)` more above `2 ^ 53`. -/
  close : |f.number - kib / 1024 ^ f.unit| ≤ 1 / 2000 + if kib ≤ 2 ^ 53 then 0 else 1 / 2 ^ 20
  /-- It is at most 1024, unless there is no larger unit. -/
  le : f.unit + 1 < 4 → f.number ≤ 1024

section Accuracy

variable {kib u m : ℕ}

theorem Printed.isLargestUnit (hkib : 0 < kib) (hlt : kib < 2 ^ 64)
    (h : Printed (ofNat kib).value u m) : IsLargestUnit kib u := by
  have hpow {v : ℕ} (hv : v < units.length) : (1024 : ℚ) ^ v < (ofNat kib).value ↔ 1024 ^ v < kib := by
    have hsmall : 1024 ^ v < 2 ^ 53 :=
      calc 1024 ^ v ≤ 1024 ^ 3 := Nat.pow_le_pow_right (by norm_num) (Nat.lt_succ_iff.1 hv)
        _ < 2 ^ 53 := by norm_num
    have := lt_value_ofNat_iff hkib hlt hsmall
    rwa [Nat.cast_pow, Nat.cast_ofNat] at this
  refine ⟨h.lt, fun hu => (hpow h.lt).1 (h.low hu), fun v hv hmore => ?_⟩
  by_contra! huv
  have hle : (ofNat kib).value ≤ 1024 ^ (u + 1) := h.high (lt_of_le_of_lt huv hv)
  have hlow : (1024 : ℚ) ^ v < 1024 ^ (u + 1) := lt_of_lt_of_le ((hpow hv).2 hmore) hle
  have := (pow_lt_pow_iff_right₀ (by norm_num : (1 : ℚ) < 1024)).1 hlow
  omega

/-- An amount that is not exact in the format is printed in the largest unit, which scales the error
down. -/
theorem Printed.close (hkib : 0 < kib) (hlt : kib < 2 ^ 64) (h : Printed (ofNat kib).value u m) :
    |(m : ℚ) / 10 ^ 3 - kib / 1024 ^ u| ≤ 1 / 2000 + if kib ≤ 2 ^ 53 then 0 else 1 / 2 ^ 20 := by
  have hpow : (0 : ℚ) < 1024 ^ u := by positivity
  have hround : |(m : ℚ) / 10 ^ 3 - (ofNat kib).value / 1024 ^ u| ≤ 1 / 2000 := by
    have hclose := abs_le.1 h.nearest.close
    rw [abs_le]
    constructor <;> linarith
  have hconvert : |(ofNat kib).value / 1024 ^ u - kib / 1024 ^ u| ≤
      if kib ≤ 2 ^ 53 then 0 else 1 / 2 ^ 20 := by
    have hvalue := abs_value_ofNat_sub_le hkib hlt
    rw [← sub_div, abs_div, abs_of_pos hpow]
    split_ifs at hvalue ⊢ with hle
    · exact div_nonpos_of_nonpos_of_nonneg hvalue hpow.le
    · have hu : u = 3 := by
        have hlargest := (h.isLargestUnit hkib hlt).largest 3 (by decide) (by omega)
        exact le_antisymm (Nat.lt_succ_iff.1 h.lt) hlargest
      subst hu
      rw [div_le_iff₀ hpow]
      linarith
  calc |(m : ℚ) / 10 ^ 3 - kib / 1024 ^ u|
      ≤ |(m : ℚ) / 10 ^ 3 - (ofNat kib).value / 1024 ^ u| +
        |(ofNat kib).value / 1024 ^ u - kib / 1024 ^ u| := abs_sub_le _ _ _
    _ ≤ _ := add_le_add hround hconvert

theorem Printed.accurate (hkib : 0 < kib) (hlt : kib < 2 ^ 64)
    (h : Printed (ofNat kib).value u m) : Accurate kib ⟨(m : ℚ) / 10 ^ 3, 3, u⟩ where
  places := rfl
  unit := h.isLargestUnit hkib hlt
  rounded := ⟨ofNat kib, rounds_ofNat hkib hlt, value_ofNat hkib, m, rfl, h.nearest⟩
  close := h.close hkib hlt
  le hu := by
    have hm : (m : ℚ) ≤ 1024 * 10 ^ 3 := by exact_mod_cast h.le hu
    dsimp only
    linarith

end Accuracy

/-- **Memory figures are accurate and never go backwards.** The text of every amount but zero reads as
a number with three places and a unit: the largest unit of which there is more than one, and the
amount in it, rounded correctly from the amount as a binary64 number. Of two amounts the smaller one
is never printed as more than the larger one, in the same unit or in different ones. -/
theorem figures_accurate :
    ofKib 0 = "0 KiB" ∧
    (∀ kib : UInt64, kib ≠ 0 →
      ∃ f, Figure.read? (ofKib kib) = some f ∧ Accurate kib.toNat f) ∧
    ∀ a b : UInt64, a ≤ b → ∃ f g, Figure.read? (ofKib a) = some f ∧
      Figure.read? (ofKib b) = some g ∧ f.quantity ≤ g.quantity := by
  have hzero : Figure.read? (ofKib 0) = some ⟨0, 0, 0⟩ := by
    rw [ofKib_zero]
    decide +kernel
  refine ⟨ofKib_zero, fun kib hkib => ?_, fun a b hab => ?_⟩
  · obtain ⟨u, m, h, hread⟩ := exists_printed hkib
    exact ⟨_, hread, h.accurate (toNat_pos hkib) kib.toNat_lt⟩
  · by_cases ha : a = 0
    · subst ha
      by_cases hb : b = 0
      · subst hb
        exact ⟨_, _, hzero, hzero, le_rfl⟩
      · obtain ⟨u, m, h, hread⟩ := exists_printed hb
        refine ⟨_, _, hzero, hread, ?_⟩
        simp only [Figure.quantity, zero_mul]
        positivity
    · have hb : b ≠ 0 := by
        rintro rfl
        exact ha (UInt64.le_antisymm hab (UInt64.zero_le))
      obtain ⟨u, m, h, hread⟩ := exists_printed ha
      obtain ⟨u', m', h', hread'⟩ := exists_printed hb
      exact ⟨_, _, hread, hread', h.quantity_le h' (value_ofNat_le (toNat_pos ha) hab b.toNat_lt)⟩

-- where the rounding and the choice of the unit meet
example : [1024 ^ 3 - 1, 1024 ^ 3, 1024 ^ 3 + 1].map ofKib =
    ["1024.000 GiB", "1024.000 GiB", "1.000 TiB"] := by decide +kernel

end Memory

end PanelClient
