import PanelClient.Proofs.Number.Binary64
import PanelClient.Proofs.Text.Split

/-!
# Decimal texts and what they say

A decimal with a fixed count of places is read back as the number of units of the last place that it
was written for.

* `Decimal.read?` : the value and the count of places of a decimal;
* `Decimal.read?_positional` : what is written is read back;
* `Binary64.exists_toFixed` : a number is printed as the nearest decimal with that many places.
-/

namespace PanelClient

namespace Decimal

/-- The number that a text of digits stands for. -/
def natural? (cs : List Char) : Option ℕ :=
  if cs ≠ [] ∧ cs.all Char.isDigit then some (Nat.ofDigitChars 10 cs 0) else none

/-- The value and the count of places of a decimal: digits, and possibly a point and more digits. -/
def read? (cs : List Char) : Option (ℚ × ℕ) :=
  match split (· == '.') cs with
  | [whole] => do
    let n ← natural? whole
    return (n, 0)
  | [whole, fraction] => do
    let n ← natural? whole
    let m ← natural? fraction
    return (n + m / 10 ^ fraction.length, fraction.length)
  | _ => none

variable {places n : ℕ}

/-! ### Digits -/

theorem isDigit_of_mem {k : ℕ} {c : Char} (hc : c ∈ List.replicate k '0' ++ Nat.toDigits 10 n) :
    c.isDigit = true := by
  rcases List.mem_append.1 hc with hc | hc
  · rw [List.eq_of_mem_replicate hc]
    rfl
  · exact Nat.isDigit_of_mem_toDigits (by decide) (by decide) hc

/-- Zeros in front do not change the number. -/
theorem natural?_zeros_toDigits (k n : ℕ) :
    natural? (List.replicate k '0' ++ Nat.toDigits 10 n) = some n := by
  have hne : List.replicate k '0' ++ Nat.toDigits 10 n ≠ [] := by
    simp [Nat.toDigits_ne_nil]
  have hall : (List.replicate k '0' ++ Nat.toDigits 10 n).all Char.isDigit :=
    List.all_eq_true.2 fun c hc => isDigit_of_mem hc
  rw [natural?, if_pos ⟨hne, hall⟩, Nat.ofDigitChars_append, Nat.ofDigitChars_replicate_zero,
    Nat.mul_zero, Nat.ofDigitChars_ten_toDigits]

theorem toList_padded (places n : ℕ) : (padded places n).toList =
    List.replicate (places - (Nat.toDigits 10 n).length) '0' ++ Nat.toDigits 10 n := by
  rw [padded, String.toList_ofList]

theorem length_padded (hp : 0 < places) (hn : n < 10 ^ places) :
    (padded places n).toList.length = places := by
  have hle := (Nat.length_toDigits_le_iff (b := 10) (by decide) hp).2 hn
  rw [toList_padded, List.length_append, List.length_replicate]
  omega

theorem toList_positional (places n : ℕ) : (positional places n).toList =
    Nat.toDigits 10 (n / 10 ^ places) ++ '.' :: (padded places (n % 10 ^ places)).toList := by
  simp [positional, Nat.toList_repr]

/-- A decimal consists of digits and the point. -/
theorem isDigit_or_eq_of_mem_positional {c : Char} (hc : c ∈ (positional places n).toList) :
    c.isDigit = true ∨ c = '.' := by
  rw [toList_positional, toList_padded, List.mem_append, List.mem_cons] at hc
  rcases hc with hc | rfl | hc
  · exact .inl (isDigit_of_mem (k := 0) hc)
  · exact .inr rfl
  · exact .inl (isDigit_of_mem hc)

/-! ### Reading -/

theorem split_toDigits {isSeparator : Char → Bool} (h : ∀ c, c.isDigit → isSeparator c = false)
    (k n : ℕ) : split isSeparator (List.replicate k '0' ++ Nat.toDigits 10 n) =
      [List.replicate k '0' ++ Nat.toDigits 10 n] :=
  split_of_forall fun c hc => h c (isDigit_of_mem hc)

/-- A decimal is read as the number of units of its last place that it is written for. -/
theorem read?_positional (hp : 0 < places) (n : ℕ) :
    read? (positional places n).toList = some ((n : ℚ) / 10 ^ places, places) := by
  have hpoint : ∀ c : Char, c.isDigit → (c == '.') = false := by
    rintro c hc
    rw [beq_eq_false_iff_ne]
    rintro rfl
    exact absurd hc (by decide)
  have hsplit : split (· == '.') (positional places n).toList =
      [Nat.toDigits 10 (n / 10 ^ places), (padded places (n % 10 ^ places)).toList] := by
    rw [toList_positional, split_append_cons (by rfl), toList_padded, split_toDigits hpoint]
    have := split_toDigits hpoint 0 (n / 10 ^ places)
    rw [List.replicate_zero, List.nil_append] at this
    rw [this]
    rfl
  have hwhole : natural? (Nat.toDigits 10 (n / 10 ^ places)) = some (n / 10 ^ places) :=
    natural?_zeros_toDigits 0 _
  have hfraction : natural? (padded places (n % 10 ^ places)).toList = some (n % 10 ^ places) := by
    rw [toList_padded, natural?_zeros_toDigits]
  have hlength := length_padded hp (Nat.mod_lt n (Nat.pow_pos (by decide : 0 < 10)))
  have hvalue : ((n / 10 ^ places : ℕ) : ℚ) + ((n % 10 ^ places : ℕ) : ℚ) / 10 ^ places =
      n / 10 ^ places := by
    have hten : (10 : ℚ) ^ places ≠ 0 := by positivity
    have hdm : ((10 ^ places * (n / 10 ^ places) + n % 10 ^ places : ℕ) : ℚ) = n := by
      rw [Nat.div_add_mod]
    push_cast at hdm
    rw [eq_div_iff hten, add_mul, div_mul_cancel₀ _ hten, mul_comm]
    exact_mod_cast hdm
  simp only [read?, hsplit, hwhole, hfraction, hlength, Option.bind_eq_bind, Option.bind_some,
    Option.pure_def, hvalue]

end Decimal

/-- A number that is not negative is printed as the nearest decimal with the given count of places,
of two equally near ones that with an even last digit. -/
theorem Binary64.exists_toFixed {x : Binary64} (hx : x.negative = false) (places : ℕ) :
    ∃ m, IsNearest (x.value * 10 ^ places) m ∧ x.toFixed places = Decimal.positional places m := by
  refine ⟨roundDiv (x.units * 10 ^ places) unitsPerOne, ?_, ?_⟩
  · have h := isNearest_roundDiv (x.units * 10 ^ places) unitsPerOne_pos
    rw [Nat.cast_mul, mul_div_right_comm, ← value_of_nonneg hx, Nat.cast_pow] at h
    exact h
  · simp [toFixed, Decimal.fixed, hx]

end PanelClient
