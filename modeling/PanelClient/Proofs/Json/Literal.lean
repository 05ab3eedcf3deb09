import PanelClient.Json.Value
import PanelClient.Proofs.Json.Token

/-!
# Strings and whole numbers, written and read

A string is written with escapes, a whole number in decimal digits. What is written is read as one
token, from which the string or the number is got back.

* `Token.scan_quoted` : between quotes, each character is read as `Piece.written` says, and
  `Piece.text_map_written` gives the string back;
* `Token.scan_number` : a whole number is read digit by digit if no more of a number follows it
  (`Delimited`), and `Numeral.value?_ofInt` gives the number back.
-/

namespace PanelClient.Json

/-! ### Texts -/

namespace Piece

/-- A character as it stands between quotes: control characters without an escape of their own are
code units. -/
def written (c : Char) : Piece :=
  if c < ' ' ∧ c ∉ ['\x08', '\x0c', '\n', '\r', '\t'] then .unit c.toNat else .char c

theorem chars_written (c : Char) (ps : List Piece) :
    chars (written c :: ps) = (c :: ·) <$> chars ps := by
  rw [written]
  split_ifs with hc
  · have hlt : c.toNat < 32 := hc.1
    have hlead : isLead c.toNat = false := by simp [isLead]; omega
    have htrail : isTrail c.toNat = false := by simp [isTrail]; omega
    rw [chars.eq_def]
    simp only [hlead, htrail, Bool.false_eq_true, if_false, Char.ofNat_toNat]
  · rfl

theorem text_map_written (s : String) : text (s.toList.map written) = some s := by
  have h : ∀ cs : List Char, chars (cs.map written) = some cs := by
    intro cs
    induction cs with
    | nil => rfl
    | cons c cs ih => rw [List.map_cons, chars_written, ih]; rfl
  rw [text, h]
  simp

end Piece

theorem codeUnit?_hexDigit {n : Nat} (hn : n < 32) :
    codeUnit? '0' '0' (Value.hexDigit (n / 16)) (Value.hexDigit (n % 16)) = some n := by
  have h : ∀ i : Fin 32, codeUnit? '0' '0' (Value.hexDigit (i.1 / 16)) (Value.hexDigit (i.1 % 16)) =
      some i.1 := by decide +kernel
  exact h ⟨n, hn⟩

theorem scanQuoted_cons {c : Char} (hquote : c ≠ '"') (hback : c ≠ '\\') (hc : ¬ c < ' ')
    (r : List Char) : scanQuoted (c :: r) = (.char c :: (scanQuoted r).1, (scanQuoted r).2) := by
  rw [scanQuoted, if_neg hc]
  all_goals
    intros
    contradiction

theorem scanQuoted_escape (c : Char) (r : List Char) :
    scanQuoted (Value.escape c ++ r) = (Piece.written c :: (scanQuoted r).1, (scanQuoted r).2) := by
  unfold Value.escape
  split
  -- the seven characters with an escape of one letter
  iterate 7 rfl
  next hquote hback hb hf hn hr ht =>
  split_ifs with hc
  · have hnamed : c ∉ ['\x08', '\x0c', '\n', '\r', '\t'] := by
      simp only [List.mem_cons, List.not_mem_nil, or_false, not_or]
      exact ⟨hb, hf, hn, hr, ht⟩
    rw [Piece.written, if_pos ⟨hc, hnamed⟩]
    simp only [List.cons_append, List.nil_append, scanQuoted, codeUnit?_hexDigit (n := c.toNat) hc]
  · rw [Piece.written, if_neg fun h => hc h.1, List.singleton_append,
      scanQuoted_cons hquote hback hc]

theorem scanQuoted_flatMap_escape (cs r : List Char) :
    scanQuoted (cs.flatMap Value.escape ++ '"' :: r) = (cs.map Piece.written, .closed r) := by
  induction cs with
  | nil => rfl
  | cons c cs ih =>
    rw [List.flatMap_cons, List.append_assoc, scanQuoted_escape, ih]
    rfl

/-! ### Whole numbers -/

/-- What can follow a value inside an array or object, or after the whole text. -/
def Delimited (r : List Char) : Prop := ∀ c ∈ r.head?, c = ',' ∨ c = ']' ∨ c = '}'

theorem delimited_cons {c : Char} (hc : c ∈ [',', ']', '}']) (r : List Char) :
    Delimited (c :: r) := by
  rintro _ ⟨⟩
  simpa using hc

namespace Numeral

/-- The digits of a number. -/
def digits (n : Nat) : List Nat := (Nat.toDigits 10 n).map fun c => c.toNat - '0'.toNat

theorem ofDigits_digits (n : Nat) : ofDigits (digits n) = n := by
  have h : ∀ (cs : List Char) (i : Nat), Nat.ofDigitChars 10 cs i =
      (cs.map fun c => c.toNat - '0'.toNat).foldl (fun n d => n * 10 + d) i := by
    intro cs
    induction cs with
    | nil => intro i; rfl
    | cons c cs ih =>
      intro i
      rw [Nat.ofDigitChars_cons, ih, List.map_cons, List.foldl_cons, Nat.mul_comm]
  rw [ofDigits, digits, ← h, Nat.ofDigitChars_ten_toDigits]

/-- A number does not begin with a zero, unless it is zero. -/
theorem digits_cases (n : Nat) : digits n = [0] ∨ ∃ d ds, digits n = (d + 1) :: ds := by
  induction n using Nat.strongRecOn with
  | ind n ih =>
    rw [digits, Nat.toDigits_eq_if (by decide)]
    split_ifs with hn
    · have hdigit : n.digitChar.toNat - '0'.toNat = n := Nat.toNat_digitChar_sub_48_of_lt_ten hn
      cases n with
      | zero => exact .inl rfl
      | succ n => exact .inr ⟨n, [], by rw [List.map_singleton, hdigit]⟩
    · rw [List.map_append]
      rcases ih (n / 10) (by omega) with hzero | ⟨d, ds, hcons⟩
      · have hvalue := ofDigits_digits (n / 10)
        have : n / 10 = 0 := by rw [← hvalue, hzero]; rfl
        omega
      · exact .inr ⟨d, _, by rw [← digits, hcons]; rfl⟩

theorem spanDigits_append {ds r : List Char} (hds : ∀ c ∈ ds, c.isDigit = true)
    (hr : ∀ c ∈ r.head?, c.isDigit = false) :
    spanDigits (ds ++ r) = (ds.map fun c => c.toNat - '0'.toNat, r) := by
  induction ds with
  | nil =>
    cases r with
    | nil => rfl
    | cons c r => simp [spanDigits, hr c rfl]
  | cons c ds ih =>
    rw [List.cons_append, spanDigits, if_pos (hds c List.mem_cons_self),
      ih fun c hc => hds c (List.mem_cons_of_mem _ hc)]
    rfl

theorem isDigit_of_mem_toDigits (n : Nat) : ∀ c ∈ Nat.toDigits 10 n, c.isDigit = true := fun _ hc =>
  Nat.isDigit_of_mem_toDigits (by decide) (by decide) hc

theorem toString_ofNat (n : Nat) : (toString (Int.ofNat n)).toList = Nat.toDigits 10 n :=
  String.toList_ofList

theorem toString_negSucc (n : Nat) :
    (toString (Int.negSucc n)).toList = '-' :: Nat.toDigits 10 (n + 1) := by
  change ("-" ++ String.ofList (Nat.toDigits 10 (n + 1))).toList = _
  simp

section Delimited

variable {r : List Char} (hr : Delimited r)
include hr

theorem scanWhole_toDigits (n : Nat) : scanWhole (Nat.toDigits 10 n ++ r) = .ok (digits n, r) := by
  have hspan : spanDigits (Nat.toDigits 10 n ++ r) = (digits n, r) :=
    spanDigits_append (isDigit_of_mem_toDigits n) fun c hc => by
      rcases hr c hc with rfl | rfl | rfl <;> rfl
  rw [scanWhole, hspan]
  rcases digits_cases n with h | ⟨d, ds, h⟩ <;> simp only [h]

theorem scanFraction_of_delimited : scanFraction r = .ok ([], r) := by
  cases r with
  | nil => rfl
  | cons c r => rcases hr c rfl with rfl | rfl | rfl <;> rfl

theorem scanExponent_of_delimited : scanExponent r = .ok (none, r) := by
  cases r with
  | nil => rfl
  | cons c r => rcases hr c rfl with rfl | rfl | rfl <;> rfl

theorem scan_toDigits (n : Nat) :
    scan (Nat.toDigits 10 n ++ r) = .ok (⟨false, digits n, [], none⟩, r) := by
  obtain ⟨c, cs, hcons⟩ := List.exists_cons_of_ne_nil (Nat.toDigits_ne_nil (n := n) (b := 10))
  have hwhole := scanWhole_toDigits hr n
  rw [hcons, List.cons_append] at hwhole ⊢
  have hc : c ≠ '-' := by
    rintro rfl
    exact absurd (isDigit_of_mem_toDigits n '-' (by simp [hcons])) (by decide)
  rw [scan]
  · simp only [hwhole, bind, Except.bind, scanFraction_of_delimited hr,
      scanExponent_of_delimited hr]
    rfl
  · rintro r' heq
    exact hc (List.cons.inj heq).1

theorem scan_minus_toDigits (n : Nat) :
    scan ('-' :: (Nat.toDigits 10 n ++ r)) = .ok (⟨true, digits n, [], none⟩, r) := by
  rw [scan]
  simp only [scanWhole_toDigits hr n, bind, Except.bind, scanFraction_of_delimited hr,
    scanExponent_of_delimited hr]
  rfl

/-- A whole number is read digit by digit. -/
theorem scan_ofInt (i : Int) : scan ((toString i).toList ++ r) = .ok (ofInt i, r) := by
  cases i with
  | ofNat n =>
    rw [toString_ofNat, scan_toDigits hr]
    simp [ofInt, digits]
  | negSucc n =>
    rw [toString_negSucc, List.cons_append, scan_minus_toDigits hr]
    simp [ofInt, digits]

end Delimited

/-- A whole number that 64 bits hold is read back. -/
theorem value?_ofInt {i : Int} (hlow : -(wordLimit : Int) ≤ 2 * i) (hhigh : i < wordLimit) :
    (ofInt i).value? = some (.int i) := by
  have hdigits : ofDigits (ofInt i).whole = i.natAbs := ofDigits_digits _
  have habs : i.natAbs < wordLimit := by
    have : 0 < wordLimit := by decide
    omega
  rw [value?, hdigits, if_pos ⟨rfl, rfl, habs⟩]
  by_cases hi : i < 0
  · have hneg : -(i.natAbs : Int) = i := by omega
    rw [if_neg (by simp [ofInt, hi]), if_pos (by omega), hneg]
  · have hpos : (i.natAbs : Int) = i := by omega
    rw [if_pos (by simpa [ofInt] using hi), hpos]

end Numeral

/-! ### The tokens of what is written -/

namespace Token

theorem scan_quoted (s : String) (r : List Char) :
    scan (Value.quoted s ++ r) = .string (s.toList.map Piece.written) :: scan r := by
  have hquoted : Value.quoted s ++ r = '"' :: (s.toList.flatMap Value.escape ++ '"' :: r) := by
    simp [Value.quoted]
  rw [hquoted, scan_cons rfl]
  simp only [first, scanQuoted_flatMap_escape, ofQuoted]

/-- A token that begins with a digit or a minus sign is a number. -/
theorem first_numeral {c : Char} (hc : (c == '-' || c.isDigit) = true) (r : List Char) :
    isBlank c = false ∧ first c r = ofNumeral (c :: r) := by
  have hne : ∀ d, (d == '-' || d.isDigit) = false → c ≠ d := by
    rintro d hd rfl
    exact absurd hc (by simp [hd])
  constructor
  · simp [isBlank, hne ' ' rfl, hne '\n' rfl, hne '\t' rfl, hne '\r' rfl]
  · unfold first
    split
    iterate 10 exact absurd rfl (hne _ rfl)
    exact if_pos hc

/-- A whole number begins with a digit or a minus sign. -/
theorem toString_int_cons (i : Int) :
    ∃ c cs, (toString i).toList = c :: cs ∧ (c == '-' || c.isDigit) = true := by
  cases i with
  | ofNat n =>
    obtain ⟨c, cs, hcons⟩ := List.exists_cons_of_ne_nil (Nat.toDigits_ne_nil (n := n) (b := 10))
    have hc := Numeral.isDigit_of_mem_toDigits n c (by simp [hcons])
    exact ⟨c, cs, by rw [Numeral.toString_ofNat, hcons], by simp [hc]⟩
  | negSucc n => exact ⟨'-', _, Numeral.toString_negSucc n, rfl⟩

theorem scan_number (i : Int) {r : List Char} (hr : Delimited r) :
    scan ((toString i).toList ++ r) = .number (.ofInt i) :: scan r := by
  have hscan := Numeral.scan_ofInt hr i
  obtain ⟨c, cs, hcons, hc⟩ := toString_int_cons i
  rw [hcons, List.cons_append] at hscan ⊢
  obtain ⟨hblank, hfirst⟩ := first_numeral hc (cs ++ r)
  rw [scan_cons hblank, hfirst]
  simp only [ofNumeral, hscan]

end Token

end PanelClient.Json
