import Mathlib.Tactic.SplitIfs
import PanelClient.Json.Token

/-!
# Scanning

A text is scanned token by token: a token takes at least one character, and what stands after it is
scanned on its own.

* `Token.scan_cons` : the tokens of a text that does not begin with a blank are its first token and
  the tokens of what stands after it.
-/

namespace PanelClient.Json

/-- Reading goes well if all its parts do. -/
theorem bind_eq_ok {ε β γ : Type} {x : Except ε β} {f : β → Except ε γ} {c : γ} :
    x >>= f = .ok c ↔ ∃ b, x = .ok b ∧ f b = .ok c := by
  cases x <;> simp [bind, Except.bind]

namespace Numeral

variable {text r : List Char}

theorem spanDigits_suffix (text : List Char) : (spanDigits text).2 <:+ text := by
  induction text with
  | nil => exact List.suffix_rfl
  | cons c r ih =>
    rw [spanDigits]
    split_ifs
    · exact ih.trans (List.suffix_cons c r)
    · exact List.suffix_rfl

theorem scanWhole_suffix {c : Char} {ds : List Nat} {rest : List Char}
    (h : scanWhole (c :: r) = .ok (ds, rest)) : rest <:+ r := by
  cases hc : c.isDigit with
  | true =>
    have hrest := spanDigits_suffix r
    simp only [scanWhole, spanDigits, hc, if_true] at h
    split at h
    · cases h
    · cases h
    · next heq =>
      simp only [Prod.mk.injEq] at heq
      simp only [Except.ok.injEq, Prod.mk.injEq] at h
      rwa [← h.2, ← heq.2]
  | false => simp [scanWhole, spanDigits, hc] at h

theorem scanFraction_suffix {ds : List Nat} (h : scanFraction text = .ok (ds, r)) : r <:+ text := by
  unfold scanFraction at h
  split at h
  · next r' =>
    have hrest := spanDigits_suffix r'
    split at h
    · cases h
    · next heq =>
      simp only [Except.ok.injEq, Prod.mk.injEq] at h
      rw [heq, h.2] at hrest
      exact hrest.trans (List.suffix_cons _ _)
  · simp only [Except.ok.injEq, Prod.mk.injEq] at h
    exact h.2 ▸ List.suffix_rfl

theorem scanExponent_suffix {e : Option Int} (h : scanExponent text = .ok (e, r)) : r <:+ text := by
  unfold scanExponent at h
  split at h
  · next c r' =>
    split_ifs at h
    · refine List.IsSuffix.trans ?_ (List.suffix_cons c r')
      -- after the sign, if there is one, stand the digits
      split at h
      next sign digits hsign =>
      have hdigits : digits <:+ r' := by
        split at hsign <;> cases hsign
        · exact List.suffix_cons _ _
        · exact List.suffix_cons _ _
        · exact List.suffix_rfl
      have hrest := (spanDigits_suffix digits).trans hdigits
      split at h
      · cases h
      · next heq =>
        simp only [Except.ok.injEq, Prod.mk.injEq] at h
        rwa [heq, h.2] at hrest
    · simp only [Except.ok.injEq, Prod.mk.injEq] at h
      exact h.2 ▸ List.suffix_rfl
  · simp only [Except.ok.injEq, Prod.mk.injEq] at h
    exact h.2 ▸ List.suffix_rfl

/-- A number takes at least one character. -/
theorem scan_suffix {c : Char} {n : Numeral} {rest : List Char}
    (h : scan (c :: r) = .ok (n, rest)) : rest <:+ r := by
  unfold scan at h
  split at h
  next negative text hsign =>
  have hwhole : ∀ ds r', scanWhole text = .ok (ds, r') → r' <:+ r := by
    intro ds r' h'
    split at hsign
    · next heq =>
      cases hsign
      cases heq
      cases r with
      | nil => simp [scanWhole, spanDigits] at h'
      | cons d r => exact (scanWhole_suffix h').trans (List.suffix_cons d r)
    · cases hsign
      exact scanWhole_suffix h'
  obtain ⟨⟨whole, r₁⟩, hw, h⟩ := bind_eq_ok.1 h
  obtain ⟨⟨fraction, r₂⟩, hf, h⟩ := bind_eq_ok.1 h
  obtain ⟨⟨exponent, r₃⟩, he, h⟩ := bind_eq_ok.1 h
  cases h
  exact (scanExponent_suffix he).trans ((scanFraction_suffix hf).trans (hwhole _ _ hw))

end Numeral

theorem scanQuoted_suffix {text rest : List Char} (h : (scanQuoted text).2 = .closed rest) :
    rest <:+ text := by
  fun_induction scanQuoted text with
  | case2 r => cases h; exact List.suffix_cons _ _
  | case3 a b c d r u hu ps e hscan ih =>
    rw [hscan] at ih
    exact (ih h).trans ((List.suffix_append ['\\', 'u', a, b, c, d] r))
  | case7 c r _ _ x _ ps e hscan ih =>
    rw [hscan] at ih
    exact (ih h).trans (List.suffix_append ['\\', c] r)
  | case10 c r _ _ _ _ _ _ ps e hscan ih =>
    rw [hscan] at ih
    exact (ih h).trans (List.suffix_cons c r)
  -- the scan breaks off
  | case1 | case4 | case5 | case6 | case8 | case9 => cases h

namespace Token

variable {c : Char} {r rest : List Char} {t : Token}

theorem afterWord_suffix {word text : List Char} (h : afterWord word text = .ok rest) :
    rest <:+ text := by
  fun_induction afterWord word text with
  | case1 r => cases h; exact List.suffix_rfl
  | case2 => cases h
  | case3 ws c r ih => exact (ih h).trans (List.suffix_cons _ _)
  | case4 => cases h

theorem ofWord_suffix {w : Char} {word : List Char} (t : Token) :
    (ofWord t (w :: word) (c :: r)).2 <:+ r := by
  unfold ofWord
  cases h : afterWord (w :: word) (c :: r) with
  | error f => exact List.nil_suffix
  | ok rest =>
    rw [afterWord] at h
    split_ifs at h
    exact afterWord_suffix h

theorem ofNumeral_suffix : (ofNumeral (c :: r)).2 <:+ r := by
  unfold ofNumeral
  split
  · next h => exact Numeral.scan_suffix h
  · exact List.nil_suffix

theorem ofQuoted_suffix : (ofQuoted (scanQuoted r).1 (scanQuoted r).2).2 <:+ r := by
  cases h : (scanQuoted r).2 with
  | closed rest => exact scanQuoted_suffix h
  | cut f => exact List.nil_suffix

/-- What stands after a token stands after its first character. -/
theorem first_suffix (c : Char) (r : List Char) : (first c r).2 <:+ r := by
  unfold first
  split
  iterate 6 exact List.suffix_rfl
  · exact ofQuoted_suffix
  iterate 3 exact ofWord_suffix _
  · split_ifs
    · exact ofNumeral_suffix
    · exact List.nil_suffix

theorem scanUpTo_eq {m n : Nat} {text : List Char} (hm : text.length ≤ m) (hn : text.length ≤ n) :
    scanUpTo m text = scanUpTo n text := by
  -- a step takes one from the bound and at least one character from the text
  induction m generalizing n text with
  | zero =>
    cases List.eq_nil_of_length_eq_zero (Nat.le_zero.1 hm)
    cases n <;> rfl
  | succ m ih =>
    cases text with
    | nil => cases n <;> rfl
    | cons c r =>
      cases n with
      | zero => simp at hn
      | succ n =>
        have hm' := Nat.le_of_succ_le_succ hm
        have hn' := Nat.le_of_succ_le_succ hn
        have hrest := (first_suffix c r).length_le
        simp only [scanUpTo, ih hm' hn', ih (Nat.le_trans hrest hm') (Nat.le_trans hrest hn')]

/-- The tokens of a text that does not begin with a blank. -/
theorem scan_cons (hc : isBlank c = false) :
    scan (c :: r) = (first c r).1 :: scan (first c r).2 := by
  rw [scan, List.length_cons, scanUpTo, hc]
  simp only [Bool.false_eq_true, if_false, scan,
    scanUpTo_eq (first_suffix c r).length_le (Nat.le_refl _)]

/-! ### Punctuation and words -/

@[simp] theorem scan_openArray (r : List Char) : scan ('[' :: r) = .openArray :: scan r :=
  scan_cons rfl

@[simp] theorem scan_closeArray (r : List Char) : scan (']' :: r) = .closeArray :: scan r :=
  scan_cons rfl

@[simp] theorem scan_openObject (r : List Char) : scan ('{' :: r) = .openObject :: scan r :=
  scan_cons rfl

@[simp] theorem scan_closeObject (r : List Char) : scan ('}' :: r) = .closeObject :: scan r :=
  scan_cons rfl

@[simp] theorem scan_comma (r : List Char) : scan (',' :: r) = .comma :: scan r := scan_cons rfl

@[simp] theorem scan_colon (r : List Char) : scan (':' :: r) = .colon :: scan r := scan_cons rfl

@[simp] theorem scan_null (r : List Char) :
    scan ('n' :: 'u' :: 'l' :: 'l' :: r) = .null :: scan r := scan_cons rfl

@[simp] theorem scan_true (r : List Char) :
    scan ('t' :: 'r' :: 'u' :: 'e' :: r) = .bool true :: scan r := scan_cons rfl

@[simp] theorem scan_false (r : List Char) :
    scan ('f' :: 'a' :: 'l' :: 's' :: 'e' :: r) = .bool false :: scan r := scan_cons rfl

end Token

end PanelClient.Json
