import Mathlib.Tactic.SplitIfs
import PanelClient.Text.Percent

/-!
# Percent-encoding and back

The bytes of a text are written one by one: some stand for themselves, each of the others is an
escape. Whichever they are, as long as they are ASCII and `%` is not among them, the written form can
be read back.

* `Percent.write` : the written form of bytes of which those with `plain` stand for themselves;
* `Percent.Written` : the characters of a written form, plain ones and well-formed escapes
  (`Percent.written_write`), and no others (`Percent.Written.not_mem`);
* `Percent.decode_write` : what is read back is what was written, and so `Percent.decode_encode`;
* `Percent.all_encode` : what the characters of a written form have in common.
-/

namespace PanelClient.Percent

/-- The written form of bytes of which those with `plain` stand for themselves. -/
def write (plain : UInt8 → Bool) (bs : List UInt8) : List Char :=
  bs.flatMap fun b => if plain b then [Char.ofNat b.toNat] else escape b

/-- A hexadecimal digit in upper case. -/
def isUpperHex (c : Char) : Bool := c.isDigit || ('A' ≤ c && c ≤ 'F')

/-- Plain characters and escapes of two hexadecimal digits in upper case. -/
inductive Written (plain : Char → Bool) : List Char → Prop
  | nil : Written plain []
  | plain {c : Char} {r : List Char} (hc : plain c = true) (h : Written plain r) :
      Written plain (c :: r)
  | escape {x y : Char} {r : List Char} (hx : isUpperHex x = true) (hy : isUpperHex y = true)
      (h : Written plain r) : Written plain ('%' :: x :: y :: r)

/-- Bytes can be told from escapes when they stand for themselves: they are ASCII and not `%`. -/
def Legible (plain : UInt8 → Bool) : Prop := ∀ b, plain b = true → b < 128 ∧ b ≠ 37

/-! ### Bytes -/

/-- What holds of the numbers below 256 holds of all bytes. -/
theorem forall_byte {P : UInt8 → Prop} (h : ∀ i : Fin 256, P (UInt8.ofFin i)) (b : UInt8) :
    P b := by
  rw [← UInt8.ofFin_toFin b]
  exact h b.toFin

theorem toList_loop (bytes : ByteArray) (i : Nat) (r : List UInt8) :
    ByteArray.toList.loop bytes i r = r.reverse ++ bytes.data.toList.drop i := by
  rw [ByteArray.toList.loop]
  split_ifs with h
  · have hi : i < bytes.data.toList.length := h
    rw [toList_loop bytes (i + 1), List.reverse_cons, List.append_assoc,
      List.drop_eq_getElem_cons hi]
    simp [ByteArray.get!, getElem!_pos bytes.data i h]
  · rw [List.drop_of_length_le (by simpa using h), List.append_nil]
termination_by bytes.size - i

theorem byteArray_toList (bytes : ByteArray) : bytes.toList = bytes.data.toList := by
  rw [ByteArray.toList, toList_loop]
  rfl

theorem fromUTF8?_toUTF8 (s : String) :
    String.fromUTF8? (ByteArray.mk s.toUTF8.toList.toArray) = some s := by
  rw [byteArray_toList, Array.toArray_toList, String.toUTF8_eq_toByteArray, String.fromUTF8?,
    dif_pos s.isValidUTF8]
  rfl

theorem isUnreserved_legible : Legible isUnreserved := by
  unfold Legible
  apply forall_byte
  decide +kernel

/-! ### One byte, written and read -/

theorem isUpperHex_hexDigit {n : Nat} (hn : n < 16) : isUpperHex (hexDigit n) = true := by
  have h : ∀ i : Fin 16, isUpperHex (hexDigit i) = true := by decide +kernel
  exact h ⟨n, hn⟩

theorem value?_hexDigit {n : Nat} (hn : n < 16) : Digits.value? (hexDigit n) = some n := by
  have h : ∀ i : Fin 16, Digits.value? (hexDigit i) = some i.1 := by decide +kernel
  exact h ⟨n, hn⟩

theorem byte_digits (b : UInt8) : b.toNat / 16 < 16 ∧ b.toNat % 16 < 16 := by
  have := b.toNat_lt
  omega

theorem ne_percent_of_isUnreserved (b : UInt8) :
    isUnreserved b = true → Char.ofNat b.toNat ≠ '%' := by
  revert b
  apply forall_byte
  decide +kernel

/-- An escape is `%` and two digits, which tell the byte. -/
theorem escape_digits (b : UInt8) : ∃ x y, escape b = ['%', x, y] ∧ x ≠ '%' ∧ y ≠ '%' ∧
    ∀ m n, Digits.value? x = some m → Digits.value? y = some n → b = UInt8.ofNat (m * 16 + n) := by
  obtain ⟨hhigh, hlow⟩ := byte_digits b
  have hne : ∀ {n : Nat}, n < 16 → hexDigit n ≠ '%' := fun hn heq => by
    have := isUpperHex_hexDigit hn
    rw [heq] at this
    cases this
  refine ⟨_, _, rfl, hne hhigh, hne hlow, fun m n hm hn => ?_⟩
  rw [value?_hexDigit hhigh] at hm
  rw [value?_hexDigit hlow] at hn
  cases hm
  cases hn
  rw [Nat.div_add_mod', UInt8.ofNat_toNat]

theorem decodeBytes_escape (b : UInt8) (r : List Char) :
    decodeBytes (escape b ++ r) = b :: decodeBytes r := by
  obtain ⟨hhigh, hlow⟩ := byte_digits b
  have hbyte : b.toNat / 16 * 16 + b.toNat % 16 = b.toNat := by omega
  simp only [escape, List.cons_append, List.nil_append, decodeBytes, value?_hexDigit hhigh,
    value?_hexDigit hlow, hbyte, UInt8.ofNat_toNat]

theorem decodeBytes_cons_of_ne {c : Char} (hc : c ≠ '%') (r : List Char) :
    decodeBytes (c :: r) = (String.singleton c).toUTF8.toList ++ decodeBytes r := by
  rw [decodeBytes]
  rintro a b r' rfl
  exact absurd rfl hc

theorem decodeBytes_plain {b : UInt8} (hascii : b < 128) (hb : b ≠ 37) (r : List Char) :
    decodeBytes (Char.ofNat b.toNat :: r) = b :: decodeBytes r := by
  have h : ∀ b : UInt8, b < 128 → b ≠ 37 → Char.ofNat b.toNat ≠ '%' ∧
      (String.singleton (Char.ofNat b.toNat)).toUTF8.toList = [b] := by
    apply forall_byte
    decide +kernel
  obtain ⟨hne, hbytes⟩ := h b hascii hb
  rw [decodeBytes_cons_of_ne hne, hbytes, List.singleton_append]

/-! ### Many bytes -/

variable {plain : UInt8 → Bool}

theorem write_cons (b : UInt8) (bs : List UInt8) :
    write plain (b :: bs) =
      (if plain b then [Char.ofNat b.toNat] else escape b) ++ write plain bs := rfl

theorem encode_toList (s : String) : (encode s).toList = write isUnreserved s.toUTF8.toList :=
  String.toList_ofList

theorem decodeBytes_write (h : Legible plain) (bs : List UInt8) :
    decodeBytes (write plain bs) = bs := by
  induction bs with
  | nil => rfl
  | cons b bs ih =>
    rw [write_cons]
    split_ifs with hb
    · obtain ⟨hascii, hne⟩ := h b hb
      rw [List.singleton_append, decodeBytes_plain hascii hne, ih]
    · rw [decodeBytes_escape, ih]

/-- **What is read back is what was written.** -/
theorem decode_write (h : Legible plain) (s : String) :
    decode (String.ofList (write plain s.toUTF8.toList)) = some s := by
  rw [decode, String.toList_ofList, decodeBytes_write h, fromUTF8?_toUTF8]

/-- What is decoded is what was encoded. -/
theorem decode_encode (s : String) : decode (encode s) = some s := by
  have hencode : encode s = String.ofList (write isUnreserved s.toUTF8.toList) :=
    String.toList_inj.1 (by rw [encode_toList, String.toList_ofList])
  rw [hencode, decode_write isUnreserved_legible]

theorem encode_injective {s t : String} (h : encode s = encode t) : s = t := by
  have hdecode := congrArg decode h
  rw [decode_encode, decode_encode] at hdecode
  exact Option.some.inj hdecode

theorem encode_eq_empty_iff {s : String} : encode s = "" ↔ s = "" := by
  have hempty : encode "" = "" := by decide +kernel
  constructor
  · intro h
    exact encode_injective (h.trans hempty.symm)
  · rintro rfl
    exact hempty

/-- What holds of the written forms of all bytes holds of that of a text. -/
theorem all_encode {P : Char → Bool} (h : ∀ b, (encodeByte b).all P = true) (s : String) :
    (encode s).toList.all P = true := by
  rw [encode, String.toList_ofList, List.all_flatMap, List.all_eq_true]
  exact fun b _ => h b

/-- A written form consists of plain characters and well-formed escapes. -/
theorem written_write {isPlain : Char → Bool}
    (h : ∀ b, plain b = true → isPlain (Char.ofNat b.toNat) = true) (bs : List UInt8) :
    Written isPlain (write plain bs) := by
  induction bs with
  | nil => exact .nil
  | cons b bs ih =>
    rw [write_cons]
    split_ifs with hb
    · exact .plain (h b hb) ih
    · obtain ⟨hhigh, hlow⟩ := byte_digits b
      exact .escape (isUpperHex_hexDigit hhigh) (isUpperHex_hexDigit hlow) ih

theorem Written.of_mem {isPlain : Char → Bool} {cs : List Char} (h : Written isPlain cs) {c : Char}
    (hc : c ∈ cs) : isPlain c = true ∨ c = '%' ∨ isUpperHex c = true := by
  induction h with
  | nil => cases hc
  | plain hp _ ih =>
    rcases List.mem_cons.1 hc with rfl | hc
    · exact .inl hp
    · exact ih hc
  | escape hx hy _ ih =>
    simp only [List.mem_cons] at hc
    rcases hc with rfl | rfl | rfl | hc
    · exact .inr (.inl rfl)
    · exact .inr (.inr hx)
    · exact .inr (.inr hy)
    · exact ih hc

/-- Characters that are neither plain nor belong to escapes do not occur in a written form. -/
theorem Written.not_mem {isPlain : Char → Bool} {cs others : List Char} (h : Written isPlain cs)
    (hothers : others.all (fun c => !(isPlain c || c == '%' || isUpperHex c)) = true) {c : Char}
    (hc : c ∈ others) : c ∉ cs := by
  intro hmem
  have hnone := List.all_eq_true.1 hothers c hc
  rcases h.of_mem hmem with hplain | rfl | hhex
  · simp [hplain] at hnone
  · simp at hnone
  · simp [hhex] at hnone

end PanelClient.Percent
