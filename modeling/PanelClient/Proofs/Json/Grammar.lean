import Mathlib.Data.List.Forall2
import PanelClient.Json.Read
import PanelClient.Proofs.Json.Text

/-!
# The grammar of JSON

The texts that are JSON, described by their grammar alone, and what is read from them.

* `Grammar.IsValue`, `Grammar.IsElement`, `Grammar.IsObject` : a value, a value with the blanks
  around it, and an object with the texts of its keys and values. A text is JSON if it is an element;
* `Grammar.IsNamed` : what a key says, if none of its surrogates stands alone;
* `Grammar.IsValue.reads` : a reader takes a text of the grammar as a whole and puts one tree in
  place, the same wherever the text stands, that can be passed over;
* `Grammar.IsObject.reads` : the tree of an object has the trees of its members.
-/

namespace PanelClient.Json

namespace Grammar

/-! ### The rules -/

/-- A blank. -/
def IsBlank (c : Char) : Prop := c ∈ [' ', '\n', '\t', '\r']

/-- Blanks, perhaps none. -/
def Blanks (w : List Char) : Prop := ∀ c ∈ w, IsBlank c

/-- A decimal digit. -/
def IsDigit (c : Char) : Prop := '0' ≤ c ∧ c ≤ '9'

/-- A hexadecimal digit, in either case. -/
def IsHexDigit (c : Char) : Prop := IsDigit c ∨ ('a' ≤ c ∧ c ≤ 'f') ∨ ('A' ≤ c ∧ c ≤ 'F')

/-- What stands for one character, or one code unit, between quotes. -/
inductive IsElementary : List Char → Prop where
  | plain {c : Char} (hc : ' ' ≤ c) (hquote : c ≠ '"') (hback : c ≠ '\\') : IsElementary [c]
  | escape {c : Char} (hc : c ∈ ['"', '\\', '/', 'b', 'f', 'n', 'r', 't']) : IsElementary ['\\', c]
  | unit {a b c d : Char} (ha : IsHexDigit a) (hb : IsHexDigit b) (hc : IsHexDigit c)
      (hd : IsHexDigit d) : IsElementary ['\\', 'u', a, b, c, d]

/-- What can stand between quotes. -/
inductive IsInner : List Char → Prop where
  | nil : IsInner []
  | cons {e r : List Char} (he : IsElementary e) (hr : IsInner r) : IsInner (e ++ r)

/-- A string. -/
inductive IsString : List Char → Prop where
  | quoted {t : List Char} (ht : IsInner t) : IsString ('"' :: (t ++ ['"']))

/-- At least one digit. -/
def IsRow (ds : List Char) : Prop := ds ≠ [] ∧ ∀ c ∈ ds, IsDigit c

/-- The digits before the point: no zero stands in front of others. -/
inductive IsWhole : List Char → Prop where
  | zero : IsWhole ['0']
  | row {c : Char} {ds : List Char} (hne : c ≠ '0') (hds : IsRow (c :: ds)) : IsWhole (c :: ds)

/-- A point and digits, or nothing. -/
inductive IsFraction : List Char → Prop where
  | absent : IsFraction []
  | point {ds : List Char} (hds : IsRow ds) : IsFraction ('.' :: ds)

/-- An exponent, or nothing. -/
inductive IsExponent : List Char → Prop where
  | absent : IsExponent []
  | power {e : Char} {sign ds : List Char} (he : e ∈ ['e', 'E']) (hsign : sign ∈ [[], ['+'], ['-']])
      (hds : IsRow ds) : IsExponent (e :: (sign ++ ds))

/-- A number. -/
inductive IsNumber : List Char → Prop where
  | parts {sign whole fraction exponent : List Char} (hsign : sign ∈ [[], ['-']])
      (hwhole : IsWhole whole) (hfraction : IsFraction fraction) (hexponent : IsExponent exponent) :
      IsNumber (sign ++ (whole ++ (fraction ++ exponent)))

mutual

/-- A value. -/
inductive IsValue : List Char → Prop where
  | nullWord : IsValue ['n', 'u', 'l', 'l']
  | trueWord : IsValue ['t', 'r', 'u', 'e']
  | falseWord : IsValue ['f', 'a', 'l', 's', 'e']
  | number {t : List Char} (ht : IsNumber t) : IsValue t
  | string {t : List Char} (ht : IsString t) : IsValue t
  | emptyArray {w : List Char} (hw : Blanks w) : IsValue ('[' :: (w ++ [']']))
  | array {t : List Char} (ht : AreItems t) : IsValue ('[' :: (t ++ [']']))
  | object {members : List (List Char × List Char)} {t : List Char} (ht : IsObject members t) :
      IsValue t

/-- The value `v` with blanks around it. -/
inductive IsElement : List Char → List Char → Prop where
  | padded {before v after : List Char} (hb : Blanks before) (hv : IsValue v) (ha : Blanks after) :
      IsElement v (before ++ (v ++ after))

/-- Elements with commas between them. -/
inductive AreItems : List Char → Prop where
  | last {v t : List Char} (ht : IsElement v t) : AreItems t
  | next {v t r : List Char} (ht : IsElement v t) (hr : AreItems r) : AreItems (t ++ ',' :: r)

/-- An object; the keys and values of its members are listed. -/
inductive IsObject : List (List Char × List Char) → List Char → Prop where
  | empty {w : List Char} (hw : Blanks w) : IsObject [] ('{' :: (w ++ ['}']))
  | braces {members : List (List Char × List Char)} {t : List Char} (ht : AreMembers members t) :
      IsObject members ('{' :: (t ++ ['}']))

/-- The key `k`, a colon and the value `v`. -/
inductive IsMember : List Char → List Char → List Char → Prop where
  | pair {before k after v t : List Char} (hb : Blanks before) (hk : IsString k) (ha : Blanks after)
      (ht : IsElement v t) : IsMember k v (before ++ (k ++ (after ++ ':' :: t)))

/-- Members with commas between them; their keys and values are listed. -/
inductive AreMembers : List (List Char × List Char) → List Char → Prop where
  | last {k v t : List Char} (ht : IsMember k v t) : AreMembers [(k, v)] t
  | next {k v t r : List Char} {members : List (List Char × List Char)} (ht : IsMember k v t)
      (hr : AreMembers members r) : AreMembers ((k, v) :: members) (t ++ ',' :: r)

end

/-! ### Strings -/

theorem IsDigit.isDigit_eq {c : Char} (h : IsDigit c) : c.isDigit = true := by
  have hlow : 48 ≤ c.val := h.1
  have hhigh : c.val ≤ 57 := h.2
  simp [Char.isDigit, hlow, hhigh]

/-- The value of a hexadecimal digit is counted from the first digit of its kind. -/
theorem IsHexDigit.value?_eq {c : Char} (h : IsHexDigit c) :
    ∃ n, Digits.value? c = some n ∧ n < 16 := by
  have count : ∀ {low high : Char}, low ≤ c ∧ c ≤ high →
      c.toNat - low.toNat ≤ high.toNat - low.toNat := fun h => Nat.sub_le_sub_right h.2 _
  rcases h with h | h | h
  · refine ⟨c.toNat - '0'.toNat, by simp [Digits.value?, h.1, h.2], ?_⟩
    have : c.toNat - '0'.toNat ≤ 9 := count h
    omega
  · have hnot : ¬ c ≤ '9' := fun h' => absurd (Char.le_trans h.1 h') (by decide)
    refine ⟨c.toNat - 'a'.toNat + 10, by simp [Digits.value?, h, hnot], ?_⟩
    have : c.toNat - 'a'.toNat ≤ 5 := count h
    omega
  · have hnot : ¬ c ≤ '9' := fun h' => absurd (Char.le_trans h.1 h') (by decide)
    have hnot' : ¬ 'a' ≤ c := fun h' => absurd (Char.le_trans h' h.2) (by decide)
    refine ⟨c.toNat - 'A'.toNat + 10, by simp [Digits.value?, h, hnot, hnot'], ?_⟩
    have : c.toNat - 'A'.toNat ≤ 5 := count h
    omega

theorem codeUnit?_of_isHexDigit {a b c d : Char} (ha : IsHexDigit a) (hb : IsHexDigit b)
    (hc : IsHexDigit c) (hd : IsHexDigit d) : ∃ u, codeUnit? a b c d = some u := by
  obtain ⟨i, hi, hilt⟩ := ha.value?_eq
  obtain ⟨j, hj, hjlt⟩ := hb.value?_eq
  obtain ⟨k, hk, hklt⟩ := hc.value?_eq
  obtain ⟨l, hl, hllt⟩ := hd.value?_eq
  exact ⟨_, by simp [codeUnit?, Digits.read?, hi, hj, hk, hl, hilt, hjlt, hklt, hllt]; rfl⟩

theorem IsElementary.scanQuoted_eq {e : List Char} (h : IsElementary e) :
    ∃ p, ∀ r, scanQuoted (e ++ r) = (p :: (scanQuoted r).1, (scanQuoted r).2) := by
  cases h with
  | @plain c hc hquote hback =>
    exact ⟨.char c, fun r => scanQuoted_cons hquote hback (Char.not_lt.2 hc) r⟩
  | @escape c hc =>
    simp only [List.mem_cons, List.not_mem_nil, or_false] at hc
    rcases hc with rfl | rfl | rfl | rfl | rfl | rfl | rfl | rfl <;> exact ⟨_, fun r => rfl⟩
  | unit ha hb hc hd =>
    obtain ⟨u, hu⟩ := codeUnit?_of_isHexDigit ha hb hc hd
    refine ⟨.unit u, fun r => ?_⟩
    simp only [List.cons_append, List.nil_append, scanQuoted, hu]

theorem IsInner.scanQuoted_eq {t : List Char} (h : IsInner t) :
    ∃ ps, ∀ r, scanQuoted (t ++ '"' :: r) = (ps, .closed r) := by
  induction h with
  | nil => exact ⟨[], fun r => rfl⟩
  | cons he _ ih =>
    obtain ⟨p, hp⟩ := he.scanQuoted_eq
    obtain ⟨ps, hps⟩ := ih
    exact ⟨p :: ps, fun r => by rw [List.append_assoc, hp, hps]⟩

/-- A reader takes the text `k` as a string with the pieces `ps`. -/
def KeyAs (k : List Char) (ps : List Piece) : Prop :=
  ∀ r, Token.scan (k ++ r) = .string ps :: Token.scan r

theorem keyAs_quoted {t : List Char} {ps : List Piece}
    (h : ∀ r, scanQuoted (t ++ '"' :: r) = (ps, .closed r)) : KeyAs ('"' :: (t ++ ['"'])) ps := by
  intro r
  rw [List.cons_append, List.append_assoc, List.singleton_append, Token.scan_cons rfl]
  simp only [Token.first, h, Token.ofQuoted]

theorem KeyAs.pieces_eq {k : List Char} {ps ps' : List Piece} (h : KeyAs k ps) (h' : KeyAs k ps') :
    ps = ps' := by
  have hscan := (h []).symm.trans (h' [])
  exact Token.string.inj (List.cons.inj hscan).1

/-- A string is one token. -/
theorem IsString.keyAs {t : List Char} (h : IsString t) : ∃ ps, KeyAs t ps := by
  obtain ⟨ht⟩ := h
  obtain ⟨ps, hps⟩ := ht.scanQuoted_eq
  exact ⟨ps, keyAs_quoted hps⟩

/-! ### What strings say -/

open Piece in
/-- What stands between quotes says `s`. The escape of a surrogate says nothing alone: one that leads
is followed by one that trails. -/
inductive Says : List Char → List Char → Prop where
  | nil : Says [] []
  | plain {c : Char} {t s : List Char} (hc : ' ' ≤ c) (hquote : c ≠ '"') (hback : c ≠ '\\')
      (h : Says t s) : Says (c :: t) (c :: s)
  | escape {c c' : Char} {t s : List Char} (hc : escaped? c = some c') (h : Says t s) :
      Says ('\\' :: c :: t) (c' :: s)
  | unit {a b c d : Char} {u : Nat} {t s : List Char} (hu : codeUnit? a b c d = some u)
      (hlead : isLead u = false) (htrail : isTrail u = false) (h : Says t s) :
      Says ('\\' :: 'u' :: a :: b :: c :: d :: t) (Char.ofNat u :: s)
  | pair {a b c d a' b' c' d' : Char} {u v : Nat} {t s : List Char}
      (hu : codeUnit? a b c d = some u) (hv : codeUnit? a' b' c' d' = some v)
      (hlead : isLead u = true) (htrail : isTrail v = true) (h : Says t s) :
      Says ('\\' :: 'u' :: a :: b :: c :: d :: '\\' :: 'u' :: a' :: b' :: c' :: d' :: t)
        (paired u v :: s)

/-- The string `k` says `name`. -/
inductive IsNamed : List Char → String → Prop where
  | quoted {t s : List Char} (h : Says t s) : IsNamed ('"' :: (t ++ ['"'])) (String.ofList s)

theorem scanQuoted_escaped {c c' : Char} (hc : escaped? c = some c') (r : List Char) :
    scanQuoted ('\\' :: c :: r) = (.char c' :: (scanQuoted r).1, (scanQuoted r).2) := by
  unfold escaped? at hc
  split at hc <;> cases hc <;> rfl

theorem Says.scanQuoted_eq {t s : List Char} (h : Says t s) :
    ∃ ps, Piece.chars ps = some s ∧ ∀ r, scanQuoted (t ++ '"' :: r) = (ps, .closed r) := by
  induction h with
  | nil => exact ⟨[], rfl, fun r => rfl⟩
  | @plain c _ _ hc hquote hback _ ih =>
    obtain ⟨ps, hchars, hps⟩ := ih
    refine ⟨.char c :: ps, by rw [Piece.chars, hchars]; rfl, fun r => ?_⟩
    rw [List.cons_append, scanQuoted_cons hquote hback (Char.not_lt.2 hc), hps]
  | @escape c c' _ _ hc _ ih =>
    obtain ⟨ps, hchars, hps⟩ := ih
    refine ⟨.char c' :: ps, by rw [Piece.chars, hchars]; rfl, fun r => ?_⟩
    rw [List.cons_append, List.cons_append, scanQuoted_escaped hc, hps]
  | @unit _ _ _ _ u _ _ hu hlead htrail _ ih =>
    obtain ⟨ps, hchars, hps⟩ := ih
    refine ⟨.unit u :: ps, by unfold Piece.chars; simp [hlead, htrail, hchars], fun r => ?_⟩
    simp only [List.cons_append, scanQuoted, hu, hps]
  | @pair _ _ _ _ _ _ _ _ u v _ _ hu hv hlead htrail _ ih =>
    obtain ⟨ps, hchars, hps⟩ := ih
    refine ⟨.unit u :: .unit v :: ps, by unfold Piece.chars; simp [hlead, htrail, hchars], fun r => ?_⟩
    simp only [List.cons_append, scanQuoted, hu, hv, hps]

/-- The pieces of a string spell what it says. -/
theorem IsNamed.text_eq {k : List Char} {name : String} {ps : List Piece} (h : IsNamed k name)
    (hk : KeyAs k ps) : Piece.text ps = some name := by
  obtain ⟨h⟩ := h
  obtain ⟨ps', hchars, hps⟩ := h.scanQuoted_eq
  rw [hk.pieces_eq (keyAs_quoted hps), Piece.text, hchars]
  rfl

/-! ### Numbers -/

/-- What can follow a value: a blank, a comma, a closing bracket, or nothing. -/
def Ends (r : List Char) : Prop := ∀ c ∈ r.head?, IsBlank c ∨ c ∈ [',', ']', '}']

theorem ends_cons {c : Char} (hc : c ∈ [',', ']', '}']) (r : List Char) : Ends (c :: r) := by
  rintro _ ⟨⟩
  exact .inr hc

theorem Ends.append {w r : List Char} (hr : Ends r) (hw : Blanks w) : Ends (w ++ r) := by
  cases w with
  | nil => exact hr
  | cons c w =>
    rintro _ ⟨⟩
    exact .inl (hw c List.mem_cons_self)

section Number

variable {t r : List Char}

theorem Ends.head_ne (hr : Ends r) {c : Char} (hc : c ∈ r.head?) :
    c.isDigit = false ∧ c ≠ '.' ∧ c ≠ 'e' ∧ c ≠ 'E' := by
  have hend := hr c hc
  simp only [IsBlank, List.mem_cons, List.not_mem_nil, or_false] at hend
  rcases hend with (rfl | rfl | rfl | rfl) | rfl | rfl | rfl <;> decide

/-- No digit stands in front. -/
def NoDigit (r : List Char) : Prop := ∀ c ∈ r.head?, c.isDigit = false

theorem Ends.noDigit (hr : Ends r) : NoDigit r := fun _ hc => (hr.head_ne hc).1

theorem IsRow.spanDigits_eq (h : IsRow t) :
    ∃ d ds, ∀ r, NoDigit r → Numeral.spanDigits (t ++ r) = (d :: ds, r) := by
  obtain ⟨hne, hdigits⟩ := h
  obtain ⟨c, cs, rfl⟩ := List.exists_cons_of_ne_nil hne
  exact ⟨_, _, fun r hr => Numeral.spanDigits_append (fun d hd => (hdigits d hd).isDigit_eq) hr⟩

theorem IsExponent.scan_eq (h : IsExponent t) :
    ∃ e, ∀ r, Ends r → Numeral.scanExponent (t ++ r) = .ok (e, r) := by
  cases h with
  | absent =>
    refine ⟨none, fun r hr => ?_⟩
    cases r with
    | nil => rfl
    | cons c r =>
      obtain ⟨-, -, he, hE⟩ := hr.head_ne (c := c) rfl
      simp [Numeral.scanExponent, he, hE]
  | @power e sign ds he hsign hds =>
    obtain ⟨d, ds', hspan⟩ := hds.spanDigits_eq
    have he' : (e == 'e' || e == 'E') = true := by
      simp only [List.mem_cons, List.not_mem_nil, or_false] at he
      rcases he with rfl | rfl <;> rfl
    simp only [List.mem_cons, List.not_mem_nil, or_false] at hsign
    rcases hsign with rfl | rfl | rfl
    · -- without a sign the digits follow at once, and none of them is a sign
      obtain ⟨c, cs, rfl⟩ := List.exists_cons_of_ne_nil hds.1
      have hc := (hds.2 c List.mem_cons_self).isDigit_eq
      refine ⟨some (1 * ofDigits (d :: ds')), fun r hr => ?_⟩
      have hspan' := hspan r hr.noDigit
      rw [List.cons_append] at hspan'
      rw [List.nil_append, List.cons_append, List.cons_append, Numeral.scanExponent, if_pos he']
      · simp only [hspan']
      · rintro r' ⟨⟩
        exact absurd hc (by decide)
      · rintro r' ⟨⟩
        exact absurd hc (by decide)
    · refine ⟨some (1 * ofDigits (d :: ds')), fun r hr => ?_⟩
      simp only [List.cons_append, List.nil_append, Numeral.scanExponent, he', if_true,
        hspan r hr.noDigit]
    · refine ⟨some (-1 * ofDigits (d :: ds')), fun r hr => ?_⟩
      simp only [List.cons_append, List.nil_append, Numeral.scanExponent, he', if_true,
        hspan r hr.noDigit]

/-- What stands after the fraction is no point and no digit. -/
theorem IsExponent.head_ne (h : IsExponent t) (hr : Ends r) :
    ∀ c ∈ (t ++ r).head?, c.isDigit = false ∧ c ≠ '.' := by
  cases h with
  | absent => exact fun c hc => ⟨(hr.head_ne hc).1, (hr.head_ne hc).2.1⟩
  | power he =>
    rintro _ ⟨⟩
    simp only [List.mem_cons, List.not_mem_nil, or_false] at he
    rcases he with rfl | rfl <;> decide

theorem IsFraction.scan_eq (h : IsFraction t) :
    ∃ ds, ∀ r, (∀ c ∈ r.head?, c.isDigit = false ∧ c ≠ '.') →
      Numeral.scanFraction (t ++ r) = .ok (ds, r) := by
  cases h with
  | absent =>
    refine ⟨[], fun r hr => ?_⟩
    cases r with
    | nil => rfl
    | cons c r =>
      rw [List.nil_append, Numeral.scanFraction]
      rintro r' ⟨⟩
      exact (hr '.' rfl).2 rfl
  | point hds =>
    obtain ⟨d, ds', hspan⟩ := hds.spanDigits_eq
    refine ⟨d :: ds', fun r hr => ?_⟩
    simp only [List.cons_append, Numeral.scanFraction, hspan r fun c hc => (hr c hc).1]

/-- What stands after the digits before the point is no digit. -/
theorem IsFraction.noDigit (h : IsFraction t)
    (hr : ∀ c ∈ r.head?, c.isDigit = false ∧ c ≠ '.') : NoDigit (t ++ r) := by
  cases h with
  | absent => exact fun c hc => (hr c hc).1
  | point =>
    rintro _ ⟨⟩
    rfl

theorem IsWhole.scan_eq (h : IsWhole t) :
    ∃ ds, ∀ r, NoDigit r → Numeral.scanWhole (t ++ r) = .ok (ds, r) := by
  cases h with
  | zero =>
    refine ⟨[0], fun r hr => ?_⟩
    have hspan : Numeral.spanDigits (['0'] ++ r) = ([0], r) :=
      Numeral.spanDigits_append (by simp) hr
    simp only [Numeral.scanWhole, hspan]
  | @row c ds hne hds =>
    -- the first digit is not zero, so that any number of digits may follow it
    have hpos : c.toNat - '0'.toNat ≠ 0 := by
      have hlow : '0'.toNat ≤ c.toNat := (hds.2 c List.mem_cons_self).1
      have hzero : c.toNat ≠ '0'.toNat := fun h => hne (Char.toNat_inj.1 h)
      omega
    obtain ⟨n, hn⟩ := Nat.exists_eq_succ_of_ne_zero hpos
    refine ⟨(n + 1) :: ds.map fun d => d.toNat - '0'.toNat, fun r hr => ?_⟩
    have hspan := Numeral.spanDigits_append (fun d hd => (hds.2 d hd).isDigit_eq) hr
    rw [List.map_cons, hn] at hspan
    simp only [Numeral.scanWhole, hspan]

theorem IsWhole.head_eq (h : IsWhole t) : ∃ c cs, t = c :: cs ∧ c.isDigit = true := by
  cases h with
  | zero => exact ⟨_, _, rfl, rfl⟩
  | @row c _ _ hds => exact ⟨c, _, rfl, (hds.2 c List.mem_cons_self).isDigit_eq⟩

/-- A number is scanned as a whole. -/
theorem IsNumber.scan_eq (h : IsNumber t) :
    ∃ n, ∀ r, Ends r → Numeral.scan (t ++ r) = .ok (n, r) := by
  obtain ⟨hsign, hw, hf, he⟩ := h
  obtain ⟨ws, hwhole⟩ := hw.scan_eq
  obtain ⟨fs, hfraction⟩ := hf.scan_eq
  obtain ⟨e, hexponent⟩ := he.scan_eq
  obtain ⟨c, cs, rfl, hc⟩ := hw.head_eq
  have hminus : c ≠ '-' := by
    rintro rfl
    exact absurd hc (by decide)
  simp only [List.mem_cons, List.not_mem_nil, or_false] at hsign
  rcases hsign with rfl | rfl
  · refine ⟨⟨false, ws, fs, e⟩, fun r hr => ?_⟩
    have hafter := he.head_ne hr
    have hwhole' := hwhole _ (hf.noDigit hafter)
    rw [List.cons_append] at hwhole'
    simp only [List.append_assoc, List.nil_append, List.cons_append]
    rw [Numeral.scan]
    · simp only [hwhole', bind, Except.bind, hfraction _ hafter, hexponent r hr]
      rfl
    · rintro r' ⟨⟩
      exact hminus rfl
  · refine ⟨⟨true, ws, fs, e⟩, fun r hr => ?_⟩
    have hafter := he.head_ne hr
    rw [List.append_assoc, List.singleton_append, List.append_assoc, List.append_assoc, Numeral.scan]
    simp only [hwhole _ (hf.noDigit hafter), bind, Except.bind, hfraction _ hafter, hexponent r hr]
    rfl

/-- A number begins with a digit or a minus sign. -/
theorem IsNumber.head_eq (h : IsNumber t) :
    ∃ c cs, t = c :: cs ∧ (c == '-' || c.isDigit) = true := by
  obtain ⟨hsign, hw, -, -⟩ := h
  simp only [List.mem_cons, List.not_mem_nil, or_false] at hsign
  rcases hsign with rfl | rfl
  · obtain ⟨c, cs, rfl, hc⟩ := hw.head_eq
    exact ⟨c, _, rfl, by simp [hc]⟩
  · exact ⟨'-', _, rfl, rfl⟩

end Number

/-! ### Values -/

variable {k v t r w : List Char}

theorem IsBlank.isBlank_eq {c : Char} (h : IsBlank c) : Token.isBlank c = true := by
  simp only [IsBlank, List.mem_cons, List.not_mem_nil, or_false] at h
  rcases h with rfl | rfl | rfl | rfl <;> rfl

theorem Blanks.scan_append (hw : Blanks w) (r : List Char) :
    Token.scan (w ++ r) = Token.scan r := by
  induction w with
  | nil => rfl
  | cons c w ih =>
    have hc := (hw c List.mem_cons_self).isBlank_eq
    rw [List.cons_append, Token.scan, List.length_cons, Token.scanUpTo, if_pos hc]
    exact ih fun d hd => hw d (List.mem_cons_of_mem _ hd)

open Reader

/-- A reader takes the text `v` as one value, with the tree `d`. -/
structure ReadAs (v : List Char) (d : Doc) : Prop where
  skip_eq : d.skip = .ok ()
  foldl_scan {fs : List Frame} {q : Reader} (hq : Awaits fs q) {r : List Char} (hr : Ends r) :
    (Token.scan (v ++ r)).foldl step q = (Token.scan r).foldl step (place fs d)

/-- The keys and values of members are read as `docs`. -/
def MembersAs (members : List (List Char × List Char)) (docs : List (List Piece × Doc)) : Prop :=
  List.Forall₂ (fun m d => KeyAs m.1 d.1 ∧ ReadAs m.2 d.2) members docs

theorem MembersAs.skipMembers_eq {members : List (List Char × List Char)}
    {docs : List (List Piece × Doc)} (h : MembersAs members docs) :
    Doc.skipMembers docs = .ok () := by
  induction h with
  | nil => rfl
  | @cons m d _ _ hm _ ih =>
    rw [Doc.skipMembers, hm.2.skip_eq, ih]
    rfl

/-- A value that is one token. -/
theorem readAs_of_token (token : Token) {d : Doc} (hd : d.skip = .ok ())
    (hclose : token ≠ .closeArray) (hstart : ∀ fs, start fs token = place fs d)
    (hscan : ∀ r, Ends r → Token.scan (v ++ r) = token :: Token.scan r) : ReadAs v d where
  skip_eq := hd
  foldl_scan hq r hr := by rw [hscan r hr, List.foldl_cons, hq token hclose, hstart]

theorem IsNumber.readAs (h : IsNumber t) : ∃ d, ReadAs t d := by
  obtain ⟨n, hn⟩ := h.scan_eq
  obtain ⟨c, cs, rfl, hc⟩ := h.head_eq
  refine ⟨.number n, readAs_of_token (.number n) rfl nofun (fun _ => rfl) fun r hr => ?_⟩
  have hscan := hn r hr
  rw [List.cons_append] at hscan ⊢
  obtain ⟨hblank, hfirst⟩ := Token.first_numeral hc (cs ++ r)
  rw [Token.scan_cons hblank, hfirst]
  simp only [Token.ofNumeral, hscan]

theorem IsString.readAs (h : IsString t) : ∃ d, ReadAs t d := by
  obtain ⟨ps, hps⟩ := h.keyAs
  exact ⟨.string ps, readAs_of_token (.string ps) rfl nofun (fun _ => rfl) fun r _ => hps r⟩

theorem ReadAs.padded {before after : List Char} {d : Doc} (h : ReadAs v d) (hb : Blanks before)
    (ha : Blanks after) : ReadAs (before ++ (v ++ after)) d where
  skip_eq := h.skip_eq
  foldl_scan hq r hr := by
    rw [List.append_assoc, List.append_assoc, hb.scan_append, h.foldl_scan hq (hr.append ha),
      ha.scan_append]

mutual

/-- **A text of the grammar is read as one value.** -/
theorem IsValue.reads {v : List Char} : IsValue v → ∃ d, ReadAs v d
  | .nullWord =>
    ⟨.null, readAs_of_token .null rfl nofun (fun _ => rfl) fun r _ => Token.scan_null r⟩
  | .trueWord =>
    ⟨.bool true, readAs_of_token (.bool true) rfl nofun (fun _ => rfl) fun r _ => Token.scan_true r⟩
  | .falseWord =>
    ⟨.bool false, readAs_of_token (.bool false) rfl nofun (fun _ => rfl) fun r _ =>
      Token.scan_false r⟩
  | .number ht => ht.readAs
  | .string ht => ht.readAs
  | .emptyArray hw => by
    refine ⟨.array [] .closed, rfl, fun {fs q} hq {r} hr => ?_⟩
    rw [List.cons_append, List.append_assoc, Token.scan_openArray, List.foldl_cons,
      hq .openArray nofun, hw.scan_append, List.singleton_append, Token.scan_closeArray]
    rfl
  | .array ht => by
    obtain ⟨ds, hskip, hread⟩ := ht.reads
    refine ⟨.array ds .closed, ?_, fun {fs q} hq {r} hr => ?_⟩
    · rw [Doc.skip, hskip]
      rfl
    · rw [List.cons_append, List.append_assoc, Token.scan_openArray, List.foldl_cons,
        hq .openArray nofun]
      exact hread (awaits_firstItem _) r
  | .object ht => by
    obtain ⟨docs, -, hread⟩ := ht.reads
    exact ⟨_, hread⟩

theorem IsElement.reads {v t : List Char} : IsElement v t → ∃ d, ReadAs v d ∧ ReadAs t d
  | .padded hb hv ha => by
    obtain ⟨d, hd⟩ := hv.reads
    exact ⟨d, hd, hd.padded hb ha⟩

theorem AreItems.reads {t : List Char} : AreItems t →
    ∃ ds, Doc.skipItems ds = .ok () ∧ ∀ {fs : List Frame} {items : List Doc} {q : Reader},
      Awaits (.array items :: fs) q → ∀ r, (Token.scan (t ++ ']' :: r)).foldl step q =
        (Token.scan r).foldl step (place fs (.array (items.reverse ++ ds) .closed))
  | .last ht => by
    obtain ⟨d, -, hd⟩ := ht.reads
    refine ⟨[d], ?_, fun {fs items q} hq r => ?_⟩
    · rw [Doc.skipItems, hd.skip_eq]
      rfl
    · rw [hd.foldl_scan hq (ends_cons (by simp) r), Token.scan_closeArray]
      simp [place, Frame.add, step, close, Frame.toDoc]
  | .next ht hr => by
    obtain ⟨d, -, hd⟩ := ht.reads
    obtain ⟨ds, hskip, hread⟩ := hr.reads
    refine ⟨d :: ds, ?_, fun {fs items q} hq r => ?_⟩
    · rw [Doc.skipItems, hd.skip_eq, hskip]
      rfl
    · rw [List.append_assoc, List.cons_append, hd.foldl_scan hq (ends_cons (by simp) _),
        Token.scan_comma, List.foldl_cons, place, Frame.add, step, hread (awaits_nextItem _)]
      simp

theorem IsObject.reads {members : List (List Char × List Char)} {t : List Char} :
    IsObject members t → ∃ docs, MembersAs members docs ∧ ReadAs t (.object docs .closed)
  | .empty hw => by
    refine ⟨[], .nil, rfl, fun {fs q} hq {r} hr => ?_⟩
    rw [List.cons_append, List.append_assoc, Token.scan_openObject, List.foldl_cons,
      hq .openObject nofun, hw.scan_append, List.singleton_append, Token.scan_closeObject]
    rfl
  | .braces ht => by
    obtain ⟨docs, hdocs, hread⟩ := ht.reads
    refine ⟨docs, hdocs, ?_, fun {fs q} hq {r} hr => ?_⟩
    · rw [Doc.skip, hdocs.skipMembers_eq]
      rfl
    · rw [List.cons_append, List.append_assoc, Token.scan_openObject, List.foldl_cons,
        hq .openObject nofun]
      exact hread (awaitsKey_firstKey _ _) r

theorem IsMember.reads {k v t : List Char} : IsMember k v t →
    ∃ ps d, KeyAs k ps ∧ ReadAs v d ∧ ∀ {fs : List Frame} {members : List (List Piece × Doc)}
      {q : Reader}, AwaitsKey members fs q → ∀ {r : List Char}, Ends r →
        (Token.scan (t ++ r)).foldl step q =
          (Token.scan r).foldl step (.between (.object ((ps, d) :: members) :: fs))
  | .pair hb hk ha ht => by
    obtain ⟨ps, hps⟩ := hk.keyAs
    obtain ⟨d, hv, hd⟩ := ht.reads
    refine ⟨ps, d, hps, hv, fun {fs members q} hq {r} hr => ?_⟩
    simp only [List.append_assoc, List.cons_append]
    rw [hb.scan_append, hps, List.foldl_cons, hq, ha.scan_append, Token.scan_colon, List.foldl_cons,
      step, hd.foldl_scan (awaits_value _) hr]
    rfl

theorem AreMembers.reads {members : List (List Char × List Char)} {t : List Char} :
    AreMembers members t → ∃ docs, MembersAs members docs ∧ ∀ {fs : List Frame}
      {before : List (List Piece × Doc)} {q : Reader}, AwaitsKey before fs q →
        ∀ r, (Token.scan (t ++ '}' :: r)).foldl step q =
          (Token.scan r).foldl step (place fs (.object (before.reverse ++ docs) .closed))
  | .last ht => by
    obtain ⟨ps, d, hk, hv, hread⟩ := ht.reads
    refine ⟨[(ps, d)], .cons ⟨hk, hv⟩ .nil, fun {fs before q} hq r => ?_⟩
    rw [hread hq (ends_cons (by simp) r), Token.scan_closeObject]
    simp [step, close, Frame.toDoc]
  | .next ht hr => by
    obtain ⟨ps, d, hk, hv, hread⟩ := ht.reads
    obtain ⟨docs, hdocs, hrest⟩ := hr.reads
    refine ⟨(ps, d) :: docs, .cons ⟨hk, hv⟩ hdocs, fun {fs before q} hq r => ?_⟩
    rw [List.append_assoc, List.cons_append, hread hq (ends_cons (by simp) _), Token.scan_comma,
      List.foldl_cons, step, hrest (awaitsKey_nextKey _ _)]
    simp

end

/-! ### Whole texts -/

theorem ReadAs.ofText_eq {d : Doc} (h : ReadAs v d) : Doc.ofText (String.ofList v) = (d, false) := by
  have hread := h.foldl_scan (awaits_value []) (r := []) (by simp [Ends])
  rw [List.append_nil] at hread
  simp only [Doc.ofText, String.toList_ofList, hread]
  rfl

/-- The text is an object: what the keys of its members say, and the texts of their values. -/
inductive IsObjectText : String → List (String × String) → Prop where
  | padded {before object after : List Char} {keyed : List (List Char × List Char)}
      {members : List (String × String)} (hb : Blanks before) (ho : IsObject keyed object)
      (ha : Blanks after)
      (hm : List.Forall₂ (fun m kv => IsNamed kv.1 m.1 ∧ m.2 = String.ofList kv.2) members keyed) :
      IsObjectText (String.ofList (before ++ (object ++ after))) members

/-- The tree of the text of an object has the trees of the values. -/
theorem IsObjectText.reads {text : String} {members : List (String × String)}
    (h : IsObjectText text members) : ∃ docs, Doc.ofText text = (.object docs .closed, false) ∧
      List.Forall₂ (fun m d => Piece.text d.1 = some m.1 ∧ (Doc.ofText m.2).1 = d.2 ∧
        d.2.skip = .ok ()) members docs ∧ ∀ m ∈ members, (Doc.ofText m.2).2 = false := by
  obtain ⟨hb, ho, ha, hm⟩ := h
  obtain ⟨docs, hdocs, hread⟩ := ho.reads
  refine ⟨docs, (hread.padded hb ha).ofText_eq, ?_⟩
  clear ho hread
  induction hm generalizing docs with
  | nil =>
    cases hdocs
    exact ⟨.nil, List.forall_mem_nil _⟩
  | cons hmember _ ih =>
    obtain ⟨hname, hvalue⟩ := hmember
    cases hdocs with
    | cons hdoc hdocs =>
      obtain ⟨hkey, hread⟩ := hdoc
      obtain ⟨hrest, hwhole⟩ := ih _ hdocs
      have htext := hvalue ▸ hread.ofText_eq
      exact ⟨.cons ⟨hname.text_eq hkey, congrArg Prod.fst htext, hread.skip_eq⟩ hrest,
        List.forall_mem_cons.2 ⟨congrArg Prod.snd htext, hwhole⟩⟩

/-- A member is listed with what its key says and the text of its value, without the blanks. -/
example : IsObjectText "\x7b\"a\": null\x7d" [("a", "null")] := by
  have hkey : IsString ['"', 'a', '"'] :=
    .quoted (.cons (.plain (c := 'a') (by decide) (by decide) (by decide)) .nil)
  have hname : IsNamed ['"', 'a', '"'] "a" :=
    .quoted (.plain (c := 'a') (by decide) (by decide) (by decide) .nil)
  have hblank : Blanks [' '] := by simp [Blanks, IsBlank]
  have hempty : Blanks [] := List.forall_mem_nil _
  have hobject := IsObject.braces (.last (.pair hempty hkey hempty (.padded hblank .nullWord hempty)))
  exact .padded hempty hobject hempty (.cons ⟨hname, rfl⟩ .nil)

end Grammar

end PanelClient.Json
