import PanelClient.Text.Digits
/-!
# Percent-encoding

A text is written with letters, digits and `-`, `_`, `.`, `~` only: every other byte of its UTF-8
form becomes `%` and two hexadecimal digits in upper case.

* `Percent.encode`: the written form;
* `Percent.decode`: the text of a written form.
-/

namespace PanelClient.Percent

/-- The bytes that stand for themselves. -/
def isUnreserved (b : UInt8) : Bool :=
  let c := Char.ofNat b.toNat
  (b < 128 && c.isAlphanum) || c == '-' || c == '_' || c == '.' || c == '~'

/-- A hexadecimal digit, in upper case. -/
def hexDigit (n : Nat) : Char := (Nat.digitChar n).toUpper

/-- A byte as `%` and two digits. -/
def escape (b : UInt8) : List Char :=
  ['%', hexDigit (b.toNat / 16), hexDigit (b.toNat % 16)]

/-- The written form of a byte. -/
def encodeByte (b : UInt8) : List Char :=
  if isUnreserved b then [Char.ofNat b.toNat] else escape b

/-- The written form of a text. -/
def encode (s : String) : String := String.ofList (s.toUTF8.toList.flatMap encodeByte)

/-- The bytes of a written form: an escape is one byte, any other character its UTF-8 bytes. A `%`
without two digits after it stands for itself. -/
def decodeBytes : List Char → List UInt8
  | [] => []
  | '%' :: a :: b :: r =>
    match Digits.value? a, Digits.value? b with
    | some x, some y => UInt8.ofNat (x * 16 + y) :: decodeBytes r
    | _, _ => '%'.toUInt8 :: decodeBytes (a :: b :: r)
  | c :: r => (String.singleton c).toUTF8.toList ++ decodeBytes r

/-- The text of a written form, if its bytes are UTF-8. -/
def decode (s : String) : Option String :=
  String.fromUTF8? (ByteArray.mk (decodeBytes s.toList).toArray)

end PanelClient.Percent
