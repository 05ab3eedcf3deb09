/-!
# Texts of bytes

* `Utf8.decode`: the text of bytes; what is not UTF-8 becomes replacement characters.
-/

namespace PanelClient.Utf8

/-- The character that stands for bytes which are none. -/
def replacement : Char := '\ufffd'

/-- What a first byte announces: the number of further bytes, the least and the greatest first one
among them, and the bits that it gives itself. -/
def lead? (b : UInt8) : Option (Nat × UInt8 × UInt8 × Nat) :=
  if b < 0x80 then some (0, 0x80, 0xbf, b.toNat)
  else if b < 0xc2 then none
  else if b < 0xe0 then some (1, 0x80, 0xbf, b.toNat % 32)
  else if b < 0xf0 then
    some (2, if b = 0xe0 then 0xa0 else 0x80, if b = 0xed then 0x9f else 0xbf, b.toNat % 16)
  else if b < 0xf5 then
    some (3, if b = 0xf0 then 0x90 else 0x80, if b = 0xf4 then 0x8f else 0xbf, b.toNat % 8)
  else none

/-- A character that has begun. -/
structure Begun where
  /-- The further bytes that it needs. -/
  missing : Nat
  /-- The least next byte. -/
  least : UInt8
  /-- The greatest next byte. -/
  greatest : UInt8
  /-- Its bits so far. -/
  bits : Nat

/-- Begins a character: the text that this gives at once, and what has begun. -/
def begin (b : UInt8) : List Char × Option Begun :=
  match lead? b with
  | some (0, _, _, bits) => ([Char.ofNat bits], none)
  | some (n, least, greatest, bits) => ([], some ⟨n, least, greatest, bits⟩)
  | none => ([replacement], none)

/-- Decodes bytes after what has begun. Bytes that could have become a character, up to the first
that does not fit, are one replacement character. -/
def decodeFrom : Option Begun → List UInt8 → List Char
  | none, [] => []
  | some _, [] => [replacement]
  | none, b :: r =>
    let (text, begun) := begin b
    text ++ decodeFrom begun r
  | some p, b :: r =>
    if p.least ≤ b && b ≤ p.greatest then
      let bits := p.bits * 64 + b.toNat % 64
      if p.missing ≤ 1 then Char.ofNat bits :: decodeFrom none r
      else decodeFrom (some ⟨p.missing - 1, 0x80, 0xbf, bits⟩) r
    else
      let (text, begun) := begin b
      replacement :: text ++ decodeFrom begun r

/-- The text of bytes. -/
def decode (bytes : List UInt8) : String := String.ofList (decodeFrom none bytes)

end PanelClient.Utf8
