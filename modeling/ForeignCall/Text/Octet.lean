import ForeignCall.Text.Utf8

/-!
# ForeignCall.Text.Octet

Bytes as characters. Programs that know nothing of encodings take a text byte by byte; here each
byte is the character with its number.

* `ofOctets_octetsOf` — no byte is lost.
-/

namespace ForeignCall.Text

/-- A text of bytes, each as the character with its number. -/
abbrev Octets := List Char

/-- Bytes as characters. -/
def octetsOf (bytes : List UInt8) : Octets := bytes.map fun b => Char.ofNat b.toNat

/-- The bytes of characters that stand for bytes. -/
def ofOctets (cs : Octets) : List UInt8 := cs.map fun c => UInt8.ofNat c.toNat

/-- The bytes that encode a text, as characters. -/
def octets (s : String) : Octets := octetsOf (utf8 s)

/-- The text that octets encode, with one replacement character for each malformed part. -/
def textOf (cs : Octets) : String := decodeLossy (ofOctets cs)

/-- Reading bytes as characters loses nothing. -/
theorem ofOctets_octetsOf (bytes : List UInt8) : ofOctets (octetsOf bytes) = bytes := by
  have h (b : UInt8) : UInt8.ofNat (Char.ofNat b.toNat).toNat = b := by
    have hb : b.toNat < 256 := b.toNat_lt
    have hv : b.toNat.isValidChar := Or.inl (by omega)
    rw [Char.ofNat, dif_pos hv]
    change UInt8.ofNat b.toNat = b
    exact UInt8.ofNat_toNat
  induction bytes with
  | nil => rfl
  | cons b bs ih => simpa [ofOctets, octetsOf, h b] using ih

end ForeignCall.Text
