/-!
# ForeignCall.Text.Utf8

Bytes and the text they encode. A sequence of bytes that is no UTF-8 can still be read: every
longest start of a character that is not completed stands for one replacement character.

* `decodeLossy` — always reads, with replacement characters;
* `decode?` — reads only what is well formed.
-/

namespace ForeignCall.Text

/-- The bytes that encode a text. -/
def utf8 (s : String) : List UInt8 := s.toUTF8.data.toList

/-- A byte that continues a character. -/
def isTail (b : UInt8) : Bool := 0x80 ≤ b && b ≤ 0xBF

/-- Whether `b` can be the second byte of a character whose first byte is `a`. -/
def isSecond (a b : UInt8) : Bool :=
  if a = 0xE0 then 0xA0 ≤ b && b ≤ 0xBF
  else if a = 0xED then 0x80 ≤ b && b ≤ 0x9F
  else if a = 0xF0 then 0x90 ≤ b && b ≤ 0xBF
  else if a = 0xF4 then 0x80 ≤ b && b ≤ 0x8F
  else isTail b

/-- How many bytes a character has that starts with `a`; `none` when none starts with it. -/
def sequenceLength (a : UInt8) : Option Nat :=
  if a ≤ 0x7F then some 1
  else if 0xC2 ≤ a ∧ a ≤ 0xDF then some 2
  else if 0xE0 ≤ a ∧ a ≤ 0xEF then some 3
  else if 0xF0 ≤ a ∧ a ≤ 0xF4 then some 4
  else none

/-- The low six bits of a continuation byte. -/
def tailBits (b : UInt8) : Nat := b.toNat % 64

/-- The first character of the bytes, or `none` for a malformed start, and how many bytes it takes
beyond the first. -/
def decodeChar (a : UInt8) (rest : List UInt8) : Option Char × Nat :=
  match sequenceLength a, rest with
  | some 1, _ => (some (Char.ofNat a.toNat), 0)
  | some 2, b :: _ =>
    if isSecond a b then (some (Char.ofNat ((a.toNat % 32) * 64 + tailBits b)), 1) else (none, 0)
  | some 3, b :: more =>
    if isSecond a b then
      match more with
      | c :: _ =>
        if isTail c then
          (some (Char.ofNat (((a.toNat % 16) * 64 + tailBits b) * 64 + tailBits c)), 2)
        else (none, 1)
      | [] => (none, 1)
    else (none, 0)
  | some 4, b :: more =>
    if isSecond a b then
      match more with
      | c :: more =>
        if isTail c then
          match more with
          | d :: _ =>
            if isTail d then
              (some (Char.ofNat
                ((((a.toNat % 8) * 64 + tailBits b) * 64 + tailBits c) * 64 + tailBits d)), 3)
            else (none, 2)
          | [] => (none, 2)
        else (none, 1)
      | [] => (none, 1)
    else (none, 0)
  | _, _ => (none, 0)

/-- The characters that bytes encode, with `none` for each malformed part. -/
def decodeParts : Nat → List UInt8 → List (Option Char)
  | 0, _ => []
  | _, [] => []
  | fuel + 1, a :: rest =>
    let (c, used) := decodeChar a rest
    c :: decodeParts fuel (rest.drop used)

/-- The text of bytes, with one replacement character for each malformed part. -/
def decodeLossy (bytes : List UInt8) : String :=
  String.ofList ((decodeParts bytes.length bytes).map fun c => c.getD (Char.ofNat 0xFFFD))

/-- The text of bytes that are well-formed UTF-8. -/
def decode? (bytes : List UInt8) : Option String :=
  ((decodeParts bytes.length bytes).mapM id).map String.ofList

end ForeignCall.Text
