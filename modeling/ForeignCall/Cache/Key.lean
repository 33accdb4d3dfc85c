import ForeignCall.Instances
import ForeignCall.Text.Numeral
import ForeignCall.Text.Utf8

/-!
# ForeignCall.Cache.Key

The key of a header in an environment: a hash of 64 bits over both texts. All arithmetic is modulo
2 ^ 64.

* `hashBytes` — the hash of a byte sequence, which takes sixteen bytes at a time;
* `cacheKey` — the key of a header and an environment.
-/

namespace ForeignCall

namespace Hash

/-- The number that bytes stand for, the lowest first. -/
def littleEndian (bytes : List UInt8) : UInt64 :=
  bytes.foldr (fun b n => n * 256 + b.toUInt64) 0

/-- The two halves of the product of two words, combined by exclusive or. -/
def foldedProduct (x y : UInt64) : UInt64 :=
  let product := x.toNat * y.toNat
  UInt64.ofNat product ^^^ UInt64.ofNat (product / 2 ^ 64)

/-- Two words that are being mixed. -/
structure Lanes where
  fst : UInt64
  snd : UInt64
deriving DecidableEq, Repr

/-- The words at the start of the hash of a byte sequence. -/
def seed : Lanes := ⟨0x243f6a8885a308d3, 0x13198a2e03707344⟩

/-- Combines both words with words of the input. -/
def Lanes.blend (s : Lanes) (x y : UInt64) : Lanes := ⟨s.fst ^^^ x, s.snd ^^^ y⟩

/-- The last bytes of a sequence, at most `n`. -/
def lastBytes (n : Nat) (bytes : List UInt8) : List UInt8 := bytes.drop (bytes.length - n)

/-- The words after a sequence of at most sixteen bytes. -/
def shortLanes (bytes : List UInt8) : Lanes :=
  let n := bytes.length
  if 8 ≤ n then seed.blend (littleEndian (bytes.take 8)) (littleEndian (lastBytes 8 bytes))
  else if 4 ≤ n then seed.blend (littleEndian (bytes.take 4)) (littleEndian (lastBytes 4 bytes))
  else
    match bytes with
    | [] => seed
    | first :: _ =>
      let middle := (bytes[n / 2]?).getD 0
      let last := (bytes[n - 1]?).getD 0
      seed.blend first.toUInt64 (last.toUInt64 * 256 + middle.toUInt64)

/-- The words after a number of blocks of sixteen bytes. -/
def blockLanes : Nat → List UInt8 → Lanes → Lanes
  | 0, _, s => s
  | blocks + 1, bytes, s =>
    let mixed := foldedProduct (s.fst ^^^ littleEndian (bytes.take 8))
      (0xa4093822299f31d0 ^^^ littleEndian ((bytes.drop 8).take 8))
    blockLanes blocks (bytes.drop 16) ⟨s.snd, mixed⟩

/-- The words after a sequence of more than sixteen bytes: the last sixteen count on their own,
whether or not they have been part of a block. -/
def longLanes (bytes : List UInt8) : Lanes :=
  let tail := lastBytes 16 bytes
  (blockLanes ((bytes.length - 1) / 16) bytes seed).blend
    (littleEndian (tail.take 8)) (littleEndian (tail.drop 8))

/-- The hash of a byte sequence. -/
def hashBytes (bytes : List UInt8) : UInt64 :=
  let s := if bytes.length ≤ 16 then shortLanes bytes else longLanes bytes
  foldedProduct s.fst s.snd ^^^ UInt64.ofNat bytes.length

/-- Adds a word to a state. -/
def addWord (state word : UInt64) : UInt64 := (state + word) * 0xf1357aea2e62a9c5

/-- Adds a text to a state, with a mark that no text holds behind it. -/
def addText (state : UInt64) (s : String) : UInt64 :=
  addWord (addWord state (hashBytes (Text.utf8 s))) 0xff

/-- The hash of a state. -/
def finish (state : UInt64) : UInt64 := state <<< 26 ||| state >>> 38

end Hash

/-- The key of a header in an environment. -/
def cacheKey (header environment : String) : UInt64 :=
  Hash.finish (Hash.addText (Hash.addText 0 header) environment)

/-- The text of a key: sixteen digits in base sixteen. -/
def keyText (key : UInt64) : String := Text.padHex 16 key.toNat

end ForeignCall
