import ForeignCall.Instances
import ForeignCall.Text.Numeral

/-!
# ForeignCall.Constant.Literal

Integer literals as they occur in declarations and in the replacements of macros: decimal, octal
after a leading zero, base sixteen after `0x`, base two after `0b`, and at the end up to three
letters of a suffix.

* `intLiteral?` — the value of a literal, if it fits a signed word of 64 bits.
-/

namespace ForeignCall

/-- A letter of the suffix of an integer literal. -/
def isSuffixLetter (c : Char) : Bool := c = 'u' || c = 'U' || c = 'l' || c = 'L'

/-- A literal without the suffix letters at its end, and how many there are. -/
def splitSuffix (s : List Char) : List Char × Nat :=
  let suffix := s.reverse.takeWhile isSuffixLetter
  ((s.reverse.dropWhile isSuffixLetter).reverse, suffix.length)

/-- The base that the start of a literal names, and the digits that follow. -/
def splitBase : List Char → Nat × List Char
  | '0' :: 'x' :: rest => (16, rest)
  | '0' :: 'X' :: rest => (16, rest)
  | '0' :: 'b' :: rest => (2, rest)
  | '0' :: 'B' :: rest => (2, rest)
  | '0' :: c :: rest => (8, c :: rest)
  | s => (10, s)

/-- The largest signed word of 64 bits. -/
def maxInt64 : Nat := 2 ^ 63 - 1

/-- The value of an integer literal. -/
def intLiteral? (s : List Char) : Option Int64 :=
  let (body, suffix) := splitSuffix s
  if 3 < suffix then none
  else
    let (base, digits) := splitBase body
    ((Text.ofDigits? base digits).filter (· ≤ maxInt64)).map fun n => Int64.ofNat n

end ForeignCall
