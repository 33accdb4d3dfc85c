/-!
# ForeignCall.Text.Numeral

Digits and the numbers they spell.

* `ofDigits?` — the number that a text of digits spells in a base;
* `readDecimal` — a decimal number with an optional plus sign, up to a limit;
* `padHex` — a number in base sixteen with a fixed number of digits.
-/

namespace ForeignCall.Text

/-- The value of a digit or letter, where `a` and `A` stand for ten. -/
def digitValue (c : Char) : Option Nat :=
  let n := c.toNat
  if 48 ≤ n ∧ n ≤ 57 then some (n - 48)
  else if 97 ≤ n ∧ n ≤ 122 then some (n - 87)
  else if 65 ≤ n ∧ n ≤ 90 then some (n - 55)
  else none

/-- The value of a character as a digit of `base`. -/
def digitIn (base : Nat) (c : Char) : Option Nat :=
  (digitValue c).filter (· < base)

/-- The number that digits spell after `acc` has been read; `none` at the first other character. -/
def foldDigits (base : Nat) : Nat → List Char → Option Nat
  | acc, [] => some acc
  | acc, c :: cs => (digitIn base c).bind fun d => foldDigits base (acc * base + d) cs

/-- The number that a text of one or more digits spells in `base`. -/
def ofDigits? (base : Nat) (s : List Char) : Option Nat :=
  if s.isEmpty then none else foldDigits base 0 s

/-- A number in base ten with an optional plus sign, if it is at most `limit`. -/
def readDecimal (limit : Nat) (s : List Char) : Option Nat :=
  let digits := match s with
    | '+' :: rest => rest
    | _ => s
  (ofDigits? 10 digits).filter (· ≤ limit)

/-- A number in base sixteen, filled up with zeros to `width` digits. -/
def padHex (width n : Nat) : String :=
  let digits := Nat.toDigits 16 n
  String.ofList (List.replicate (width - digits.length) '0' ++ digits)

/-- A decimal number with an optional minus sign. -/
def readInt (s : List Char) : Option Int :=
  match s with
  | '-' :: rest => (ofDigits? 10 rest).map fun n => -(n : Int)
  | _ => (ofDigits? 10 s).map fun n => (n : Int)

end ForeignCall.Text
