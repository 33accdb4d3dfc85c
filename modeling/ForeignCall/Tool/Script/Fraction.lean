import ForeignCall.Text.Shortest
import ForeignCall.Tool.Script.Arithmetic

/-!
# ForeignCall.Tool.Script.Fraction

Floating point numbers of 64 bits as texts. A text is read as an exact fraction, which is rounded to
53 digits in base two, or fewer for a tiny number; a half goes to the even neighbour. Texts are
written from the exact value.

* `readReal?` — the number at the start of a text;
* `fixed`, `scientific`, `inSixteens` — the digits of a number in three forms.
-/

namespace ForeignCall.Script

open Text (Octets octets)

/-! ## Rounding -/

/-- A fraction rounded to a whole number; a half goes to the even neighbour. -/
def roundHalfEven (num den : Nat) : Nat :=
  let floor := num / den
  let rest := 2 * (num % den)
  if rest < den then floor
  else if den < rest then floor + 1
  else if floor % 2 = 0 then floor else floor + 1

/-- A number of 64 bits without its sign: `significand * 2 ^ exponent` if it is finite. -/
inductive Magnitude where
  | finite (significand : Nat) (exponent : Int)
  | infinite
  | undefined
deriving DecidableEq, Repr

/-- A number of 64 bits with its sign. -/
structure Real64 where
  negative : Bool
  magnitude : Magnitude
deriving DecidableEq, Repr

/-- A number times a power of a base, as a fraction. -/
def powered (base n : Nat) (power : Int) : Nat × Nat :=
  if 0 ≤ power then (n * base ^ power.toNat, 1) else (n, base ^ power.natAbs)

/-- A finite number as a fraction. -/
def Magnitude.fraction : Magnitude → Nat × Nat
  | finite significand exponent => powered 2 significand exponent
  | _ => (0, 1)

/-- The greatest `e` for which a positive fraction reaches `2 ^ e`. -/
def binaryPoint (num den : Nat) : Int :=
  let e := (num.log2 : Int) - den.log2
  let (n, d) := powered 2 num (-e)
  if n < d * den then e - 1 else e

/-- The number of 64 bits that is nearest to a fraction. -/
def Magnitude.ofFraction (num den : Nat) : Magnitude :=
  if num = 0 then .finite 0 (-1074)
  else
    let e := max (binaryPoint num den - 52) (-1074)
    let (n, d) := powered 2 num (-e)
    let m := roundHalfEven n (d * den)
    let (m, e) := if m = 2 ^ 53 then (2 ^ 52, e + 1) else (m, e)
    if 971 < e then .infinite else .finite m e

/-- Whether a fraction has no number of 64 bits near it: it is too large, or too small to be rounded
as other numbers are. -/
def isOutOfRange (num den : Nat) : Bool :=
  match Magnitude.ofFraction num den with
  | .finite m e =>
    let (n, d) := (Magnitude.finite m e).fraction
    n * den ≠ num * d && num * 2 ^ 1076 < (2 ^ 54 - 1) * den
  | _ => true

/-! ## Reading -/

/-- The text behind a word, in capitals or not. -/
def afterWord? (word : String) (text : Octets) : Option Octets :=
  let start := text.take word.length
  if start.map Char.toLower = word.toList then some (text.drop word.length) else none

/-- A power that stands behind a letter and perhaps a sign. -/
def readPower (letter : Char) (text : Octets) : Int × Octets :=
  match text with
  | c :: more =>
    let (down, digits) := splitSign more
    match Text.ofDigits? 10 (digits.takeWhile Char.isDigit) with
    | some n =>
      if c.toLower = letter then (withSign down n, digits.dropWhile Char.isDigit) else (0, text)
    | none => (0, text)
  | [] => (0, text)

/-- The greatest power that counts. -/
def maxPower : Int := 100000

/-- The fraction that digits in a base spell, with places and a power, and what follows it. -/
def readFraction? (base : Nat) (text : Octets) : Option ((Nat × Nat) × Octets) :=
  let isDigit (c : Char) : Bool := (Text.digitIn base c).isSome
  let whole := text.takeWhile isDigit
  let (places, rest) := match text.drop whole.length with
    | '.' :: more => (more.takeWhile isDigit, more.dropWhile isDigit)
    | rest => ([], rest)
  (Text.ofDigits? base (whole ++ places)).map fun n =>
    let (power, rest) := readPower (if base = 16 then 'p' else 'e') rest
    let (powerBase, power) :=
      if base = 16 then (2, power - 4 * places.length) else (10, power - places.length)
    (powered powerBase n (max (-maxPower) (min maxPower power)), rest)

/-- The text behind what can stand behind the word for an undefined number. -/
def afterPayload (text : Octets) : Octets :=
  match text with
  | '(' :: inside =>
    match inside.dropWhile fun c => c.isAlphanum || c = '_' with
    | ')' :: rest => rest
    | _ => text
  | _ => text

/-- The number at the start of a text, whether it is in range, and what follows it. -/
def readReal? (text : Octets) : Option (Real64 × Bool × Octets) :=
  let (negative, body) := splitSign (text.dropWhile isNumberBlank)
  match afterWord? "infinity" body <|> afterWord? "inf" body, afterWord? "nan" body with
  | some rest, _ => some (⟨negative, .infinite⟩, true, rest)
  | none, some rest => some (⟨negative, .undefined⟩, true, afterPayload rest)
  | none, none =>
    let read := (afterWord? "0x" body).bind (readFraction? 16) <|> readFraction? 10 body
    read.map fun ((num, den), rest) =>
      (⟨negative, .ofFraction num den⟩, !isOutOfRange num den, rest)

/-! ## Writing -/

/-- A fraction with a fixed number of places. -/
def fixed (num den places : Nat) (point : Bool) : Octets :=
  let digits := Nat.toDigits 10 (roundHalfEven (num * 10 ^ places) den)
  let digits := List.replicate (places + 1 - digits.length) '0' ++ digits
  let whole := digits.take (digits.length - places)
  if places = 0 then whole ++ (if point then ['.'] else [])
  else whole ++ '.' :: digits.drop (digits.length - places)

/-- The exponent of the first digit of a fraction that is rounded to a number of places behind it,
and these digits. -/
def scientific (num den places : Nat) : Int × Octets :=
  if num = 0 then (0, List.replicate (places + 1) '0')
  else
    let e := Text.pointOf num den - 1
    let (n, d) := Text.scaled num den ((places : Int) - e)
    let digits := Nat.toDigits 10 (roundHalfEven n d)
    if places + 1 < digits.length then (e + 1, digits.take (places + 1)) else (e, digits)

/-- Digits with a point behind the first. -/
def withPoint (digits : Octets) (point : Bool) : Octets :=
  match digits with
  | c :: cs => if cs.isEmpty ∧ !point then [c] else c :: '.' :: cs
  | [] => []

/-- An exponent with its sign, in so many digits at least. -/
def exponentText (letter : Char) (width : Nat) (e : Int) : Octets :=
  let digits := (toString e.natAbs).toList
  letter :: (if e < 0 then '-' else '+') :: List.replicate (width - digits.length) '0' ++ digits

/-- Digits with a point behind the first and an exponent. -/
def withExponent (e : Int) (digits : Octets) (point : Bool) : Octets :=
  withPoint digits point ++ exponentText 'e' 2 e

/-- A text without the zeros at the end of its places. -/
def dropPlaces (text : Octets) : Octets :=
  let head := text.takeWhile (· ≠ 'e')
  let tail := text.dropWhile (· ≠ 'e')
  let head :=
    if head.contains '.' then
      let kept := (head.reverse.dropWhile (· = '0')).reverse
      if kept.getLast? = some '.' then kept.dropLast else kept
    else head
  head ++ tail

/-- A number in base sixteen with a power of two: the first digit is one, or zero for a tiny number.
Without a number of places there are as many as are needed. -/
def inSixteens (significand : Nat) (exponent : Int) (places : Option Nat) (point : Bool) : Octets :=
  let power := if significand = 0 then 0 else exponent + 52
  let width := places.getD 13
  let n :=
    if width < 13 then roundHalfEven significand (16 ^ (13 - width))
    else significand * 16 ^ (width - 13)
  let digits := Nat.toDigits 16 n
  let digits := List.replicate (width + 1 - digits.length) '0' ++ digits
  let digits :=
    if places.isNone then digits.take 1 ++ (digits.tail.reverse.dropWhile (· = '0')).reverse
    else digits
  withPoint digits point ++ exponentText 'p' 0 power

end ForeignCall.Script
