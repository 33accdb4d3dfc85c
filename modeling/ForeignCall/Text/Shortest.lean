import ForeignCall.Instances

/-!
# ForeignCall.Text.Shortest

The fewest decimal digits that read back as a given floating point number.

A finite number of 64 bits is `m · 2 ^ q`. The reals that round to it form an interval, whose ends
belong to it exactly if `m` is even. For 1, 2, … digits the two neighbours of the number on that
decimal grid are tried; the first grid with a neighbour inside the interval wins, and of two the
nearer.
-/

namespace ForeignCall.Text

/-- A positive finite number `m · 2 ^ q`, with the distances to both ends of the interval that
rounds to it in quarters of `2 ^ q`. -/
structure Binary where
  significand : Nat
  exponent : Int
  below : Nat

/-- The parts of a finite floating point number without its sign. -/
def Binary.ofBits (bits : UInt64) : Binary :=
  let fraction := (bits &&& 0xFFFFFFFFFFFFF).toNat
  let biased := ((bits >>> 52) &&& 0x7FF).toNat
  if biased = 0 then ⟨fraction, -1074, 2⟩
  else ⟨2 ^ 52 + fraction, (biased : Int) - 1075, if fraction = 0 ∧ 1 < biased then 1 else 2⟩

/-- Digits and the exponent of the decimal point: `0.d₁d₂… · 10 ^ point`. -/
structure Decimal where
  digits : List Char
  point : Int

/-- The least `j` from `j₀` on for which `num · 10 ^ j` reaches `den`. -/
def scaleUp (num den : Nat) : Nat → Nat → Nat
  | 0, j => j
  | fuel + 1, j => if den ≤ num * 10 ^ j then j else scaleUp num den fuel (j + 1)

/-- The exponent `k` with `10 ^ (k - 1) ≤ num / den < 10 ^ k`. -/
def pointOf (num den : Nat) : Int :=
  if den ≤ num then ((Nat.toDigits 10 (num / den)).length : Int)
  else 1 - (scaleUp num den 400 1 : Int)

/-- `value · 10 ^ e` as a fraction. -/
def scaled (num den : Nat) (e : Int) : Nat × Nat :=
  if 0 ≤ e then (num * 10 ^ e.toNat, den) else (num, den * 10 ^ (-e).toNat)

/-- The neighbour of `num / den` with `n` digits that lies between the bounds, if there is one. -/
def neighbour (num den lo hi : Nat) (closed : Bool) (point : Int) (n : Nat) : Option Nat :=
  let e := (n : Int) - point
  let (v, unit) := scaled num den e
  let (l, _) := scaled lo den e
  let (h, _) := scaled hi den e
  let inside (c : Nat) : Bool :=
    if closed then l ≤ c * unit && c * unit ≤ h else l < c * unit && c * unit < h
  let floor := v / unit
  let rest := v % unit
  match inside floor, inside (floor + 1) with
  | false, false => none
  | true, false => some floor
  | false, true => some (floor + 1)
  | true, true =>
    if 2 * rest < unit then some floor
    else if unit < 2 * rest then some (floor + 1)
    else some (if floor % 2 = 0 then floor else floor + 1)

/-- Digits without the zeros at their end; one digit always stays. -/
def dropZeros (digits : List Char) : List Char :=
  match (digits.reverse.dropWhile (· = '0')).reverse with
  | [] => ['0']
  | ds => ds

/-- The shortest decimal for a positive finite number. -/
def shortest (b : Binary) : Decimal :=
  let (num, lo, hi, den) :=
    if 2 ≤ b.exponent then
      let s := 2 ^ (b.exponent - 2).toNat
      (4 * b.significand * s, (4 * b.significand - b.below) * s, (4 * b.significand + 2) * s, 1)
    else
      (4 * b.significand, 4 * b.significand - b.below, 4 * b.significand + 2,
        2 ^ (2 - b.exponent).toNat)
  let point := pointOf num den
  let closed := b.significand % 2 = 0
  let tries := (List.range 17).findSome? fun i =>
    (neighbour num den lo hi closed point (i + 1)).map fun c => (c, i + 1)
  match tries with
  | some (c, n) =>
    let digits := Nat.toDigits 10 c
    ⟨dropZeros digits, point + ((digits.length : Int) - n)⟩
  | none => ⟨['0'], 1⟩

/-- The text of an exponent: a sign and the fewest digits. -/
def exponentText (e : Int) : List Char :=
  (if 0 ≤ e then '+' else '-') :: (toString e.natAbs).toList

/-- The text of a decimal: positional if the point stands from five places before to sixteen places
after the first digit, else with an exponent. -/
def Decimal.text (d : Decimal) : List Char :=
  let n : Int := d.digits.length
  if n ≤ d.point ∧ d.point ≤ 16 then
    d.digits ++ List.replicate (d.point - n).toNat '0' ++ ['.', '0']
  else if 0 < d.point ∧ d.point ≤ 16 then
    d.digits.take d.point.toNat ++ ['.'] ++ d.digits.drop d.point.toNat
  else if -5 < d.point ∧ d.point ≤ 0 then
    ['0', '.'] ++ List.replicate (-d.point).toNat '0' ++ d.digits
  else
    let mantissa := match d.digits with
      | [c] => [c]
      | c :: cs => c :: '.' :: cs
      | [] => []
    mantissa ++ 'e' :: exponentText (d.point - 1)

/-- The text of a finite floating point number. -/
def floatText (x : Float) : String :=
  let bits := x.toBits
  let sign := if bits >>> 63 = 1 then ['-'] else []
  let magnitude := if x == 0 then ['0', '.', '0'] else (shortest (Binary.ofBits bits)).text
  String.ofList (sign ++ magnitude)

end ForeignCall.Text
