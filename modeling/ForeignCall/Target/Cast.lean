import ForeignCall.Target.Basic
import ForeignCall.Layout.Error
import ForeignCall.Text.Shortest

/-!
# ForeignCall.Target.Cast

The value of a cast. A cast to an integer type reduces the value modulo the width of the type; a
floating point value is truncated toward zero first. A cast to a floating point type rounds.

* `wrapTo` — the representative of a value in the range of a width;
* `Target.cast` — the cast of a value to a type.
-/

namespace ForeignCall

/-- A value that is cast: an integer of at most 128 bits, or a floating point number. -/
inductive Scalar where
  | int (value : Int)
  | float (value : Float)

/-- The least integer of 128 bits. -/
def minWide : Int := -(2 ^ 127)

/-- The largest integer of 128 bits. -/
def maxWide : Int := 2 ^ 127 - 1

/-- The integer in the range of `bits` bits that is congruent to `value`. From 128 bits on every
value is in range. -/
def wrapTo (bits : Nat) (signed : Bool) (value : Int) : Int :=
  if 128 ≤ bits then value
  else
    let modulus : Int := 2 ^ bits
    let reduced := value % modulus
    if signed ∧ modulus / 2 ≤ reduced then reduced - modulus else reduced

/-- To how many bits a cast to an integer type reduces. Of the count of bits 32 bits are kept. -/
def Target.castBits (target : Target) (kind : IntKind) : Except Abort Nat :=
  (target.bitCount kind).map (· % 2 ^ 32)

/-- A floating point number without its fraction, brought into the range of 128 bits. What is not a
number becomes zero. -/
def truncate (x : Float) : Int :=
  if x.isNaN then 0
  else
    let bits := x.toBits
    let b := Text.Binary.ofBits bits
    let negative := bits >>> 63 = 1
    let magnitude :=
      if x.isInf then 2 ^ 127
      else if 0 ≤ b.exponent then b.significand * 2 ^ b.exponent.toNat
      else b.significand / 2 ^ (-b.exponent).toNat
    if negative then max minWide (-(magnitude : Int)) else min maxWide magnitude

/-- A natural number as a significand of at most 53 bits and an exponent of two, a half rounded to
the even neighbour. -/
def roundBinary (n : Nat) : Nat × Nat :=
  let shift := n.log2 - 52
  let unit := 2 ^ shift
  let kept := n / unit
  let rest := n % unit
  if unit < 2 * rest ∨ (2 * rest = unit ∧ kept % 2 = 1) then (kept + 1, shift) else (kept, shift)

/-- The floating point number next to an integer. -/
def floatOfInt (n : Int) : Float :=
  let (kept, shift) := roundBinary n.natAbs
  let x := Float.scaleB (Float.ofNat kept) shift
  if n < 0 then -x else x

/-- A floating point number rounded to a floating point type. -/
def roundTo : FloatKind → Float → Float
  | .float, x => x.toFloat32.toFloat
  | _, x => x

/-- The cast of a value to a type. A cast to the type of truth values tells whether the value
differs from zero. -/
def Target.cast (target : Target) (type : CType) (value : Scalar) : Except LayoutError Scalar :=
  match type with
  | .integral .bool _ =>
    let differs : Bool := match value with
      | .int v => v != 0
      | .float x => x != 0
    .ok (.int (if differs then 1 else 0))
  | .integral kind signed =>
    let raw := match value with
      | .int v => v
      | .float x => truncate x
    match target.castBits kind with
    | .error reason => .error (.abort reason)
    | .ok bits => .ok (.int (wrapTo bits signed raw))
  | .floating kind =>
    let wide := match value with
      | .int v => floatOfInt v
      | .float x => x
    .ok (.float (roundTo kind wide))
  | other => .error (.notCastable other)

end ForeignCall
