import ForeignCall.Target.Cast
import Mathlib.Algebra.Order.Ring.Int
import Mathlib.Data.Int.ModEq
import Mathlib.Tactic.Common

/-!
# ForeignCall.Proofs.Target.Widths

Integers of a fixed width, with a sign or without. Reducing an integer to a width gives the only
integer of this width that is congruent to it, so nothing changes just when the integer has the
width already.

* `HasWidth` — the range of a width, and `not_hasWidth_max`: what is out of the signed one;
* `wrapTo_eq_iff`, `wrapTo_eq_self_iff` — what an integer is reduced to, and when it stays.
-/

namespace ForeignCall

/-- An integer is in the range of a number of bits, one of which is the sign if there is one. -/
def HasWidth (bits : Nat) (signed : Bool) (v : Int) : Prop :=
  if signed then -(2 : Int) ^ (bits - 1) ≤ v ∧ v < 2 ^ (bits - 1) else 0 ≤ v ∧ v < 2 ^ bits

variable {bits bits' : Nat} {signed : Bool} {v w : Int}

theorem two_pow_pred (h : 0 < bits) : (2 : Int) ^ bits = 2 * 2 ^ (bits - 1) := by
  obtain ⟨k, rfl⟩ : ∃ k, bits = k + 1 := ⟨bits - 1, by omega⟩
  rw [Nat.add_sub_cancel, pow_succ']

/-- A wider range has all integers of a narrower one. -/
theorem HasWidth.mono (h : HasWidth bits signed v) (hbits : bits ≤ bits') :
    HasWidth bits' signed v := by
  have hpow : (2 : Int) ^ bits ≤ 2 ^ bits' := pow_le_pow_right₀ (by omega) hbits
  have hhalf : (2 : Int) ^ (bits - 1) ≤ 2 ^ (bits' - 1) := pow_le_pow_right₀ (by omega) (by omega)
  cases signed with
  | true =>
    simp only [HasWidth, if_true] at h ⊢
    omega
  | false =>
    simp only [HasWidth, Bool.false_eq_true, if_false] at h ⊢
    omega

/-- A signed width holds the integers of all shorter widths. -/
theorem HasWidth.withSign (h : HasWidth bits false v) (hbits : bits < bits') :
    HasWidth bits' true v := by
  have hpow : (2 : Int) ^ bits ≤ 2 ^ (bits' - 1) := pow_le_pow_right₀ (by omega) (by omega)
  simp only [HasWidth, if_true, Bool.false_eq_true, if_false] at h ⊢
  omega

/-- The largest integer without a sign. -/
theorem hasWidth_max (bits : Nat) : HasWidth bits false (2 ^ bits - 1) := by
  have hpos : (0 : Int) < 2 ^ bits := pow_pos (by decide) bits
  simp only [HasWidth, Bool.false_eq_true, if_false]
  omega

/-- The largest integer without a sign needs one more bit for a sign. -/
theorem not_hasWidth_max (hbits : 0 < bits) : ¬HasWidth bits true (2 ^ bits - 1) := by
  have hpow := two_pow_pred hbits
  have hhalf : (0 : Int) < 2 ^ (bits - 1) := pow_pos (by decide) _
  simp only [HasWidth, if_true]
  omega

/-- Two integers of one width that are congruent are equal. -/
theorem HasWidth.eq_of_emod_eq (h : HasWidth bits signed v) (h' : HasWidth bits signed w)
    (hpos : 0 < bits) (hmod : v % 2 ^ bits = w % 2 ^ bits) : v = w := by
  have hdvd : (2 : Int) ^ bits ∣ v - w := Int.ModEq.dvd hmod.symm
  have hpow := two_pow_pred hpos
  have hclose : |v - w| < 2 ^ bits := by
    rw [abs_lt]
    cases signed with
    | true =>
      simp only [HasWidth, if_true] at h h'
      omega
    | false =>
      simp only [HasWidth, Bool.false_eq_true, if_false] at h h'
      omega
  have hzero := Int.eq_zero_of_abs_lt_dvd hdvd hclose
  omega

/-- What an integer is reduced to has the width. -/
theorem hasWidth_wrapTo (hpos : 0 < bits) (hbits : bits < 128) :
    HasWidth bits signed (wrapTo bits signed v) := by
  have hpow := two_pow_pred hpos
  have hmodulus : (0 : Int) < 2 ^ bits := pow_pos (by decide) bits
  have hnonneg := Int.emod_nonneg v hmodulus.ne'
  have hlt := Int.emod_lt_of_pos v hmodulus
  unfold wrapTo
  rw [if_neg (by omega)]
  cases signed with
  | true =>
    simp only [HasWidth, if_true, true_and]
    split <;> omega
  | false =>
    simp only [HasWidth, Bool.false_eq_true, if_false, false_and]
    omega

/-- What an integer is reduced to is congruent to it. -/
theorem wrapTo_emod (hbits : bits < 128) : wrapTo bits signed v % 2 ^ bits = v % 2 ^ bits := by
  unfold wrapTo
  rw [if_neg (by omega)]
  dsimp only
  split
  · rw [Int.sub_emod_right, Int.emod_emod_of_dvd _ dvd_rfl]
  · rw [Int.emod_emod_of_dvd _ dvd_rfl]

/-- Congruent integers are reduced to the same one. -/
theorem wrapTo_congr (hbits : bits < 128) (hmod : v ≡ w [ZMOD 2 ^ bits]) :
    wrapTo bits signed v = wrapTo bits signed w := by
  have hrest : v % 2 ^ bits = w % 2 ^ bits := hmod
  simp only [wrapTo, if_neg (Nat.not_le.mpr hbits), hrest]

/-- **Reduction to a width** gives the only integer of the width that is congruent. -/
theorem wrapTo_eq_iff (hpos : 0 < bits) (hbits : bits < 128) :
    wrapTo bits signed v = w ↔ HasWidth bits signed w ∧ w % 2 ^ bits = v % 2 ^ bits := by
  constructor
  · rintro rfl
    exact ⟨hasWidth_wrapTo hpos hbits, wrapTo_emod hbits⟩
  · rintro ⟨hw, hmod⟩
    have hwrapped : wrapTo bits signed v % 2 ^ bits = w % 2 ^ bits := by
      rw [wrapTo_emod hbits, hmod]
    exact (hasWidth_wrapTo hpos hbits).eq_of_emod_eq hw hpos hwrapped

/-- An integer stays just when it has the width. -/
theorem wrapTo_eq_self_iff (hpos : 0 < bits) (hbits : bits < 128) :
    wrapTo bits signed v = v ↔ HasWidth bits signed v := by
  rw [wrapTo_eq_iff hpos hbits, and_iff_left rfl]

end ForeignCall
