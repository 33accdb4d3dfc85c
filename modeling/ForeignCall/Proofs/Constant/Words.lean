import ForeignCall.Constant.Evaluation
import Mathlib.Algebra.Order.Ring.Int
import Mathlib.Data.Int.Bitwise
import Mathlib.Data.Nat.Bitwise

/-!
# ForeignCall.Proofs.Constant.Words

The operators of constant expressions on words of 64 bits, told by what they do to integers without
a bound. A result is the exact one, or there is none.

* `fit_eq_some_iff` — the integers that are words;
* `toInt_shiftRight` — a shift to the right divides and rounds down;
* `shiftLeft?_eq_some_iff` — a shift to the left multiplies: shifting back gives the word again just
  when the product is a word;
* `toInt_or` — the digits of two words together are those of the integers, in two's complement.
-/

namespace ForeignCall

variable {a amount v : Int64}

/-! ## Integers that are words -/

/-- An integer is a signed word of 64 bits. -/
def IsWord (n : Int) : Prop := -(2 : Int) ^ 63 ≤ n ∧ n < 2 ^ 63

instance (n : Int) : Decidable (IsWord n) := inferInstanceAs (Decidable (_ ∧ _))

theorem isWord_toInt (v : Int64) : IsWord v.toInt := ⟨v.le_toInt, v.toInt_lt⟩

theorem isWord_of_toInt_eq {n : Int} (h : v.toInt = n) : IsWord n := h ▸ isWord_toInt v

theorem toInt_ofInt {n : Int} (h : IsWord n) : (Int64.ofInt n).toInt = n :=
  Int64.toInt_ofInt_of_le h.1 h.2

theorem fit_eq_some_iff {n : Int} : fit n = some v ↔ v.toInt = n := by
  unfold fit
  constructor
  · intro h
    split at h
    · next hrange =>
      obtain rfl := Option.some.inj h
      exact toInt_ofInt hrange
    · cases h
  · rintro rfl
    rw [if_pos ⟨v.le_toInt, v.toInt_lt⟩, Int64.ofInt_toInt]

/-! ## Shifts -/

theorem shiftAmount_eq_some_iff {w : Int64} :
    shiftAmount v = some w ↔ w = v ∧ 0 ≤ v.toInt ∧ v.toInt ≤ 63 := by
  unfold shiftAmount
  rw [Option.ite_none_right_eq_some, Option.some_inj]
  constructor
  · rintro ⟨hv, rfl⟩
    exact ⟨rfl, hv.1, Int.le_of_lt_add_one hv.2⟩
  · rintro ⟨rfl, hv⟩
    exact ⟨⟨hv.1, Int.lt_add_one_of_le hv.2⟩, rfl⟩

/-- The number of places that a word is moved by. -/
theorem toNat_places (h : 0 ≤ amount.toInt) (h' : amount.toInt ≤ 63) :
    (amount.toBitVec.smod 64).toNat = amount.toInt.toNat := by
  have hint : (amount.toBitVec.smod 64).toInt = amount.toInt := by
    have h64 : (64 : BitVec 64).toInt = 64 := by decide
    rw [BitVec.toInt_smod, Int64.toInt_toBitVec, h64, Int.fmod_eq_emod_of_nonneg _ (by decide)]
    exact Int.emod_eq_of_lt h (Int.lt_add_one_of_le h')
  have hmsb : (amount.toBitVec.smod 64).msb = false := by
    rw [BitVec.msb_eq_toInt, hint, decide_eq_false_iff_not, not_lt]
    exact h
  rw [← hint, BitVec.toNat_toInt_of_msb _ hmsb]

theorem toInt_shiftRight (h : 0 ≤ amount.toInt) (h' : amount.toInt ≤ 63) :
    (a >>> amount).toInt = a.toInt / 2 ^ amount.toInt.toNat := by
  rw [← Int64.toInt_toBitVec, Int64.toBitVec_shiftRight, BitVec.sshiftRight_eq',
    BitVec.toInt_sshiftRight, toNat_places h h', Int64.toInt_toBitVec, Int.shiftRight_eq_div_pow,
    Nat.cast_pow]
  rfl

/-- What is shifted out on the left is lost. -/
theorem toInt_shiftLeft (h : 0 ≤ amount.toInt) (h' : amount.toInt ≤ 63) :
    (a <<< amount).toInt = (a.toInt * 2 ^ amount.toInt.toNat).bmod (2 ^ 64) := by
  rw [← Int64.toInt_toBitVec, Int64.toBitVec_shiftLeft, BitVec.shiftLeft_eq',
    BitVec.toInt_shiftLeft, toNat_places h h', Nat.shiftLeft_eq, Nat.cast_mul, ← Int.bmod_mul_bmod,
    ← BitVec.toInt_eq_toNat_bmod, Int64.toInt_toBitVec, Nat.cast_pow]
  rfl

/-- A shift to the left that can be shifted back is the product, and every product that is a word
can be shifted back. -/
theorem shiftLeft?_eq_some_iff (h : 0 ≤ amount.toInt) (h' : amount.toInt ≤ 63) :
    shiftLeft? a amount = some v ↔ v.toInt = a.toInt * 2 ^ amount.toInt.toNat := by
  have hleft := toInt_shiftLeft (a := a) h h'
  unfold shiftLeft?
  dsimp only
  rw [Option.ite_none_right_eq_some, Option.some_inj, ← Int64.toInt_inj, toInt_shiftRight h h']
  constructor
  · rintro ⟨hback, rfl⟩
    -- the places that have been filled up are zero, whatever has been lost on the left
    have hdvd : (2 : Int) ^ amount.toInt.toNat ∣ (a <<< amount).toInt := by
      have h64 : (2 : Int) ^ amount.toInt.toNat ∣ ((2 ^ 64 : Nat) : Int) := by
        rw [Nat.cast_pow]
        exact pow_dvd_pow 2 (by omega)
      rw [hleft, ← Int.dvd_add_right (h64.trans Int.dvd_self_sub_bmod), sub_add_cancel]
      exact dvd_mul_left ..
    rw [← hback, Int.ediv_mul_cancel hdvd]
  · intro hv
    have hword : (a <<< amount).toInt = v.toInt := by
      rw [hleft, ← hv]
      exact Int64.toInt_bmod v
    have hpos : (2 : Int) ^ amount.toInt.toNat ≠ 0 := pow_ne_zero _ two_ne_zero
    exact ⟨by rw [hword, hv, Int.mul_ediv_cancel _ hpos], Int64.toInt_inj.mp hword⟩

/-! ## Digits in two's complement -/

section Digits

variable {x y : BitVec 64}

theorem toInt_of_msb (h : x.msb = true) : x.toInt = Int.negSucc (~~~x).toNat := by
  have hlt := x.isLt
  rw [BitVec.toInt_eq_msb_cond, if_pos h, Int.negSucc_eq, BitVec.toNat_not]
  omega

theorem toNat_and_not (x y : BitVec 64) :
    (~~~x &&& ~~~y).toNat = Nat.ldiff (~~~x).toNat y.toNat := by
  refine Nat.eq_of_testBit_eq fun i => ?_
  rw [Nat.testBit_ldiff, BitVec.toNat_and, Nat.testBit_and]
  simp only [BitVec.testBit_toNat, BitVec.getLsbD_not]
  cases decide (i < 64) <;> simp

end Digits

theorem toInt_or (a b : Int64) : (a ||| b).toInt = Int.lor a.toInt b.toInt := by
  rw [← Int64.toInt_toBitVec, ← Int64.toInt_toBitVec, ← Int64.toInt_toBitVec, Int64.toBitVec_or]
  generalize a.toBitVec = x
  generalize b.toBitVec = y
  cases hx : x.msb <;> cases hy : y.msb
  · have hmsb : (x ||| y).msb = false := by rw [BitVec.msb_or, hx, hy, Bool.or_self]
    rw [BitVec.toInt_eq_toNat_of_msb hx, BitVec.toInt_eq_toNat_of_msb hy,
      BitVec.toInt_eq_toNat_of_msb hmsb, BitVec.toNat_or]
    rfl
  · have hmsb : (x ||| y).msb = true := by rw [BitVec.msb_or, hy, Bool.or_true]
    rw [BitVec.toInt_eq_toNat_of_msb hx, toInt_of_msb hy, toInt_of_msb hmsb, BitVec.not_or,
      BitVec.and_comm, toNat_and_not]
    rfl
  · have hmsb : (x ||| y).msb = true := by rw [BitVec.msb_or, hx, Bool.true_or]
    rw [toInt_of_msb hx, BitVec.toInt_eq_toNat_of_msb hy, toInt_of_msb hmsb, BitVec.not_or,
      toNat_and_not]
    rfl
  · have hmsb : (x ||| y).msb = true := by rw [BitVec.msb_or, hx, Bool.true_or]
    rw [toInt_of_msb hx, toInt_of_msb hy, toInt_of_msb hmsb, BitVec.not_or, BitVec.toNat_and]
    rfl

end ForeignCall
