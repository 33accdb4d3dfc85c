import ForeignCall.Proofs.Target.Widths

/-!
# ForeignCall.Proofs.Target.Casts

Casts of integers to integer types. A cast reduces an integer to the width of the type, by steps
none of which needs more than 128 bits. So a cast changes nothing that has the width already, and
behind a cast to a wider type it gives what it gives without.

The width of a type is counted in 32 bits. A type of 2 ^ 29 bytes counts as one without any bits:
a cast to it loses the integer, and no cast behind it brings it back. From 2 ^ 61 bytes on the bits
are no word any more, and a cast to the type ends the program.

* `wrapWide?`, `wrapWide?_eq` — the reduction in integers of 128 bits;
* `wrapTo_wrapTo_iff` — one reduction behind another;
* **`Target.cast_modular`** — what a cast gives, and which casts in front of it make no difference.
-/

namespace ForeignCall

/-! ## Integers of 128 bits -/

/-- An integer of 128 bits. -/
def IsWide (v : Int) : Prop := minWide ≤ v ∧ v ≤ maxWide

instance : DecidablePred IsWide := fun v => inferInstanceAs (Decidable (minWide ≤ v ∧ v ≤ maxWide))

/-- An integer, if it has 128 bits. -/
def wide? (v : Int) : Option Int := if IsWide v then some v else none

/-- The remainder that is not negative. A machine divides toward zero, so the divisor is added to a
negative remainder. -/
def wideRemainder? (v divisor : Int) : Option Int := do
  let rest ← wide? (v.tmod divisor)
  if rest < 0 then wide? (rest + divisor) else some rest

/-- The reduction of an integer to a width, if no integer on the way needs more than 128 bits. -/
def wrapWide? (bits : Nat) (signed : Bool) (v : Int) : Option Int :=
  if 128 ≤ bits then some v
  else do
    let modulus ← wide? (2 ^ bits)
    let reduced ← wideRemainder? v modulus
    if signed ∧ modulus / 2 ≤ reduced then wide? (reduced - modulus) else some reduced

variable {bits bits' : Nat} {signed signed' : Bool} {v w : Int}

theorem wide?_eq (h : IsWide v) : wide? v = some v := if_pos h

/-- What is at most 2 ^ 126 away from zero has 128 bits. -/
theorem isWide_of_le (hlo : -(2 : Int) ^ 126 ≤ v) (hhi : v ≤ 2 ^ 126) : IsWide v := by
  constructor <;> simp only [minWide, maxWide] <;> omega

/-- Up to 2 ^ 126 a divisor leaves remainders of 128 bits. -/
theorem wideRemainder?_eq {divisor : Int} (hpos : 0 < divisor) (hle : divisor ≤ 2 ^ 126) :
    wideRemainder? v divisor = some (v % divisor) := by
  have hlo := Int.lt_tmod_of_pos v hpos
  have hhi := Int.tmod_lt_of_pos v hpos
  have hmod := Int.emod_nonneg v hpos.ne'
  have hmod' := Int.emod_lt_of_pos v hpos
  have htmod := Int.tmod_eq_emod (a := v) (b := divisor)
  have hrest : IsWide (v.tmod divisor) := isWide_of_le (by omega) (by omega)
  simp only [wideRemainder?, wide?_eq hrest, Option.bind_eq_bind, Option.bind_some]
  by_cases hexact : 0 ≤ v ∨ divisor ∣ v
  · rw [if_pos hexact] at htmod
    rw [if_neg (by omega)]
    congr 1
    omega
  · rw [if_neg hexact] at htmod
    have hsum : v.tmod divisor + divisor = v % divisor := by omega
    have hwide : IsWide (v % divisor) := isWide_of_le (by omega) (by omega)
    rw [if_pos (by omega), hsum, wide?_eq hwide]

/-- **No step of a reduction overflows.** -/
theorem wrapWide?_eq (hbits : bits ≤ 126) :
    wrapWide? bits signed v = some (wrapTo bits signed v) := by
  have hpos : (0 : Int) < 2 ^ bits := pow_pos (by decide) bits
  have hle : (2 : Int) ^ bits ≤ 2 ^ 126 := pow_le_pow_right₀ (by decide) hbits
  have hmodulus : IsWide (2 ^ bits) := isWide_of_le (by omega) hle
  have hmod := Int.emod_nonneg v hpos.ne'
  have hmod' := Int.emod_lt_of_pos v hpos
  have hnarrow : ¬128 ≤ bits := by omega
  simp only [wrapWide?, wrapTo, if_neg hnarrow, wide?_eq hmodulus, wideRemainder?_eq hpos hle,
    Option.bind_eq_bind, Option.bind_some]
  split
  · exact wide?_eq (isWide_of_le (by omega) (by omega))
  · rfl

/-! ## One reduction behind another -/

/-- A reduction to a wider width in front of another makes no difference. -/
theorem wrapTo_wrapTo (hle : bits ≤ bits') (hbits : bits < 128) :
    wrapTo bits signed (wrapTo bits' signed' v) = wrapTo bits signed v := by
  by_cases hwide : 128 ≤ bits'
  · rw [wrapTo.eq_1 bits', if_pos hwide]
  · have hmod : wrapTo bits' signed' v ≡ v [ZMOD 2 ^ bits'] := wrapTo_emod (by omega)
    exact wrapTo_congr hbits (hmod.of_dvd (pow_dvd_pow 2 hle))

/-- **Only wider reductions make no difference.** A narrower one does not tell its modulus from
zero, and the wider one behind it does. -/
theorem wrapTo_wrapTo_iff (hbits : bits ≤ 126) :
    (∀ v, IsWide v → wrapTo bits signed (wrapTo bits' signed' v) = wrapTo bits signed v) ↔
      bits ≤ bits' := by
  refine ⟨fun h => ?_, fun hle v _ => wrapTo_wrapTo hle (by omega)⟩
  by_contra hlt
  rw [not_le] at hlt
  have hpos : (0 : Int) < 2 ^ bits' := pow_pos (by decide) bits'
  have hpow : (2 : Int) ^ bits' < 2 ^ bits := pow_lt_pow_right₀ (by decide) hlt
  have hmax : (2 : Int) ^ bits ≤ 2 ^ 126 := pow_le_pow_right₀ (by decide) hbits
  have hzero := h 0 (by decide)
  have hmodulus := h (2 ^ bits') (isWide_of_le (by omega) (by omega))
  have hsame : wrapTo bits' signed' 0 = wrapTo bits' signed' (2 ^ bits') :=
    wrapTo_congr (by omega) Int.emod_self.symm
  have hrest : wrapTo bits signed 0 % 2 ^ bits = wrapTo bits signed (2 ^ bits') % 2 ^ bits := by
    rw [← hzero, ← hmodulus, hsame]
  rw [wrapTo_emod (by omega), wrapTo_emod (by omega), Int.zero_emod,
    Int.emod_eq_of_lt hpos.le hpow] at hrest
  omega

/-! ## Casts -/

/-- How many bits the integers of a kind have. -/
def Target.width (target : Target) (kind : IntKind) : Nat := (target.integral kind).size * 8

/-- A cast to the integer type of a kind, with a sign or without, gives `w` for `v`. -/
def Target.CastsTo (target : Target) (kind : IntKind) (signed : Bool) (v w : Int) : Prop :=
  target.cast (.integral kind signed) (.int v) = .ok (.int w)

variable {target : Target} {kind other : IntKind}

theorem Target.castBits_of_lt (h : target.width kind < 2 ^ 64) :
    target.castBits kind = .ok (target.width kind % 2 ^ 32) := by
  unfold width at h
  rw [castBits, bitCount_of_lt (by omega)]
  rfl

theorem Target.castBits_of_le (h : 2 ^ 64 ≤ target.width kind) :
    target.castBits kind = .error .multiply := by
  have hbits : ¬(target.integral kind).size * 8 < 2 ^ 64 := Nat.not_lt.mpr h
  unfold castBits bitCount
  rw [if_neg hbits]
  rfl

/-- Below 2 ^ 29 bytes the count of the bits is exact. -/
theorem Target.castBits_of_narrow (h : (target.integral kind).size < 2 ^ 29) :
    target.castBits kind = .ok (target.width kind) := by
  have hwidth : target.width kind < 2 ^ 32 := by
    unfold width
    omega
  rw [castBits_of_lt (by omega), Nat.mod_eq_of_lt hwidth]

theorem cast_integral (hkind : kind ≠ .bool) :
    target.cast (.integral kind signed) (.int v) =
      match target.castBits kind with
      | .error reason => .error (.abort reason)
      | .ok bits => .ok (.int (wrapTo bits signed v)) := by
  cases kind with
  | bool => exact absurd rfl hkind
  | char | short | int | long | longLong => rfl

theorem castsTo_iff (hkind : kind ≠ .bool) (hbits : target.castBits kind = .ok bits) :
    target.CastsTo kind signed v w ↔ wrapTo bits signed v = w := by
  simp only [Target.CastsTo, cast_integral hkind, hbits, Except.ok.injEq, Scalar.int.injEq]

/-- A cast behind another one is one reduction behind another. -/
theorem cast_cast_eq_iff (hkind : kind ≠ .bool) (hother : other ≠ .bool)
    (hbits : target.castBits kind = .ok bits) (hbits' : target.castBits other = .ok bits') :
    target.cast (.integral other signed') (.int v) >>= target.cast (.integral kind signed) =
        target.cast (.integral kind signed) (.int v) ↔
      wrapTo bits signed (wrapTo bits' signed' v) = wrapTo bits signed v := by
  simp only [cast_integral hother, hbits', bind, Except.bind, cast_integral hkind, hbits,
    Except.ok.injEq, Scalar.int.injEq]

/-- Behind a cast that ends the program there is no other. -/
theorem cast_cast_ne (hkind : kind ≠ .bool) (hother : other ≠ .bool)
    (hbits : target.castBits kind = .ok bits) {reason : Abort}
    (habort : target.castBits other = .error reason) :
    target.cast (.integral other signed') (.int v) >>= target.cast (.integral kind signed) ≠
      target.cast (.integral kind signed) (.int v) := by
  simp only [cast_integral hother, habort, bind, Except.bind, cast_integral hkind, hbits]
  exact nofun

/-- **Casts of integers reduce modulo a power of two.** For a type of 1 to 15 bytes a cast gives the
only integer of the type that is congruent to the one that is cast, without an overflow of 128 bits
on the way. A second cast to the type changes nothing, nor does the first one change an integer of
the type. A cast to another type in front makes no difference exactly when the bits of that type are
a word, and after they are counted in 32 bits it has at least as many; below 2 ^ 29 bytes the count
is exact. -/
theorem Target.cast_modular (target : Target) (kind : IntKind) (signed : Bool)
    (hkind : kind ≠ .bool) (hpos : 1 ≤ (target.integral kind).size)
    (hsize : (target.integral kind).size ≤ 15) :
    (∀ v, IsWide v → ∃ w, target.CastsTo kind signed v w ∧
      (∀ u, HasWidth (target.width kind) signed u ∧ u ≡ v [ZMOD 2 ^ target.width kind] ↔ u = w) ∧
      (∃ bits, target.castBits kind = .ok bits ∧ wrapWide? bits signed v = some w) ∧
      target.CastsTo kind signed w w) ∧
    (∀ v, HasWidth (target.width kind) signed v → target.CastsTo kind signed v v) ∧
    ∀ other signed', other ≠ .bool →
      ((∀ v, IsWide v →
          target.cast (.integral other signed') (.int v) >>= target.cast (.integral kind signed) =
            target.cast (.integral kind signed) (.int v)) ↔
        target.width other < 2 ^ 64 ∧ target.width kind ≤ target.width other % 2 ^ 32) := by
  have hbits : target.castBits kind = .ok (target.width kind) := castBits_of_narrow (by omega)
  have hwidth : 0 < target.width kind ∧ target.width kind ≤ 120 := by
    unfold width
    omega
  refine ⟨fun v _ => ⟨wrapTo (target.width kind) signed v, ?_, fun u => ?_, ⟨_, hbits, ?_⟩, ?_⟩,
    fun v hv => ?_, fun other signed' hother => ?_⟩
  · rw [castsTo_iff hkind hbits]
  · rw [eq_comm, wrapTo_eq_iff hwidth.1 (by omega)]
    rfl
  · rw [wrapWide?_eq (by omega)]
  · rw [castsTo_iff hkind hbits, wrapTo_wrapTo le_rfl (by omega)]
  · rw [castsTo_iff hkind hbits, wrapTo_eq_self_iff hwidth.1 (by omega)]
    exact hv
  · by_cases hword : target.width other < 2 ^ 64
    · simp only [cast_cast_eq_iff hkind hother hbits (castBits_of_lt hword), and_iff_right hword]
      exact wrapTo_wrapTo_iff (by omega)
    · have habort := castBits_of_le (Nat.not_lt.mp hword)
      exact iff_of_false (fun h => cast_cast_ne hkind hother hbits habort (h 0 (by decide)))
        fun h => hword h.1

/-- As a signed character 200 is -56, and no character changes by way of an unsigned `int`. -/
theorem Target.cast_modular_char :
    lp64.CastsTo .char true 200 (-56) ∧ wrapWide? 8 true 200 = some (-56) ∧
      ∀ v, IsWide v →
        lp64.cast (.integral .int false) (.int v) >>= lp64.cast (.integral .char true) =
          lp64.cast (.integral .char true) (.int v) := by
  obtain ⟨hcast, -, hother⟩ :=
    cast_modular .lp64 .char true (by decide) (by decide) (by decide)
  obtain ⟨w, hw, hunique, ⟨bits, hbits, hwide⟩, -⟩ := hcast 200 (by decide)
  have hrange : HasWidth (lp64.width .char) true (-56) := ⟨by decide, by decide⟩
  obtain rfl := (hunique (-56)).mp ⟨hrange, by decide⟩
  obtain rfl : 8 = bits := Except.ok.inj hbits
  exact ⟨hw, hwide, (hother .int false (by decide)).mpr (by decide)⟩

/-- A target whose `long` has 2 ^ 29 bytes. -/
def longestLong : Target := { Target.lp64 with long := ⟨2 ^ 29, 8⟩ }

/-- A `long` of 2 ^ 32 bits is reduced as if it had none, so an `int` does not survive in it. -/
theorem Target.cast_through_longestLong :
    longestLong.width .int ≤ longestLong.width .long ∧
      longestLong.cast (.integral .long true) (.int 5) >>= longestLong.cast .int =
        .ok (.int (-1)) ∧
      longestLong.cast .int (.int 5) = .ok (.int 5) :=
  ⟨by decide, rfl, rfl⟩

end ForeignCall
