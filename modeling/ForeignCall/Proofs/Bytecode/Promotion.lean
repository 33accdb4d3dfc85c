import ForeignCall.Bytecode.Compiler
import ForeignCall.Proofs.Target.Widths

/-!
# ForeignCall.Proofs.Bytecode.Promotion

The type as which an argument is passed that no parameter describes, and the default argument
promotions of C. These ask whether an `int` has all values of a type, which depends on the target.
The compiler does not ask: every integer of a lower rank becomes an `int`. So the two differ for
unsigned integers of a lower rank that are as long as an `int`, and for nothing else.

* `Target.Represents`, `Target.Promotes` — the values of integer types, and the promotions of C;
* `Target.FillsInt` — the unsigned types that need an `unsigned int`;
* `promotes_promoted_iff` — where the compiler follows the promotions.
-/

namespace ForeignCall

/-! ## The promotions of C -/

/-- The integer types have the sizes of machine integers, and none is longer than one of a higher
rank. -/
structure Target.Ordered (target : Target) : Prop where
  sizes : ∀ kind, (target.integral kind).size ∈ [1, 2, 4, 8]
  bool_le : target.bool.size ≤ target.short.size
  char_le : target.char.size ≤ target.short.size
  short_le : target.short.size ≤ target.int.size
  int_le : target.int.size ≤ target.long.size
  long_le : target.long.size ≤ target.longLong.size

/-- An integer is a value of a type. -/
def Target.Represents (target : Target) : CType → Int → Prop
  | .integral .bool _, v => v = 0 ∨ v = 1
  | .integral kind signed, v => HasWidth ((target.integral kind).size * 8) signed v
  | .enum .., v => HasWidth (target.int.size * 8) true v
  | _, _ => False

/-- All values of a type are values of an `int`. -/
def Target.IntHolds (target : Target) (t : CType) : Prop :=
  ∀ v, target.Represents t v → target.Represents .int v

/-- The integer types of a rank below that of `int`. -/
def IntKind.belowInt : IntKind → Bool
  | .bool | .char | .short => true
  | .int | .long | .longLong => false

/-- The types that the promotions of C leave as they are. -/
def CType.Unpromoted : CType → Prop
  | .integral kind _ => kind.belowInt = false
  | .floating kind => kind ≠ .float
  | .enum .. | .array .. | .func .. => False
  | .void | .special _ | .pointer _ | .aggregate .. | .placeholder .. => True

/-- The default argument promotions of C, with the conversions of arrays and functions. -/
inductive Target.Promotes (target : Target) : CType → CType → Prop where
  | toInt {kind : IntKind} {signed : Bool} (hrank : kind.belowInt = true)
    (hholds : target.IntHolds (.integral kind signed)) :
    Promotes target (.integral kind signed) .int
  | toUInt {kind : IntKind} {signed : Bool} (hrank : kind.belowInt = true)
    (hholds : ¬target.IntHolds (.integral kind signed)) :
    Promotes target (.integral kind signed) .uint
  | enum (tag : Option String) (values : List (String × Int64)) :
    Promotes target (.enum tag values) .int
  | float : Promotes target (.floating .float) .double
  | array (base : CType) (dim : Option UInt64) : Promotes target (.array base dim) (.pointer base)
  | func (params : List (Member CType)) (ret : CType) (variadic : Bool) :
    Promotes target (.func params ret variadic) (.pointer (.func params ret variadic))
  | same {t : CType} (h : t.Unpromoted) : Promotes target t t

/-! ## Integers of a lower rank -/

/-- An unsigned integer type of a lower rank that is as long as an `int`. Truth values are none, as
they are 0 and 1 however long they are. -/
def Target.FillsInt (target : Target) : CType → Prop
  | .integral kind signed =>
    kind.belowInt = true ∧ kind ≠ .bool ∧ signed = false ∧
      (target.integral kind).size = target.int.size
  | _ => False

instance (target : Target) : DecidablePred target.FillsInt
  | .integral kind signed =>
    inferInstanceAs (Decidable (kind.belowInt = true ∧ kind ≠ .bool ∧ signed = false ∧
      (target.integral kind).size = target.int.size))
  | .void | .special _ | .floating _ | .pointer _ | .array .. | .aggregate .. | .placeholder ..
  | .enum .. | .func .. => inferInstanceAs (Decidable False)

variable {target : Target}

theorem Target.Ordered.int_pos (h : target.Ordered) : 0 < target.int.size := by
  have hsize := h.sizes .int
  simp only [integral, List.mem_cons, List.not_mem_nil, or_false] at hsize
  omega

/-- An `int` is at least as long as the integers of a lower rank. -/
theorem Target.Ordered.size_le_int (h : target.Ordered) {kind : IntKind}
    (hrank : kind.belowInt = true) : (target.integral kind).size ≤ target.int.size := by
  cases kind with
  | bool => exact h.bool_le.trans h.short_le
  | char => exact h.char_le.trans h.short_le
  | short => exact h.short_le
  | int | long | longLong => cases hrank

theorem represents_int_iff {v : Int} :
    target.Represents .int v ↔ HasWidth (target.int.size * 8) true v :=
  Iff.rfl

theorem represents_iff_hasWidth {kind : IntKind} (hkind : kind ≠ .bool) {signed : Bool} {v : Int} :
    target.Represents (.integral kind signed) v ↔
      HasWidth ((target.integral kind).size * 8) signed v := by
  cases kind with
  | bool => exact absurd rfl hkind
  | char | short | int | long | longLong => exact Iff.rfl

/-- An `int` has the truth values. -/
theorem Target.Ordered.intHolds_bool (h : target.Ordered) {signed : Bool} :
    target.IntHolds (.integral .bool signed) := by
  have hbyte : HasWidth 8 true 0 ∧ HasWidth 8 true 1 := by simp [HasWidth]
  have hlong : 8 ≤ target.int.size * 8 := by
    have := h.int_pos
    omega
  rintro v (rfl | rfl)
  · exact represents_int_iff.mpr (hbyte.1.mono hlong)
  · exact represents_int_iff.mpr (hbyte.2.mono hlong)

/-- **Where an `int` has all values.** It has those of every integer of a lower rank, unless this is
unsigned and as long as the `int`. -/
theorem Target.Ordered.intHolds_iff (h : target.Ordered) {kind : IntKind} {signed : Bool}
    (hrank : kind.belowInt = true) :
    target.IntHolds (.integral kind signed) ↔ ¬target.FillsInt (.integral kind signed) := by
  by_cases hkind : kind = .bool
  · subst hkind
    exact iff_of_true h.intHolds_bool fun hfills => hfills.2.1 rfl
  have hle := h.size_le_int hrank
  simp only [IntHolds, represents_iff_hasWidth hkind, represents_int_iff]
  constructor
  · rintro hholds ⟨-, -, rfl, hsize⟩
    rw [hsize] at hholds
    have hpos := h.int_pos
    exact not_hasWidth_max (by omega) (hholds _ (hasWidth_max _))
  · intro hfills v hv
    cases signed with
    | true => exact hv.mono (by omega)
    | false =>
      have hsize : (target.integral kind).size ≠ target.int.size :=
        fun hsize => hfills ⟨hrank, hkind, rfl, hsize⟩
      exact hv.withSign (by omega)

/-- Where a `short` is shorter than an `int`, no integer of a lower rank is as long. -/
theorem Target.Ordered.not_fillsInt (h : target.Ordered)
    (hshort : target.short.size < target.int.size) (t : CType) : ¬target.FillsInt t := by
  cases t with
  | integral kind signed =>
    rintro ⟨hrank, hkind, -, hsize⟩
    cases kind with
    | bool => exact hkind rfl
    | char => exact absurd hsize (h.char_le.trans_lt hshort).ne
    | short => exact absurd hsize hshort.ne
    | int | long | longLong => cases hrank
  | void | special | floating | pointer | array | aggregate | placeholder | enum | func => exact id

/-! ## The promotions of the compiler -/

/-- No promotion of C changes a value. -/
theorem Target.Promotes.represents (h : target.Ordered) {t t' : CType}
    (hpromotes : target.Promotes t t') {v : Int} (hv : target.Represents t v) :
    target.Represents t' v := by
  cases hpromotes with
  | toInt hrank hholds => exact hholds v hv
  | @toUInt kind signed hrank hholds =>
    obtain ⟨-, hkind, rfl, hsize⟩ := not_not.mp (mt (h.intHolds_iff hrank).mpr hholds)
    rw [represents_iff_hasWidth hkind, hsize] at hv
    exact hv
  | enum => exact hv
  | float | array | func => cases hv
  | same => exact hv

theorem promoted_of_belowInt {kind : IntKind} {signed : Bool} (hrank : kind.belowInt = true) :
    promoted (.integral kind signed) = .int := by
  cases kind with
  | bool | char | short => rfl
  | int | long | longLong => cases hrank

theorem promoted_of_not_belowInt {kind : IntKind} {signed : Bool} (hrank : ¬kind.belowInt = true) :
    promoted (.integral kind signed) = .integral kind signed := by
  cases kind with
  | bool | char | short => exact absurd rfl hrank
  | int | long | longLong => rfl

/-- **Where the compiler follows C.** The type as which it passes an argument is that of the
promotions of C, unless the argument needs an `unsigned int`. -/
theorem promotes_promoted_iff (h : target.Ordered) (t : CType) :
    target.Promotes t (promoted t) ↔ ¬target.FillsInt t := by
  cases t with
  | integral kind signed =>
    by_cases hrank : kind.belowInt = true
    · rw [promoted_of_belowInt hrank, ← h.intHolds_iff hrank]
      constructor
      · intro hpromotes
        cases hpromotes with
        | toInt _ hholds => exact hholds
        | same hunpromoted => cases hrank
      · exact .toInt hrank
    · rw [promoted_of_not_belowInt hrank]
      exact iff_of_true (.same (Bool.eq_false_iff.mpr hrank)) fun hfills => hrank hfills.1
  | enum tag values => exact iff_of_true (.enum tag values) id
  | floating kind =>
    cases kind with
    | float => exact iff_of_true .float id
    | double | longDouble => exact iff_of_true (.same (by simp [CType.Unpromoted])) id
  | array base dim => exact iff_of_true (.array base dim) id
  | func params ret variadic => exact iff_of_true (.func params ret variadic) id
  | void | special | pointer | aggregate | placeholder => exact iff_of_true (.same trivial) id

/-- The types that need an `unsigned int`. The compiler makes an `int` of them, which has not all of
their values. -/
theorem Target.FillsInt.promotes (h : target.Ordered) {t : CType} (ht : target.FillsInt t) :
    target.Promotes t .uint ∧ promoted t = .int ∧ ¬target.IntHolds t := by
  cases t with
  | integral kind signed =>
    have hholds : ¬target.IntHolds (.integral kind signed) :=
      fun hholds => (h.intHolds_iff ht.1).mp hholds ht
    exact ⟨.toUInt ht.1 hholds, promoted_of_belowInt ht.1, hholds⟩
  | void | special | floating | pointer | array | aggregate | placeholder | enum | func => cases ht

end ForeignCall
