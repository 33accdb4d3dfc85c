import ForeignCall.Proofs.Layout.Aggregates

/-!
# ForeignCall.Proofs.Layout.Elements

The elements of arrays. They lie one behind the other without a gap, so each is where it should be
only if the size of an element is a multiple of its alignment. The sizes of structs are, with one
exception: a struct whose members have no bytes is given one byte, whatever its alignment is. The
offset of an element does not depend on that, nor on whether the whole array fits 64 bits.

* `CType.layout_array` — the layout of an array, by that of its elements;
* `CType.dvd_structSize_iff`, `CType.struct_size` — when the size of a struct is a multiple of its
  alignment, and with it the layout of an array of structs;
* `CType.elementOffset_eq_ok_iff`, `CType.element_placement` — where elements lie, and when the
  array around them has a layout.
-/

namespace ForeignCall.CType

variable {target : Target} {pack : Nat}

/-! ## Arrays -/

/-- An array has a layout if its elements are a multiple of their alignment apart and all fits. The
length of an element is no multiple of zero: such an alignment ends the program. -/
theorem layout_array {base : CType} {element : Layout}
    (h : layout target pack base = .ok element) (dim : UInt64) :
    layout target pack (.array base (some dim)) =
      if element.align = 0 then .error (.abort .remainder)
      else if element.align ∣ element.size then
        if element.size * dim.toNat ≤ maxSize then
          .ok ⟨element.size * dim.toNat, element.align⟩
        else .error (.overflow (.array base (some dim)))
      else .error (.misalignedElement (.array base (some dim)) element.size element.align) := by
  obtain ⟨p, hp, rfl⟩ := exists_place_of_layout h
  rw [layout, if_pos (validPack_of_layout h), place, hp]
  simp only [arrayOf, ne_eq, ← Nat.dvd_iff_mod_eq_zero, ite_not, checked]
  split
  · rfl
  · split
    · split <;> rfl
    · rfl

/-- An array has a layout exactly if its elements are a multiple of their alignment long, which is
not zero, and all of them fit. -/
theorem layout_array_eq_ok_iff {base : CType} {element l : Layout} {dim : UInt64}
    (h : layout target pack base = .ok element) :
    layout target pack (.array base (some dim)) = .ok l ↔
      (0 < element.align ∧ element.align ∣ element.size ∧ element.size * dim.toNat ≤ maxSize) ∧
        l = ⟨element.size * dim.toNat, element.align⟩ := by
  rw [layout_array h]
  by_cases hzero : element.align = 0
  · simp [hzero]
  · by_cases hdvd : element.align ∣ element.size
    · by_cases hfits : element.size * dim.toNat ≤ maxSize
      · simp [hzero, hdvd, hfits, Nat.pos_of_ne_zero hzero, eq_comm]
      · simp [hzero, hdvd, hfits]
    · simp [hzero, hdvd]

/-! ## Arrays of structs -/

/-- A struct has a multiple of its alignment as size if it has a member with a byte. -/
theorem dvd_structSize_iff {ls : List Layout} {ps : List Nat} {stop rounded : Nat}
    (hps : Consecutive pack 0 ls ps stop)
    (hrounded : NextMultiple (structAlign pack ls) stop rounded) :
    structAlign pack ls ∣ structSize rounded ↔
      structAlign pack ls = 1 ∨ ∃ l ∈ ls, 0 < l.size := by
  have hempty : rounded = 0 ↔ ∀ l ∈ ls, l.size = 0 := by
    rw [hrounded.eq_zero_iff, hps.stop_eq_zero_iff]
    simp
  unfold structSize
  split
  · next hzero =>
    -- the struct has no byte but the one that it is given
    have hbytes : ¬∃ l ∈ ls, 0 < l.size := by
      rintro ⟨l, hl, hpos⟩
      exact Nat.ne_of_gt hpos (hempty.mp hzero l hl)
    rw [Nat.dvd_one, or_iff_left hbytes]
  · next hzero =>
    refine iff_of_true hrounded.dvd (.inr ?_)
    by_contra hbytes
    exact hzero (hempty.mpr fun l hl => Nat.eq_zero_of_not_pos fun hpos => hbytes ⟨l, hl, hpos⟩)

/-- **The size of a struct.** It is positive. It is a multiple of the alignment unless the alignment
is above 1 and no member has a byte. If it is, an array of these structs has a layout as long as its
size fits; if it is not, there are no arrays of them. -/
theorem struct_size (htarget : target.Aligned) (queries : List Engine.Query)
    {tag : Option String} {members : List (Member CType)} {l : Layout}
    (hl : (((Engine.new target).after queries).layout pack (.aggregate .struct tag members)).1 =
      .ok l) :
    let engine := (Engine.new target).after queries
    let array := fun dim => CType.array (.aggregate .struct tag members) (some dim)
    1 ≤ l.size ∧
      (l.align ∣ l.size ↔ l.align = 1 ∨
        ∃ m ∈ members, ∃ part, (engine.layout pack m.type).1 = .ok part ∧ 0 < part.size) ∧
      ∀ dim : UInt64, (engine.layout pack (array dim)).1 =
        if l.align ∣ l.size then
          if l.size * dim.toNat ≤ maxSize then .ok ⟨l.size * dim.toNat, l.align⟩
          else .error (.overflow (array dim))
        else .error (.misalignedElement (array dim) l.size l.align) := by
  intro engine array
  rw [Engine.layout_after] at hl
  obtain ⟨p, hp, rfl⟩ := exists_place_of_layout hl
  obtain ⟨ls, ps, stop, rounded, hls, hps, hrounded, -, rfl⟩ :=
    place_struct_eq_ok htarget (validPack_of_layout hl) hp
  refine ⟨?_, ?_, fun dim => ?_⟩
  · rw [structSize_eq_max]
    exact Nat.le_max_right ..
  · simp only [engine, Engine.layout_after]
    rw [dvd_structSize_iff hps hrounded, hls.exists_mem_iff]
  · rw [Engine.layout_after, layout_array hl, if_neg (align_pos_of_place htarget hp).ne']

/-- The struct `struct { short a; char b; }`. -/
def shortAndChar : CType :=
  .aggregate .struct none [⟨some "a", .integral .short true⟩, ⟨some "b", .integral .char true⟩]

theorem struct_size_shortAndChar :
    Target.lp64.Aligned ∧ ((Engine.new .lp64).layout 8 shortAndChar).1 = .ok ⟨4, 2⟩ ∧
      1 ≤ 4 ∧ 2 ∣ 4 ∧
        ((Engine.new .lp64).layout 8 (.array shortAndChar (some 10))).1 = .ok ⟨40, 2⟩ := by
  have htarget : Target.lp64.Aligned := by decide
  have hlayout : ((Engine.new .lp64).layout 8 shortAndChar).1 = .ok ⟨4, 2⟩ := by decide +kernel
  have hmember : ((Engine.new .lp64).layout 8 (.integral .short true)).1 = .ok ⟨2, 2⟩ := by
    decide +kernel
  obtain ⟨hpos, hdvd, harray⟩ := struct_size htarget [] hlayout
  have hmultiple : 2 ∣ 4 := hdvd.mpr (.inr ⟨_, .head _, _, hmember, Nat.two_pos⟩)
  refine ⟨htarget, hlayout, hpos, hmultiple, (harray 10).trans ?_⟩
  rw [if_pos hmultiple]
  decide

/-- The struct `struct { int row[0]; }`. -/
def emptyRow : CType := .aggregate .struct none [⟨some "row", .array .int (some 0)⟩]

/-- A struct without bytes whose alignment is 4: it has one byte, and there are no arrays of it. -/
theorem emptyRow_not_multiple :
    ((Engine.new .lp64).layout 8 emptyRow).1 = .ok ⟨1, 4⟩ ∧ ¬4 ∣ 1 ∧
      ((Engine.new .lp64).layout 8 (.array emptyRow (some 2))).1 =
        .error (.misalignedElement (.array emptyRow (some 2)) 1 4) := by
  decide +kernel

/-! ## Elements -/

/-- An element of an array has an offset if the array has the element, and the offset fits. -/
theorem elementOffset_eq_ok_iff {base : CType} {dim : Option UInt64} {index o : Nat} :
    elementOffset target pack (.array base dim) index = .ok o ↔
      ∃ n element, dim = some n ∧ layout target pack base = .ok element ∧ index < n.toNat ∧
        element.size * index ≤ maxSize ∧ o = element.size * index := by
  cases dim with
  | none => simp [elementOffset]
  | some n =>
    rw [elementOffset]
    by_cases hindex : n.toNat ≤ index
    · simp [hindex, Nat.not_lt.mpr hindex]
    · cases hbase : layout target pack base with
      | error e => simp [hindex]
      | ok element =>
        by_cases hfits : element.size * index ≤ maxSize
        · simp [hindex, Nat.not_le.mp hindex, checked, hfits, eq_comm]
        · simp [hindex, checked, hfits]

/-- An element ends where the next one starts, so before all that have larger indices. -/
theorem element_le {size index index' : Nat} (h : index < index') :
    size * index + size ≤ size * index' := by
  rw [← Nat.mul_succ]
  exact Nat.mul_le_mul_left size h

/-- **Where the elements of an array lie.** An element that has an offset does not overlap with
another. The array around it has a layout exactly if the elements are a multiple of their positive
alignment long and all of them together fit 64 bits; then the element lies inside the array, and
starts at a multiple of its alignment. -/
theorem element_placement (queries : List Engine.Query) {base : CType} {dim : Option UInt64}
    {index o : Nat}
    (ho : (((Engine.new target).after queries).elementOffset pack (.array base dim) index).1 =
      .ok o) :
    let engine := (Engine.new target).after queries
    let array := CType.array base dim
    ∃ n element, dim = some n ∧ (engine.layout pack base).1 = .ok element ∧
      o = element.size * index ∧
      ((∃ size, (engine.sizeOf pack array).1 = .ok size) ↔
        0 < element.align ∧ element.align ∣ element.size ∧ element.size * n.toNat ≤ maxSize) ∧
      (∀ size, (engine.sizeOf pack array).1 = .ok size →
        o + element.size ≤ size ∧ element.align ∣ o) ∧
      ∀ index' o', (engine.elementOffset pack array index').1 = .ok o' → index < index' →
        o + element.size ≤ o' := by
  intro engine array
  simp only [engine, array, Engine.elementOffset_after, Engine.sizeOf_after, Engine.layout_after]
    at ho ⊢
  obtain ⟨n, element, rfl, helement, hindex, -, rfl⟩ := elementOffset_eq_ok_iff.mp ho
  refine ⟨n, element, rfl, helement, rfl, ?_, ?_, ?_⟩
  · simp only [except_map_eq_ok, layout_array_eq_ok_iff helement]
    constructor
    · rintro ⟨_, l, ⟨hfits, -⟩, -⟩
      exact hfits
    · intro hfits
      exact ⟨_, _, ⟨hfits, rfl⟩, rfl⟩
  · intro size hsize
    simp only [except_map_eq_ok, layout_array_eq_ok_iff helement] at hsize
    obtain ⟨_, ⟨⟨-, hdvd, -⟩, rfl⟩, rfl⟩ := hsize
    exact ⟨element_le hindex, Nat.dvd_mul_right_of_dvd hdvd index⟩
  · intro index' o' ho' hlt
    obtain ⟨_, element', _, helement', _, _, rfl⟩ := elementOffset_eq_ok_iff.mp ho'
    obtain rfl := Except.ok.inj (helement.symm.trans helement')
    exact element_le hlt

theorem element_placement_shortAndChar :
    ((Engine.new .lp64).elementOffset 8 (.array shortAndChar (some 10)) 3).1 = .ok 12 ∧
      ((Engine.new .lp64).sizeOf 8 (.array shortAndChar (some 10))).1 = .ok 40 ∧
        12 + 4 ≤ 40 ∧ 2 ∣ 12 := by
  have helement : ((Engine.new .lp64).layout 8 shortAndChar).1 = .ok ⟨4, 2⟩ := by decide +kernel
  have hoffset : ((Engine.new .lp64).elementOffset 8 (.array shortAndChar (some 10)) 3).1 =
      .ok 12 := by decide +kernel
  have hsize : ((Engine.new .lp64).sizeOf 8 (.array shortAndChar (some 10))).1 = .ok 40 := by
    decide +kernel
  obtain ⟨n, element, -, helement', -, -, hinside, -⟩ := element_placement [] hoffset
  obtain rfl := Except.ok.inj (helement.symm.trans helement')
  exact ⟨hoffset, hsize, hinside 40 hsize⟩

/-- The union `union { unsigned char bytes[5]; unsigned int word; }`. -/
def oddUnion : CType :=
  .aggregate .union none [⟨some "bytes", .array .uchar (some 5)⟩, ⟨some "word", .uint⟩]

/-- Elements with offsets in arrays without a layout: one at 5 whose alignment is 4, and one of more
elements than fit. -/
theorem elements_without_array :
    ((Engine.new .lp64).elementOffset 8 (.array oddUnion (some 2)) 1).1 = .ok 5 ∧
      ((Engine.new .lp64).sizeOf 8 (.array oddUnion (some 2))).1 =
        .error (.misalignedElement (.array oddUnion (some 2)) 5 4) ∧ ¬4 ∣ 5 ∧
      ((Engine.new .lp64).elementOffset 8 (.array .int (some 18446744073709551615)) 0).1 = .ok 0 ∧
        ((Engine.new .lp64).sizeOf 8 (.array .int (some 18446744073709551615))).1 =
          .error (.overflow (.array .int (some 18446744073709551615))) := by
  decide +kernel

end ForeignCall.CType
