import ForeignCall.Proofs.Layout.Aggregates
import Mathlib.Order.MinMax

/-!
# ForeignCall.Proofs.Layout.Packing

One type under two packing widths. Where all alignments are powers of two, the effective alignments
under the narrower packing divide those under the wider one. So each step rounds up to less, and no
member starts later and no struct gets longer than it does under the wider packing.

* `Finer` — powers of two in order, and `Finer.roundUp_le`: rounding up to a finer one;
* `Placement.Tighter` — what is laid out more tightly, and one lemma for each step of a layout;
* `CType.place_tighter` — the narrower packing is the tighter one;
* `CType.place_eq_of_wide` — packing does nothing if it is as wide as all alignments;
* `CType.layout_of_pack_le` — both for the layouts and the offsets that are given.
-/

namespace ForeignCall

/-! ## Alignments and powers of two -/

/-- All alignments of the primitive types are powers of two. -/
def Target.BinaryAligned (target : Target) : Prop := ∀ e ∈ target.entries, ∃ k, e.2.align = 2 ^ k

theorem Target.binaryAligned_iff {target : Target} :
    target.BinaryAligned ↔ ∀ e ∈ target.entries, e.2.align = 2 ^ e.2.align.log2 := by
  refine forall₂_congr fun e _ => ⟨?_, fun h => ⟨_, h⟩⟩
  rintro ⟨k, hk⟩
  rw [hk, Nat.log2_two_pow]

instance (target : Target) : Decidable target.BinaryAligned :=
  decidable_of_iff' _ Target.binaryAligned_iff

/-- No alignment of a primitive type exceeds a packing width. -/
def Target.AlignedUpTo (target : Target) (pack : Nat) : Prop :=
  ∀ e ∈ target.entries, e.2.align ≤ pack

instance (target : Target) (pack : Nat) : Decidable (target.AlignedUpTo pack) :=
  inferInstanceAs (Decidable (∀ e ∈ target.entries, e.2.align ≤ pack))

/-- Powers of two in order, so that the first divides the second. -/
def Finer (a b : Nat) : Prop := ∃ k l, k ≤ l ∧ a = 2 ^ k ∧ b = 2 ^ l

theorem finer_two_pow {i j : Nat} (h : i ≤ j) : Finer (2 ^ i) (2 ^ j) := ⟨i, j, h, rfl, rfl⟩

namespace Finer

variable {a b c d n m : Nat}

theorem dvd (h : Finer a b) : a ∣ b := by
  obtain ⟨k, l, hkl, rfl, rfl⟩ := h
  exact Nat.pow_dvd_pow 2 hkl

theorem pos (h : Finer a b) : 0 < a := by
  obtain ⟨k, -, -, rfl, -⟩ := h
  exact Nat.two_pow_pos k

theorem pos' (h : Finer a b) : 0 < b := by
  obtain ⟨-, l, -, -, rfl⟩ := h
  exact Nat.two_pow_pos l

theorem min (h : Finer a b) (h' : Finer c d) : Finer (min a c) (min b d) := by
  obtain ⟨i, j, hij, rfl, rfl⟩ := h
  obtain ⟨k, l, hkl, rfl, rfl⟩ := h'
  have hmono : Monotone fun e : Nat => 2 ^ e := fun _ _ => Nat.pow_le_pow_right Nat.two_pos
  exact ⟨i ⊓ k, j ⊓ l, min_le_min hij hkl, hmono.map_min.symm, hmono.map_min.symm⟩

theorem max (h : Finer a b) (h' : Finer c d) : Finer (max a c) (max b d) := by
  obtain ⟨i, j, hij, rfl, rfl⟩ := h
  obtain ⟨k, l, hkl, rfl, rfl⟩ := h'
  have hmono : Monotone fun e : Nat => 2 ^ e := fun _ _ => Nat.pow_le_pow_right Nat.two_pos
  exact ⟨i ⊔ k, j ⊔ l, max_le_max hij hkl, hmono.map_max.symm, hmono.map_max.symm⟩

/-- Rounding up to a finer alignment gives less: the multiples of the coarser one are among those of
the finer one. -/
theorem roundUp_le (h : Finer a b) (hle : n ≤ m) : roundUp n a ≤ roundUp m b := by
  obtain ⟨⟨hmultiple, hbehind⟩, -⟩ := nextMultiple_roundUp h.pos' m
  exact (nextMultiple_roundUp h.pos n).2 ⟨Nat.dvd_trans h.dvd hmultiple, hle.trans hbehind⟩

end Finer

/-! ## One step under two packing widths -/

/-- The same members in the same order, none of them later. -/
def Offsets.Earlier (os os' : Offsets) : Prop :=
  List.Forall₂ (fun a b => a.1 = b.1 ∧ a.2 ≤ b.2) os os'

/-- What is laid out more tightly than something else: it is not longer, it has a finer alignment,
and its members are not later. -/
structure Placement.Tighter (p p' : Placement) : Prop where
  size : p.layout.size ≤ p'.layout.size
  align : Finer p.layout.align p'.layout.align
  offsets : p.offsets.Earlier p'.offsets

/-- A struct that is laid out more tightly so far. -/
structure StructState.Tighter (s s' : StructState) : Prop where
  stop : s.stop ≤ s'.stop
  align : Finer s.align s'.align
  offsets : s.offsets.Earlier s'.offsets

section Steps

variable {whole : CType} {pack pack' : Nat} {p p' : Placement}

/-- A member that does not start later brings offsets that are not later. -/
theorem earlier_memberOffsets {name : Option String} {t : CType} (hp : p.offsets.Earlier p'.offsets)
    {offset offset' : Nat} (hle : offset ≤ offset') {os os' : Offsets}
    (h : memberOffsets name t p offset = .ok os) (h' : memberOffsets name t p' offset' = .ok os') :
    os.Earlier os' := by
  cases name with
  | some name =>
    obtain rfl := Except.ok.inj h
    obtain rfl := Except.ok.inj h'
    exact .cons ⟨rfl, hle⟩ .nil
  | none =>
    cases t with
    | aggregate kind tag members =>
      obtain rfl := Except.ok.inj h
      obtain rfl := Except.ok.inj h'
      rw [Offsets.Earlier, List.forall₂_map_left_iff, List.forall₂_map_right_iff]
      exact hp.imp fun a b hab => ⟨hab.1, Nat.add_le_add hle hab.2⟩
    | void | special | integral | floating | pointer | array | placeholder | enum | func => cases h

theorem tighter_joinStruct (hpack : Finer pack pack') (whole : CType) (s s' : StructState)
    (m : Member CType) (p p' : Placement) (r r' : StructState) (hs : s.Tighter s')
    (hp : p.Tighter p') (h : CType.joinStruct whole pack s m p = .ok r)
    (h' : CType.joinStruct whole pack' s' m p' = .ok r') : r.Tighter r' := by
  simp only [CType.joinStruct, StructState.add, except_bind_eq_ok] at h h'
  obtain ⟨offset, hoffset, stop, hstop, own, hown, hr⟩ := h
  obtain ⟨offset', hoffset', stop', hstop', own', hown', hr'⟩ := h'
  obtain rfl := Except.ok.inj hr
  obtain rfl := Except.ok.inj hr'
  have heffective := hpack.min hp.align
  have hstart : offset ≤ offset' := by
    rw [CType.eq_of_alignUp_eq_ok hoffset, CType.eq_of_alignUp_eq_ok hoffset']
    exact heffective.roundUp_le hs.stop
  refine ⟨?_, hs.align.max heffective, List.rel_append hs.offsets ?_⟩
  · rw [CType.eq_of_checked_eq_ok hstop, CType.eq_of_checked_eq_ok hstop']
    exact Nat.add_le_add hstart hp.size
  · exact earlier_memberOffsets hp.offsets hstart hown hown'

theorem tighter_finish {s s' : StructState} (hs : s.Tighter s') (h : s.finish whole = .ok p)
    (h' : s'.finish whole = .ok p') : p.Tighter p' := by
  obtain ⟨size, hsize, rfl⟩ := except_map_eq_ok.mp h
  obtain ⟨size', hsize', rfl⟩ := except_map_eq_ok.mp h'
  refine ⟨?_, hs.align, hs.offsets⟩
  rw [CType.eq_of_alignUp_eq_ok hsize, CType.eq_of_alignUp_eq_ok hsize']
  exact max_le_max (hs.align.roundUp_le hs.stop) (Nat.le_refl 1)

theorem tighter_joinUnion (hpack : Finer pack pack') (u u' : Placement) (m : Member CType)
    (p p' r r' : Placement) (hu : u.Tighter u') (hp : p.Tighter p')
    (h : CType.joinUnion pack u m p = .ok r) (h' : CType.joinUnion pack' u' m p' = .ok r') :
    r.Tighter r' := by
  simp only [CType.joinUnion, unionAdd, except_bind_eq_ok] at h h'
  obtain ⟨own, hown, hr⟩ := h
  obtain ⟨own', hown', hr'⟩ := h'
  obtain rfl := Except.ok.inj hr
  obtain rfl := Except.ok.inj hr'
  refine ⟨max_le_max hu.size hp.size, hu.align.max (hpack.min hp.align), ?_⟩
  exact List.rel_append hu.offsets
    (earlier_memberOffsets hp.offsets (Nat.le_refl 0) hown hown')

theorem tighter_arrayOf {element element' : Placement} (helement : element.Tighter element')
    {dim : Nat} (h : arrayOf whole dim element = .ok p) (h' : arrayOf whole dim element' = .ok p') :
    p.Tighter p' := by
  obtain rfl := CType.eq_of_arrayOf_eq_ok h
  obtain rfl := CType.eq_of_arrayOf_eq_ok h'
  exact ⟨Nat.mul_le_mul_right dim helement.size, helement.align, .nil⟩

end Steps

/-! ## Whole types under two packing widths -/

namespace CType

variable {target : Target} {pack pack' : Nat}

/-- **Members are laid out more tightly**, if this is so for each of them and for each step. -/
theorem placeMembers_tighter {α : Type}
    {join join' : α → Member CType → Placement → Except LayoutError α} {R : α → α → Prop}
    (hjoin : ∀ a a' m p p' b b', R a a' → p.Tighter p' → join a m p = .ok b →
      join' a' m p' = .ok b' → R b b')
    {ms : List (Member CType)}
    (hms : ∀ m ∈ ms, ∀ p p', place target pack m.type = .ok p →
      place target pack' m.type = .ok p' → p.Tighter p')
    {a a' b b' : α} (ha : R a a') (h : placeMembers target pack join a ms = .ok b)
    (h' : placeMembers target pack' join' a' ms = .ok b') : R b b' := by
  induction ms generalizing a a' with
  | nil =>
    obtain rfl := Except.ok.inj h
    obtain rfl := Except.ok.inj h'
    exact ha
  | cons m ms ih =>
    simp only [placeMembers, except_bind_eq_ok] at h h'
    obtain ⟨p, hp, joined, hjoined, hrest⟩ := h
    obtain ⟨p', hp', joined', hjoined', hrest'⟩ := h'
    obtain ⟨hm, hms⟩ := List.forall_mem_cons.mp hms
    exact ih hms (hjoin _ _ m p p' _ _ ha (hm p p' hp hp') hjoined hjoined') hrest hrest'

/-- What has no parts is laid out in one way. -/
theorem tighter_of_scalar (htarget : target.BinaryAligned) {t : CType} {p p' : Placement}
    (h : place target pack t = .ok p) (h' : place target pack' t = .ok p') {l : Layout}
    (hl : target.scalar t = some l) : p.Tighter p' := by
  obtain rfl := Except.ok.inj ((place_of_scalar hl).symm.trans h)
  obtain rfl := Except.ok.inj ((place_of_scalar hl).symm.trans h')
  obtain ⟨e, he, rfl⟩ := Target.exists_entry_of_scalar hl
  obtain ⟨k, hk⟩ := htarget e he
  exact ⟨Nat.le_refl _, hk ▸ finer_two_pow (Nat.le_refl k), .nil⟩

/-- **The narrower packing is the tighter one**, at every depth. -/
theorem place_tighter (htarget : target.BinaryAligned) (hpack : Finer pack pack') (t : CType)
    (p p' : Placement) (h : place target pack t = .ok p) (h' : place target pack' t = .ok p') :
    p.Tighter p' := by
  induction t generalizing p p' with
  | array base dim ih =>
    cases dim with
    | none => cases h
    | some dim =>
      simp only [place_array, except_bind_eq_ok] at h h'
      obtain ⟨element, helement, hp⟩ := h
      obtain ⟨element', helement', hp'⟩ := h'
      exact tighter_arrayOf (ih element element' helement helement') hp hp'
  | aggregate kind tag members ih =>
    cases kind with
    | struct =>
      simp only [place_struct, except_bind_eq_ok] at h h'
      obtain ⟨s, hs, hp⟩ := h
      obtain ⟨s', hs', hp'⟩ := h'
      have hstart : StructState.start.Tighter .start :=
        ⟨Nat.le_refl 0, finer_two_pow (Nat.le_refl 0), .nil⟩
      have hjoined : s.Tighter s' :=
        placeMembers_tighter (tighter_joinStruct hpack _) ih hstart hs hs'
      exact tighter_finish hjoined hp hp'
    | union =>
      simp only [place_union, except_bind_eq_ok] at h h'
      obtain ⟨u, hu, hp⟩ := h
      obtain ⟨u', hu', hp'⟩ := h'
      have hstart : Placement.Tighter ⟨⟨0, 1⟩, []⟩ ⟨⟨0, 1⟩, []⟩ :=
        ⟨Nat.le_refl 0, finer_two_pow (Nat.le_refl 0), .nil⟩
      rw [eq_of_unionFinish_eq_ok hp, eq_of_unionFinish_eq_ok hp']
      exact placeMembers_tighter (tighter_joinUnion hpack) ih hstart hu hu'
  | integral | floating | pointer | enum =>
    exact tighter_of_scalar htarget h h' rfl
  | void | special | placeholder | func => cases h

/-! ## Packing widths that are wide enough -/

/-- No alignment exceeds a packing width that is wide enough. -/
theorem align_le_of_place (hwide : target.AlignedUpTo pack) (hpos : 0 < pack) {t : CType}
    {p : Placement} (h : place target pack t = .ok p) : p.layout.align ≤ pack :=
  align_of_place (P := (· ≤ pack)) hwide hpos (fun _ _ ha => max_le ha (min_le_left ..)) h

/-- **Members are laid out alike**, if this is so for each of them and for each step. -/
theorem placeMembers_alike {α : Type}
    {join join' : α → Member CType → Placement → Except LayoutError α} {ms : List (Member CType)}
    (hms : ∀ m ∈ ms, place target pack' m.type = place target pack m.type)
    (hjoin : ∀ m ∈ ms, ∀ a p, place target pack m.type = .ok p → join' a m p = join a m p) (a : α) :
    placeMembers target pack' join' a ms = placeMembers target pack join a ms := by
  induction ms generalizing a with
  | nil => rfl
  | cons m ms ih =>
    rw [List.forall_mem_cons] at hms hjoin
    rw [placeMembers, placeMembers, hms.1]
    cases hp : place target pack m.type with
    | error e => rfl
    | ok p => simp only [bind, Except.bind, hjoin.1 a p hp, ih hms.2 hjoin.2]

/-- **All packing widths that are wide enough give one layout**, at every depth, or fail alike. -/
theorem place_eq_of_wide (hwide : target.AlignedUpTo pack) (hpos : 0 < pack) (hle : pack ≤ pack')
    (t : CType) : place target pack' t = place target pack t := by
  induction t with
  | array base dim ih =>
    cases dim with
    | none => rfl
    | some dim => rw [place_array, place_array, ih]
  | aggregate kind tag members ih =>
    have heffective (m : Member CType) (p : Placement) (hp : place target pack m.type = .ok p) :
        min pack' p.layout.align = min pack p.layout.align := by
      have halign := align_le_of_place hwide hpos hp
      rw [Nat.min_eq_right halign, Nat.min_eq_right (halign.trans hle)]
    cases kind with
    | struct =>
      rw [place_struct, place_struct, placeMembers_alike ih fun m _ s p hp => ?_]
      simp only [joinStruct, StructState.add, heffective m p hp]
    | union =>
      rw [place_union, place_union, placeMembers_alike ih fun m _ u p hp => ?_]
      simp only [joinUnion, unionAdd, heffective m p hp]
  | void | special | integral | floating | pointer | placeholder | enum | func => rfl

/-! ## The answers of an engine -/

theorem offsets_of_place {k : Nat} {kind : TagKind} {tag : Option String}
    {ms : List (Member CType)} {p : Placement}
    (h : place target (2 ^ k) (.aggregate kind tag ms) = .ok p) :
    offsets target (2 ^ k) (.aggregate kind tag ms) = .ok p.offsets :=
  offsets_eq_of_place (validPack_two_pow k) h

/-- **A wider packing makes nothing smaller.** Of a type that has layouts under two packing widths,
the size under the narrower is at most that under the wider, its alignment divides the other, and
the members of a struct or union are listed in the same order, none of them later. If the narrower
packing is as wide as the alignments of all primitive types, the answers under both are the same. -/
theorem layout_of_pack_le {target : Target} (htarget : target.BinaryAligned)
    (queries queries' : List Engine.Query) {i j : Nat} (hij : i ≤ j) (t : CType) :
    let engine := (Engine.new target).after queries
    let engine' := (Engine.new target).after queries'
    (∀ l l', (engine.layout (2 ^ i) t).1 = .ok l → (engine'.layout (2 ^ j) t).1 = .ok l' →
      l.size ≤ l'.size ∧ l.align ∣ l'.align ∧
        ∀ kind tag members, t = .aggregate kind tag members →
          ∃ os os', (engine.offsets (2 ^ i) t).1 = .ok os ∧
            (engine'.offsets (2 ^ j) t).1 = .ok os' ∧
            List.Forall₂ (fun a b => a.1 = b.1 ∧ a.2 ≤ b.2) os os') ∧
      (target.AlignedUpTo (2 ^ i) →
        (engine.layout (2 ^ i) t).1 = (engine'.layout (2 ^ j) t).1 ∧
          (engine.offsets (2 ^ i) t).1 = (engine'.offsets (2 ^ j) t).1) := by
  intro engine engine'
  simp only [engine, engine', Engine.layout_after, Engine.offsets_after]
  constructor
  · intro l l' hl hl'
    obtain ⟨p, hp, rfl⟩ := exists_place_of_layout hl
    obtain ⟨p', hp', rfl⟩ := exists_place_of_layout hl'
    have htighter := place_tighter htarget (finer_two_pow hij) t p p' hp hp'
    refine ⟨htighter.size, htighter.align.dvd, ?_⟩
    rintro kind tag members rfl
    exact ⟨p.offsets, p'.offsets, offsets_of_place hp, offsets_of_place hp', htighter.offsets⟩
  · intro hwide
    have hle : 2 ^ i ≤ 2 ^ j := Nat.pow_le_pow_right Nat.two_pos hij
    have hplace := place_eq_of_wide hwide (Nat.two_pow_pos i) hle
    constructor
    · simp only [layout, validPack_two_pow, hplace, if_true]
    · cases t <;> simp only [offsets, validPack_two_pow, hplace, if_true]

/-- The struct with the members `char a; struct { int b; short c[3]; }; double d;` has 20 bytes if
their alignments count up to 2 and 24 bytes if they count up to 8. More than 16 changes nothing. -/
theorem layout_of_pack_le_mixedMembers :
    let mixed := CType.aggregate .struct none mixedMembers
    let layouts k := ((Engine.new .lp64).layout (2 ^ k) mixed).1
    let offsets k := ((Engine.new .lp64).offsets (2 ^ k) mixed).1
    Target.lp64.BinaryAligned ∧ layouts 1 = .ok ⟨20, 2⟩ ∧ layouts 3 = .ok ⟨24, 8⟩ ∧
      20 ≤ 24 ∧ 2 ∣ 8 ∧
      (∃ os os', offsets 1 = .ok os ∧ offsets 3 = .ok os' ∧
        List.Forall₂ (fun a b => a.1 = b.1 ∧ a.2 ≤ b.2) os os') ∧
      layouts 4 = layouts 5 := by
  intro mixed layouts offsets
  have htarget : Target.lp64.BinaryAligned := by decide +kernel
  have hnarrow : layouts 1 = .ok ⟨20, 2⟩ := by decide +kernel
  have hdefault : layouts 3 = .ok ⟨24, 8⟩ := by decide +kernel
  obtain ⟨hsize, halign, hoffsets⟩ :=
    (layout_of_pack_le htarget [] [] (i := 1) (j := 3) (by decide) mixed).1 _ _ hnarrow hdefault
  obtain ⟨halike, -⟩ :=
    (layout_of_pack_le htarget [] [] (i := 4) (j := 5) (by decide) mixed).2 (by decide +kernel)
  exact ⟨htarget, hnarrow, hdefault, hsize, halign, hoffsets .struct none mixedMembers rfl, halike⟩

end CType

end ForeignCall
