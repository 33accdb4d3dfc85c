import ForeignCall.Proofs.Layout.Memory
import Mathlib.Data.Nat.Log
import Mathlib.Order.Bounds.Basic

/-!
# ForeignCall.Proofs.Layout.Structs

Where the members of a struct lie, told with numbers of any size. Each member starts at the least
multiple of its effective alignment that is not before the end of the member in front of it. As long
as all of these numbers fit 64 bits they are what the layout gives, and else there is none.

* `CType.align_of_place` — what all alignments have in common;
* `CType.layout_ne_abort` — no layout ends the program if all alignments are positive;
* `NextMultiple` — the least multiple that is large enough, and `nextMultiple_roundUp`: rounding up
  finds it;
* `Consecutive` — members one behind the other, and the end of the last;
* `CType.placeMembers_eq` — the layout puts members there, or finds a number that is too large;
* `CType.struct_placement` — the size, the alignment and the offsets of a struct.
-/

namespace ForeignCall

/-! ## Multiples -/

/-- The least multiple of `align` that is at least `n`. -/
def NextMultiple (align n p : Nat) : Prop := IsLeast {m | align ∣ m ∧ n ≤ m} p

theorem nextMultiple_roundUp {align : Nat} (halign : 0 < align) (n : Nat) :
    NextMultiple align n (roundUp n align) := by
  unfold roundUp
  refine ⟨⟨Nat.dvd_mul_left .., ?_⟩, ?_⟩
  · have hdiv := Nat.div_add_mod' (n + align - 1) align
    have hmod := Nat.mod_lt (n + align - 1) halign
    omega
  · rintro m ⟨⟨k, rfl⟩, hle⟩
    have hlt : n + align - 1 < (k + 1) * align := by
      rw [Nat.add_mul, Nat.one_mul, Nat.mul_comm k]
      omega
    have hdiv : (n + align - 1) / align ≤ k :=
      Nat.le_of_lt_succ ((Nat.div_lt_iff_lt_mul halign).mpr hlt)
    rw [Nat.mul_comm align]
    exact Nat.mul_le_mul_right align hdiv

/-! ## Alignments -/

/-- All alignments of the primitive types are positive. -/
def Target.Aligned (target : Target) : Prop := ∀ e ∈ target.entries, 0 < e.2.align

instance (target : Target) : Decidable target.Aligned :=
  inferInstanceAs (Decidable (∀ e ∈ target.entries, 0 < e.2.align))

/-- A power of two is a valid packing width. -/
theorem validPack_two_pow (k : Nat) : validPack (2 ^ k) = true := by
  simp [validPack, Nat.two_pow_pos k]

theorem pos_of_validPack {pack : Nat} (h : validPack pack = true) : 0 < pack := by
  simp only [validPack, Bool.and_eq_true, decide_eq_true_eq] at h
  exact h.1

section Alignments

variable {target : Target} {pack : Nat}

/-- A type that does not depend on packing has the layout of a primitive type. -/
theorem Target.exists_entry_of_scalar {t : CType} {l : Layout} (hl : target.scalar t = some l) :
    ∃ e ∈ target.entries, e.2 = l := by
  rw [← List.mem_map]
  cases t with
  | integral kind signed =>
    obtain rfl := Option.some.inj hl
    cases kind <;> simp [entries, integral]
  | floating kind =>
    obtain rfl := Option.some.inj hl
    cases kind <;> simp [entries, floating]
  | pointer base =>
    obtain rfl := Option.some.inj hl
    simp [entries]
  | enum tag values =>
    obtain rfl := Option.some.inj hl
    simp [entries]
  | void | special | array | aggregate | placeholder | func => cases hl

namespace CType

/-! ### Layouts in steps -/

theorem place_of_scalar {t : CType} {l : Layout} (hl : target.scalar t = some l) :
    place target pack t = .ok ⟨l, []⟩ := by
  cases t with
  | integral | floating | pointer | enum =>
    obtain rfl := Option.some.inj hl
    rfl
  | void | special | array | aggregate | placeholder | func => cases hl

theorem align_of_scalar {P : Nat → Prop} (hentries : ∀ e ∈ target.entries, P e.2.align) {t : CType}
    {p : Placement} (h : place target pack t = .ok p) {l : Layout} (hl : target.scalar t = some l) :
    P p.layout.align := by
  obtain rfl := Except.ok.inj ((place_of_scalar hl).symm.trans h)
  obtain ⟨e, he, rfl⟩ := Target.exists_entry_of_scalar hl
  exact hentries e he

theorem align_of_joinStruct {whole : CType} {s s' : StructState} {m : Member CType} {p : Placement}
    (h : joinStruct whole pack s m p = .ok s') :
    s'.align = max s.align (min pack p.layout.align) := by
  simp only [joinStruct, StructState.add, except_bind_eq_ok] at h
  obtain ⟨_, -, _, -, _, -, hjoined⟩ := h
  obtain rfl := Except.ok.inj hjoined
  rfl

theorem align_of_joinUnion {u u' : Placement} {m : Member CType} {p : Placement}
    (h : joinUnion pack u m p = .ok u') :
    u'.layout.align = max u.layout.align (min pack p.layout.align) := by
  simp only [joinUnion, unionAdd, except_bind_eq_ok] at h
  obtain ⟨_, -, hjoined⟩ := h
  obtain rfl := Except.ok.inj hjoined
  rfl

/-! ### What alignments have in common -/

/-- **Where alignments come from.** What the alignments of the primitive types and 1 have in common,
and what a member does not take from the alignment of a struct or union, holds of all alignments. -/
theorem align_of_place {P : Nat → Prop} (hentries : ∀ e ∈ target.entries, P e.2.align) (hone : P 1)
    (hmax : ∀ a b, P a → P (max a (min pack b))) {t : CType} {p : Placement}
    (h : place target pack t = .ok p) : P p.layout.align := by
  induction t generalizing p with
  | array base dim ih =>
    cases dim with
    | none => cases h
    | some dim =>
      simp only [place_array, except_bind_eq_ok] at h
      obtain ⟨element, helement, hp⟩ := h
      obtain rfl := eq_of_arrayOf_eq_ok hp
      exact ih (p := element) helement
  | aggregate kind tag members =>
    cases kind with
    | struct =>
      simp only [place_struct, except_bind_eq_ok] at h
      obtain ⟨s, hs, hp⟩ := h
      obtain ⟨_, -, rfl⟩ := except_map_eq_ok.mp hp
      refine placeMembers_keeps (P := fun s => P s.align) (fun s m part s' hjoin hs => ?_) hs hone
      rw [align_of_joinStruct hjoin]
      exact hmax _ _ hs
    | union =>
      simp only [place_union, except_bind_eq_ok] at h
      obtain ⟨u, hu, hp⟩ := h
      rw [eq_of_unionFinish_eq_ok hp]
      refine placeMembers_keeps (P := fun u => P u.layout.align) (fun u m part u' hjoin hu => ?_) hu
        hone
      rw [align_of_joinUnion hjoin]
      exact hmax _ _ hu
  | integral | floating | pointer | enum => exact align_of_scalar hentries h rfl
  | void | special | placeholder | func => cases h

/-- What has a layout has a positive alignment. -/
theorem align_pos_of_place (htarget : target.Aligned) {t : CType} {p : Placement}
    (h : place target pack t = .ok p) : 0 < p.layout.align :=
  align_of_place htarget Nat.one_pos (fun _ _ ha => ha.trans_le (Nat.le_max_left ..)) h

/-- Where all alignments are positive, no step of a layout ends the program. -/
theorem place_ne_abort (htarget : target.Aligned) (hpack : validPack pack = true) {t : CType}
    {reason : Abort} : place target pack t ≠ .error (.abort reason) := by
  intro h
  induction t with
  | array base dim ih =>
    cases dim with
    | none => cases h
    | some dim =>
      simp only [place_array, except_bind_eq_error] at h
      rcases h with hbase | ⟨element, helement, harray⟩
      · exact ih hbase
      · have halign := align_pos_of_place htarget helement
        rcases arrayOf_error_cases harray with ⟨hzero, -⟩ | h | h
        · omega
        · cases h
        · cases h
  | aggregate kind tag members ih =>
    cases kind with
    | struct =>
      simp only [place_struct, except_bind_eq_error] at h
      rcases h with hmembers | ⟨s, hs, hfinish⟩
      · rcases placeMembers_error_cases hmembers with ⟨m, hm, hplace⟩ | ⟨m, -, s, p, hp, hjoin⟩
        · exact ih m hm hplace
        · have halign := align_pos_of_place htarget hp
          have hpos := pos_of_validPack hpack
          rcases joinStruct_error_cases hjoin with ⟨hzero, -⟩ | h | h
          · omega
          · cases h
          · cases h
      · have halign : 0 < s.align :=
          placeMembers_keeps (P := fun s => 0 < s.align) (fun s m p s' hjoin hs => by
            rw [align_of_joinStruct hjoin]
            exact hs.trans_le (Nat.le_max_left ..)) hs Nat.one_pos
        rcases alignUp_error_cases (except_map_eq_error.mp hfinish) with ⟨hzero, -⟩ | h
        · omega
        · cases h
    | union =>
      simp only [place_union, except_bind_eq_error] at h
      rcases h with hmembers | ⟨u, -, hfinish⟩
      · rcases placeMembers_error_cases hmembers with ⟨m, hm, hplace⟩ | ⟨m, -, u, p, -, hjoin⟩
        · exact ih m hm hplace
        · exact nomatch eq_of_joinUnion_eq_error hjoin
      · exact nomatch eq_of_unionFinish_eq_error hfinish
  | void | special | integral | floating | pointer | placeholder | enum | func => cases h

/-- **No layout ends the program**, whatever the type and the packing width, if all alignments of
the primitive types are positive. -/
theorem layout_ne_abort (htarget : target.Aligned) (t : CType) (reason : Abort) :
    layout target pack t ≠ .error (.abort reason) := by
  unfold layout
  split
  · next hpack => exact fun h => place_ne_abort htarget hpack (except_map_eq_error.mp h)
  · exact nofun

end CType

end Alignments

/-! ## Members one behind the other -/

/-- Members with the layouts `ls` lie at the positions `ps`, each at the next multiple of its
effective alignment, from `start` up to the end `stop` of the last. -/
inductive Consecutive (pack : Nat) : Nat → List Layout → List Nat → Nat → Prop
  | nil (start : Nat) : Consecutive pack start [] [] start
  | cons {start p stop : Nat} {l : Layout} {ls : List Layout} {ps : List Nat}
    (first : NextMultiple (min pack l.align) start p)
    (rest : Consecutive pack (p + l.size) ls ps stop) :
    Consecutive pack start (l :: ls) (p :: ps) stop

/-- The alignment of a struct: the largest effective alignment of its members, at least 1. -/
def structAlign (pack : Nat) (ls : List Layout) : Nat :=
  ls.foldr (fun l align => max (min pack l.align) align) 1

/-- All members start and end at numbers of 64 bits. -/
def Fits (ls : List Layout) (ps : List Nat) : Prop :=
  ∀ a ∈ ls.zip ps, a.2 ≤ maxSize ∧ a.2 + a.1.size ≤ maxSize

instance (ls : List Layout) (ps : List Nat) : Decidable (Fits ls ps) :=
  inferInstanceAs (Decidable (∀ a ∈ ls.zip ps, a.2 ≤ maxSize ∧ a.2 + a.1.size ≤ maxSize))

theorem fits_cons_iff {l : Layout} {ls : List Layout} {p : Nat} {ps : List Nat} :
    Fits (l :: ls) (p :: ps) ↔ (p ≤ maxSize ∧ p + l.size ≤ maxSize) ∧ Fits ls ps :=
  List.forall_mem_cons

namespace Consecutive

variable {pack start stop : Nat} {ls : List Layout} {ps : List Nat}

theorem exists_of_pos (hpack : 0 < pack) (hls : ∀ l ∈ ls, 0 < l.align) (start : Nat) :
    ∃ ps stop, Consecutive pack start ls ps stop := by
  induction ls generalizing start with
  | nil => exact ⟨[], start, .nil start⟩
  | cons l ls ih =>
    rw [List.forall_mem_cons] at hls
    have heffective : 0 < min pack l.align := Nat.lt_min.mpr ⟨hpack, hls.1⟩
    obtain ⟨ps, stop, hrest⟩ := ih hls.2 (roundUp start (min pack l.align) + l.size)
    exact ⟨_, stop, .cons (nextMultiple_roundUp heffective start) hrest⟩

/-- There is one way to put the members one behind the other. -/
theorem unique (h : Consecutive pack start ls ps stop) {ps' : List Nat} {stop' : Nat}
    (h' : Consecutive pack start ls ps' stop') : ps = ps' ∧ stop = stop' := by
  induction h generalizing ps' with
  | nil =>
    cases h'
    exact ⟨rfl, rfl⟩
  | cons first rest ih =>
    cases h' with
    | cons first' rest' =>
      obtain rfl := first.unique first'
      obtain ⟨rfl, rfl⟩ := ih rest'
      exact ⟨rfl, rfl⟩

theorem start_le (h : Consecutive pack start ls ps stop) : start ≤ stop := by
  induction h with
  | nil => exact Nat.le_refl _
  | cons first rest ih => exact first.1.2.trans ((Nat.le_add_right ..).trans ih)

/-- No member starts before `start`. -/
theorem start_le_of_mem (h : Consecutive pack start ls ps stop) {a : Layout × Nat}
    (ha : a ∈ ls.zip ps) : start ≤ a.2 := by
  induction h with
  | nil => cases ha
  | cons first rest ih =>
    rcases List.mem_cons.mp ha with rfl | ha
    · exact first.1.2
    · exact first.1.2.trans ((Nat.le_add_right ..).trans (ih ha))

/-- No member ends behind `stop`. -/
theorem le_stop_of_mem (h : Consecutive pack start ls ps stop) {a : Layout × Nat}
    (ha : a ∈ ls.zip ps) : a.2 + a.1.size ≤ stop := by
  induction h with
  | nil => cases ha
  | cons first rest ih =>
    rcases List.mem_cons.mp ha with rfl | ha
    · exact rest.start_le
    · exact ih ha

/-- A member ends before the members behind it start. -/
theorem pairwise (h : Consecutive pack start ls ps stop) :
    (ls.zip ps).Pairwise fun a b => a.2 + a.1.size ≤ b.2 := by
  induction h with
  | nil => exact .nil
  | cons first rest ih => exact .cons (fun b hb => rest.start_le_of_mem hb) ih

end Consecutive

/-! ## The layout of a struct -/

namespace CType

/-- The offsets that members at some positions bring into the struct around them: their own if they
have names, else those of their members. -/
def offsetsAt (target : Target) (pack : Nat) : List (Member CType) → List Nat → Offsets
  | ⟨some name, _⟩ :: ms, p :: ps => (name, p) :: offsetsAt target pack ms ps
  | ⟨none, t⟩ :: ms, p :: ps =>
    ((t.offsets target pack).toOption.getD []).map (fun (n, o) => (n, p + o)) ++
      offsetsAt target pack ms ps
  | _, _ => []

variable {target : Target} {pack : Nat}

theorem checked_eq_ok {whole : CType} {n : Nat} (h : n ≤ maxSize) : checked whole n = .ok n :=
  if_pos h

theorem checked_eq_error {whole : CType} {n : Nat} (h : ¬n ≤ maxSize) :
    checked whole n = .error (.overflow whole) :=
  if_neg h

/-- An unnamed member is a struct or union. -/
def NestsAggregates (members : List (Member CType)) : Prop :=
  ∀ m ∈ members, m.name = none → ∃ kind tag ms, m.type = .aggregate kind tag ms

/-- The offsets that a member brings are those at its position. -/
theorem memberOffsets_eq (hpack : validPack pack = true) {m : Member CType} {p : Placement}
    (hp : place target pack m.type = .ok p)
    (hm : m.name = none → ∃ kind tag ms, m.type = .aggregate kind tag ms) (offset : Nat) :
    memberOffsets m.name m.type p offset = .ok (offsetsAt target pack [m] [offset]) := by
  obtain ⟨name, t⟩ := m
  cases name with
  | some name => rfl
  | none =>
    obtain ⟨kind, tag, ms, rfl⟩ := hm rfl
    simp [memberOffsets, offsetsAt, offsets_eq_of_place hpack hp, Except.toOption]

theorem offsetsAt_cons (m : Member CType) (ms : List (Member CType)) (p : Nat) (ps : List Nat) :
    offsetsAt target pack (m :: ms) (p :: ps) =
      offsetsAt target pack [m] [p] ++ offsetsAt target pack ms ps := by
  obtain ⟨name, t⟩ := m
  cases name <;> simp [offsetsAt]

/-- **One member.** It goes to the next multiple of its effective alignment, if it fits there. -/
theorem add_eq (htarget : target.Aligned) (hpack : validPack pack = true) (whole : CType)
    {s : StructState} {m : Member CType} {part : Placement}
    (hpart : place target pack m.type = .ok part)
    (hm : m.name = none → ∃ kind tag ms, m.type = .aggregate kind tag ms) {p : Nat}
    (hp : NextMultiple (min pack part.layout.align) s.stop p) :
    s.add whole pack m.name m.type part =
      if p ≤ maxSize ∧ p + part.layout.size ≤ maxSize then
        .ok ⟨p + part.layout.size, max s.align (min pack part.layout.align),
          s.offsets ++ offsetsAt target pack [m] [p]⟩
      else .error (.overflow whole) := by
  have heffective : 0 < min pack part.layout.align :=
    Nat.lt_min.mpr ⟨pos_of_validPack hpack, align_pos_of_place htarget hpart⟩
  obtain rfl := hp.unique (nextMultiple_roundUp heffective s.stop)
  unfold StructState.add
  dsimp only
  rw [alignUp_of_pos heffective]
  by_cases hstart : roundUp s.stop (min pack part.layout.align) ≤ maxSize
  · by_cases hstop : roundUp s.stop (min pack part.layout.align) + part.layout.size ≤ maxSize
    · rw [if_pos ⟨hstart, hstop⟩]
      simp only [checked_eq_ok hstart, checked_eq_ok hstop, memberOffsets_eq hpack hpart hm, bind,
        Except.bind]
    · rw [if_neg fun h => hstop h.2]
      simp only [checked_eq_ok hstart, checked_eq_error hstop, bind, Except.bind]
  · rw [if_neg fun h => hstart h.1]
    simp only [checked_eq_error hstart, bind, Except.bind]

/-- **All members.** They lie one behind the other, if all of them fit. -/
theorem placeMembers_eq (htarget : target.Aligned) (hpack : validPack pack = true) (whole : CType)
    {ms : List (Member CType)} {parts : List Placement}
    (hparts : List.Forall₂ (fun m part => place target pack m.type = .ok part) ms parts)
    (hnests : NestsAggregates ms) {s : StructState} (hs : 1 ≤ s.align) {ps : List Nat} {stop : Nat}
    (hps : Consecutive pack s.stop (parts.map (·.layout)) ps stop) :
    placeMembers target pack (joinStruct whole pack) s ms =
      if Fits (parts.map (·.layout)) ps then
        .ok ⟨stop, max s.align (structAlign pack (parts.map (·.layout))),
          s.offsets ++ offsetsAt target pack ms ps⟩
      else .error (.overflow whole) := by
  induction hparts generalizing s ps with
  | nil =>
    cases hps
    simp [placeMembers, Fits, structAlign, offsetsAt, hs]
  | @cons m part ms parts hpart hparts ih =>
    obtain ⟨hm, hnests⟩ := List.forall_mem_cons.mp hnests
    rw [List.map_cons] at hps
    cases hps with
    | @cons _ p _ _ _ ps first rest =>
      rw [placeMembers, hpart]
      simp only [bind, Except.bind, joinStruct, add_eq htarget hpack whole hpart hm first,
        List.map_cons, fits_cons_iff]
      by_cases hfits : p ≤ maxSize ∧ p + part.layout.size ≤ maxSize
      · rw [if_pos hfits]
        dsimp only
        rw [ih hnests (hs.trans (Nat.le_max_left ..)) rest]
        simp only [hfits, true_and, structAlign, List.foldr_cons, Nat.max_assoc,
          List.append_assoc, ← offsetsAt_cons]
      · rw [if_neg hfits, if_neg fun h => hfits h.1]

theorem one_le_structAlign (pack : Nat) (ls : List Layout) : 1 ≤ structAlign pack ls := by
  cases ls with
  | nil => exact Nat.le_refl 1
  | cons l ls => exact (one_le_structAlign pack ls).trans (Nat.le_max_right ..)

/-- What a layout consists of lies somewhere. -/
theorem exists_parts (hpack : validPack pack = true) {ms : List (Member CType)} {ls : List Layout}
    (h : List.Forall₂ (fun m l => layout target pack m.type = .ok l) ms ls) :
    ∃ parts : List Placement,
      List.Forall₂ (fun m part => place target pack m.type = .ok part) ms parts ∧
        parts.map (·.layout) = ls := by
  induction h with
  | nil => exact ⟨[], .nil, rfl⟩
  | cons hl _ ih =>
    obtain ⟨parts, hparts, rfl⟩ := ih
    rw [layout_eq_map hpack] at hl
    obtain ⟨part, hpart, rfl⟩ := except_map_eq_ok.mp hl
    exact ⟨part :: parts, .cons hpart hparts, rfl⟩

theorem align_pos_of_parts (htarget : target.Aligned) {ms : List (Member CType)}
    {parts : List Placement}
    (hparts : List.Forall₂ (fun m part => place target pack m.type = .ok part) ms parts) :
    ∀ part ∈ parts, 0 < part.layout.align := by
  induction hparts with
  | nil => exact nofun
  | cons hpart _ ih => exact List.forall_mem_cons.mpr ⟨align_pos_of_place htarget hpart, ih⟩

/-- The size of a struct that ends at `rounded`; it has at least one byte. -/
def structSize (rounded : Nat) : Nat := if rounded = 0 then 1 else rounded

theorem structSize_eq_max (rounded : Nat) : structSize rounded = max rounded 1 := by
  unfold structSize
  split <;> omega

/-- **The struct as a whole.** It has a layout if its members and its size fit. -/
theorem place_struct_eq (htarget : target.Aligned) (hpack : validPack pack = true)
    (tag : Option String) {ms : List (Member CType)} {parts : List Placement}
    (hparts : List.Forall₂ (fun m part => place target pack m.type = .ok part) ms parts)
    (hnests : NestsAggregates ms) {ps : List Nat} {stop rounded : Nat}
    (hps : Consecutive pack 0 (parts.map (·.layout)) ps stop)
    (hrounded : NextMultiple (structAlign pack (parts.map (·.layout))) stop rounded) :
    place target pack (.aggregate .struct tag ms) =
      if Fits (parts.map (·.layout)) ps ∧ structSize rounded ≤ maxSize then
        .ok ⟨⟨structSize rounded, structAlign pack (parts.map (·.layout))⟩,
          offsetsAt target pack ms ps⟩
      else .error (.overflow (.aggregate .struct tag ms)) := by
  have halign := one_le_structAlign pack (parts.map (·.layout))
  have hone : 1 ≤ maxSize := by decide
  obtain rfl := hrounded.unique (nextMultiple_roundUp halign stop)
  rw [place_struct, placeMembers_eq htarget hpack _ hparts hnests (s := .start) (Nat.le_refl 1) hps,
    structSize_eq_max]
  by_cases hfits : Fits (parts.map (·.layout)) ps
  · have hmax : max StructState.start.align (structAlign pack (parts.map (·.layout))) =
        structAlign pack (parts.map (·.layout)) := Nat.max_eq_right halign
    simp only [hfits, if_true, true_and, bind, Except.bind, StructState.finish, hmax,
      alignUp_of_pos halign, Nat.max_le, hone, and_true]
    by_cases hsize : roundUp stop (structAlign pack (parts.map (·.layout))) ≤ maxSize
    · rw [checked_eq_ok hsize, if_pos hsize]
      rfl
    · rw [checked_eq_error hsize, if_neg hsize]
      rfl
  · simp only [hfits, if_false, false_and, bind, Except.bind]

/-- **Where a struct has its members.** There are positions `ps`, one behind the other, and a size
behind the last of them; if one of these numbers does not fit 64 bits the struct has no layout, and
else these are its size and its offsets. The members do not overlap. -/
theorem struct_placement (htarget : target.Aligned) (k : Nat) (tag : Option String)
    {members : List (Member CType)} {ls : List Layout}
    (hlayouts : List.Forall₂ (fun m l => layout target (2 ^ k) m.type = .ok l) members ls)
    (hnests : NestsAggregates members) (queries : List Engine.Query) :
    let whole := CType.aggregate .struct tag members
    let engine := (Engine.new target).after queries
    let align := structAlign (2 ^ k) ls
    ∃ ps stop rounded, Consecutive (2 ^ k) 0 ls ps stop ∧ NextMultiple align stop rounded ∧
      ((engine.layout (2 ^ k) whole).1 = .error (.overflow whole) ↔
        ¬(Fits ls ps ∧ structSize rounded ≤ maxSize)) ∧
      (Fits ls ps ∧ structSize rounded ≤ maxSize →
        (engine.layout (2 ^ k) whole).1 = .ok ⟨structSize rounded, align⟩ ∧
          (engine.offsets (2 ^ k) whole).1 = .ok (offsetsAt target (2 ^ k) members ps)) ∧
      (ls.zip ps).Pairwise (fun a b => a.2 + a.1.size ≤ b.2) ∧
      ∀ a ∈ ls.zip ps, a.2 + a.1.size ≤ structSize rounded := by
  intro whole engine align
  have hpack := validPack_two_pow k
  obtain ⟨parts, hparts, rfl⟩ := exists_parts hpack hlayouts
  obtain ⟨ps, stop, hps⟩ := Consecutive.exists_of_pos (pos_of_validPack hpack)
    (List.forall_mem_map.mpr (align_pos_of_parts htarget hparts)) 0
  have hrounded : NextMultiple align stop (roundUp stop align) :=
    nextMultiple_roundUp (one_le_structAlign ..) stop
  have hplace := place_struct_eq htarget hpack tag hparts hnests hps hrounded
  have hlayout : (engine.layout (2 ^ k) whole).1 = (place target (2 ^ k) whole).map (·.layout) := by
    rw [Engine.layout_after, layout, if_pos hpack]
  have hoffsets : (engine.offsets (2 ^ k) whole).1 =
      (place target (2 ^ k) whole).map (·.offsets) := by
    rw [(Engine.offsets_eq ((Engine.sound_new target).after queries) _ _).1, offsets, if_pos hpack]
  refine ⟨ps, stop, roundUp stop align, hps, hrounded, ?_, fun hfits => ?_, hps.pairwise, ?_⟩
  · rw [hlayout, hplace]
    split
    · next hfits =>
      refine iff_of_false (fun hoverflow => ?_) (not_not_intro hfits)
      cases hoverflow
    · next hfits => exact iff_of_true rfl hfits
  · rw [hlayout, hoffsets, hplace, if_pos hfits]
    exact ⟨rfl, rfl⟩
  · intro a ha
    rw [structSize_eq_max]
    exact (hps.le_stop_of_mem ha).trans (hrounded.1.2.trans (Nat.le_max_left ..))

/-- The members `char a; struct { int b; short c[3]; }; double d;`. -/
def mixedMembers : List (Member CType) :=
  [⟨some "a", .integral .char true⟩,
    ⟨none, .aggregate .struct none
      [⟨some "b", .integral .int true⟩, ⟨some "c", .array (.integral .short true) (some 3)⟩]⟩,
    ⟨some "d", .floating .double⟩]

/-- If their alignments count up to 2 only, the members lie at 0, 2 and 12. -/
theorem struct_placement_mixedMembers :
    Target.lp64.Aligned ∧ NestsAggregates mixedMembers ∧
      List.Forall₂ (fun m l => layout .lp64 (2 ^ 1) m.type = .ok l) mixedMembers
        [⟨1, 1⟩, ⟨10, 2⟩, ⟨8, 8⟩] ∧
      ((Engine.new .lp64).layout (2 ^ 1) (.aggregate .struct none mixedMembers)).1 =
        .ok ⟨20, 2⟩ ∧
      ((Engine.new .lp64).offsets (2 ^ 1) (.aggregate .struct none mixedMembers)).1 =
        .ok [("a", 0), ("b", 2), ("c", 6), ("d", 12)] := by
  have htarget : Target.lp64.Aligned := by decide
  have hnests : NestsAggregates mixedMembers := by simp [NestsAggregates, mixedMembers]
  have hlayouts : List.Forall₂ (fun m l => layout .lp64 (2 ^ 1) m.type = .ok l) mixedMembers
      [⟨1, 1⟩, ⟨10, 2⟩, ⟨8, 8⟩] :=
    .cons (by decide +kernel) (.cons (by decide +kernel) (.cons (by decide +kernel) .nil))
  have hmixed : Consecutive (2 ^ 1) 0 [⟨1, 1⟩, ⟨10, 2⟩, ⟨8, 8⟩] [0, 2, 12] 20 :=
    .cons (nextMultiple_roundUp Nat.one_pos 0) (.cons (nextMultiple_roundUp Nat.two_pos 1)
      (.cons (nextMultiple_roundUp Nat.two_pos 12) (.nil 20)))
  obtain ⟨ps, stop, rounded, hps, hrounded, -, hok, -⟩ :=
    struct_placement htarget 1 none hlayouts hnests []
  obtain ⟨rfl, rfl⟩ := hps.unique hmixed
  obtain rfl := hrounded.unique (nextMultiple_roundUp Nat.two_pos 20)
  exact ⟨htarget, hnests, hlayouts, hok (by decide)⟩

end CType

end ForeignCall
