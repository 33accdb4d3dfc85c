import ForeignCall.Proofs.Layout.Structs
import Mathlib.Data.List.Forall2

/-!
# ForeignCall.Proofs.Layout.Aggregates

What the layout of a struct or union says about its members: they have layouts themselves, and those
without a name are structs or unions.

* `CType.place_struct_eq_ok` — the positions, the size and the offsets of a struct with a layout;
* `CType.place_union_eq_ok` — the same for a union, whose members all lie at its start.
-/

namespace ForeignCall

namespace NextMultiple

variable {align n p : Nat}

theorem dvd (h : NextMultiple align n p) : align ∣ p := h.1.1

theorem le (h : NextMultiple align n p) : n ≤ p := h.1.2

/-- Only zero is rounded up to zero. -/
theorem eq_zero_iff (h : NextMultiple align n p) : p = 0 ↔ n = 0 := by
  constructor
  · rintro rfl
    exact Nat.le_zero.mp h.le
  · rintro rfl
    exact Nat.le_zero.mp (h.2 ⟨Nat.dvd_zero align, Nat.le_refl 0⟩)

end NextMultiple

namespace Consecutive

variable {pack start stop : Nat} {ls : List Layout} {ps : List Nat}

/-- Members end at zero exactly if they start there and none of them has a byte. -/
theorem stop_eq_zero_iff (h : Consecutive pack start ls ps stop) :
    stop = 0 ↔ start = 0 ∧ ∀ l ∈ ls, l.size = 0 := by
  induction h with
  | nil => simp
  | cons first rest ih =>
    rw [ih, Nat.add_eq_zero_iff, first.eq_zero_iff, List.forall_mem_cons, and_assoc]

theorem length_eq (h : Consecutive pack start ls ps stop) : ls.length = ps.length := by
  induction h with
  | nil => rfl
  | cons first rest ih => rw [List.length_cons, List.length_cons, ih]

/-- A member ends before a member with a larger index starts. -/
theorem stop_le_of_lt (h : Consecutive pack start ls ps stop) {i j p q : Nat} {l : Layout}
    (hij : i < j) (hl : ls[i]? = some l) (hp : ps[i]? = some p) (hq : ps[j]? = some q) :
    p + l.size ≤ q := by
  obtain ⟨hi, rfl⟩ := List.getElem?_eq_some_iff.mp hl
  obtain ⟨_, rfl⟩ := List.getElem?_eq_some_iff.mp hp
  obtain ⟨hj, rfl⟩ := List.getElem?_eq_some_iff.mp hq
  have hlength : (ls.zip ps).length = ps.length := by
    rw [List.length_zip, h.length_eq, Nat.min_self]
  have hpair := List.pairwise_iff_getElem.mp h.pairwise i j (by omega) (by omega) hij
  rwa [List.getElem_zip, List.getElem_zip] at hpair

end Consecutive

namespace CType

variable {target : Target} {pack : Nat} {ms : List (Member CType)}

/-! ## Members -/

/-- The members of `ms` have the placements `parts`. -/
def Placed (target : Target) (pack : Nat) (ms : List (Member CType)) (parts : List Placement) :
    Prop :=
  List.Forall₂ (fun m part => place target pack m.type = .ok part) ms parts

/-- The members of `ms` have the layouts `ls`. -/
def LaidOut (target : Target) (pack : Nat) (ms : List (Member CType)) (ls : List Layout) : Prop :=
  List.Forall₂ (fun m l => layout target pack m.type = .ok l) ms ls

theorem Placed.laidOut (hpack : validPack pack = true) {parts : List Placement}
    (h : Placed target pack ms parts) : LaidOut target pack ms (parts.map (·.layout)) := by
  unfold LaidOut
  rw [List.forall₂_map_right_iff]
  exact h.imp fun _ _ hpart => layout_of_place hpack hpart

/-- What holds of the layout of a member holds of one of the layouts. -/
theorem LaidOut.exists_mem_iff {ls : List Layout} (h : LaidOut target pack ms ls)
    {P : Layout → Prop} :
    (∃ l ∈ ls, P l) ↔ ∃ m ∈ ms, ∃ l, layout target pack m.type = .ok l ∧ P l := by
  induction h with
  | nil => simp
  | cons hl _ ih => simp [ih, hl]

/-- Members have one layout each. -/
theorem LaidOut.unique {ls ls' : List Layout} (h : LaidOut target pack ms ls)
    (h' : LaidOut target pack ms ls') : ls = ls' := by
  induction h generalizing ls' with
  | nil =>
    cases h'
    rfl
  | cons hl _ ih =>
    cases h' with
    | cons hl' h' => rw [Except.ok.inj (hl.symm.trans hl'), ih h']

theorem LaidOut.getElem? {ls : List Layout} (h : LaidOut target pack ms ls) {index : Nat}
    {m : Member CType} (hm : ms[index]? = some m) :
    ∃ l, ls[index]? = some l ∧ layout target pack m.type = .ok l := by
  induction h generalizing index with
  | nil => cases hm
  | cons hl _ ih =>
    cases index with
    | zero =>
      obtain rfl := Option.some.inj hm
      exact ⟨_, rfl, hl⟩
    | succ index => exact ih hm

/-- An unnamed member brings offsets only if it is a struct or union. -/
theorem aggregate_of_memberOffsets {m : Member CType} {p : Placement} {offset : Nat}
    {own : Offsets} (h : memberOffsets m.name m.type p offset = .ok own) (hname : m.name = none) :
    ∃ kind tag ms, m.type = .aggregate kind tag ms := by
  obtain ⟨name, t⟩ := m
  obtain rfl := hname
  cases t with
  | aggregate kind tag ms => exact ⟨kind, tag, ms, rfl⟩
  | void | special | integral | floating | pointer | array | placeholder | enum | func => cases h

theorem placed_of_joinStruct {whole : CType} {s s' : StructState}
    (h : placeMembers target pack (joinStruct whole pack) s ms = .ok s') :
    NestsAggregates ms ∧ ∃ parts, Placed target pack ms parts := by
  induction ms generalizing s with
  | nil => exact ⟨nofun, [], .nil⟩
  | cons m ms ih =>
    simp only [placeMembers, except_bind_eq_ok] at h
    obtain ⟨part, hpart, joined, hjoined, hrest⟩ := h
    simp only [joinStruct, StructState.add, except_bind_eq_ok] at hjoined
    obtain ⟨offset, -, _, -, own, hown, -⟩ := hjoined
    obtain ⟨hnests, parts, hparts⟩ := ih hrest
    exact ⟨List.forall_mem_cons.mpr ⟨aggregate_of_memberOffsets hown, hnests⟩, part :: parts,
      .cons hpart hparts⟩

/-- The union is at least as long as each of its members, and these bring the offsets that they have
at its start. -/
theorem placed_of_joinUnion (hpack : validPack pack = true) {u u' : Placement}
    (h : placeMembers target pack (joinUnion pack) u ms = .ok u') :
    ∃ parts, Placed target pack ms parts ∧
      u'.offsets = u.offsets ++ offsetsAt target pack ms (List.replicate ms.length 0) ∧
      u.layout.size ≤ u'.layout.size ∧ ∀ part ∈ parts, part.layout.size ≤ u'.layout.size := by
  induction ms generalizing u with
  | nil =>
    obtain rfl := Except.ok.inj h
    exact ⟨[], .nil, (List.append_nil _).symm, Nat.le_refl _, nofun⟩
  | cons m ms ih =>
    simp only [placeMembers, except_bind_eq_ok] at h
    obtain ⟨part, hpart, joined, hjoined, hrest⟩ := h
    simp only [joinUnion, unionAdd, except_bind_eq_ok] at hjoined
    obtain ⟨own, hown, hadded⟩ := hjoined
    obtain rfl := Except.ok.inj hadded
    obtain ⟨parts, hparts, hoffsets, hle, hsizes⟩ := ih hrest
    rw [memberOffsets_eq hpack hpart (aggregate_of_memberOffsets hown)] at hown
    obtain rfl := Except.ok.inj hown
    refine ⟨part :: parts, .cons hpart hparts, ?_, (Nat.le_max_left ..).trans hle,
      List.forall_mem_cons.mpr ⟨(Nat.le_max_right ..).trans hle, hsizes⟩⟩
    rw [hoffsets, List.length_cons, List.replicate_succ, offsetsAt_cons m ms, List.append_assoc]

/-! ## Structs and unions -/

/-- A struct that has a layout: its members lie one behind the other, and all fits. -/
theorem place_struct_eq_ok (htarget : target.Aligned) (hpack : validPack pack = true)
    {tag : Option String} {p : Placement} (h : place target pack (.aggregate .struct tag ms) = .ok p) :
    ∃ ls ps stop rounded, LaidOut target pack ms ls ∧ Consecutive pack 0 ls ps stop ∧
      NextMultiple (structAlign pack ls) stop rounded ∧ Fits ls ps ∧
      p = ⟨⟨structSize rounded, structAlign pack ls⟩, offsetsAt target pack ms ps⟩ := by
  obtain ⟨hnests, parts, hparts⟩ : NestsAggregates ms ∧ ∃ parts, Placed target pack ms parts := by
    simp only [place_struct, except_bind_eq_ok] at h
    obtain ⟨s, hs, -⟩ := h
    exact placed_of_joinStruct hs
  obtain ⟨ps, stop, hps⟩ := Consecutive.exists_of_pos (pos_of_validPack hpack)
    (List.forall_mem_map.mpr (align_pos_of_parts htarget hparts)) 0
  have hrounded := nextMultiple_roundUp (one_le_structAlign pack (parts.map (·.layout))) stop
  rw [place_struct_eq htarget hpack tag hparts hnests hps hrounded] at h
  split at h
  · next hfits =>
    exact ⟨_, ps, stop, _, hparts.laidOut hpack, hps, hrounded, hfits.1, (Except.ok.inj h).symm⟩
  · cases h

/-- A union that has a layout: its members lie at its start. -/
theorem place_union_eq_ok (hpack : validPack pack = true) {tag : Option String} {p : Placement}
    (h : place target pack (.aggregate .union tag ms) = .ok p) :
    ∃ ls, LaidOut target pack ms ls ∧ (∀ l ∈ ls, l.size ≤ p.layout.size) ∧
      p.offsets = offsetsAt target pack ms (List.replicate ms.length 0) := by
  simp only [place_union, except_bind_eq_ok] at h
  obtain ⟨u, hu, hfinish⟩ := h
  obtain rfl := eq_of_unionFinish_eq_ok hfinish
  obtain ⟨parts, hparts, hoffsets, -, hsizes⟩ := placed_of_joinUnion hpack hu
  exact ⟨_, hparts.laidOut hpack, List.forall_mem_map.mpr hsizes, hoffsets⟩

end CType

end ForeignCall
