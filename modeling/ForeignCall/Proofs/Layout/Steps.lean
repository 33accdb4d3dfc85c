import ForeignCall.Layout.Basic
import ForeignCall.Proofs.Results

/-!
# ForeignCall.Proofs.Layout.Steps

Layouts in steps. The element of an array is placed before the array, and the members of a struct or
union one after the other, each of which joins what is laid out so far. Structs and unions differ in
how a member joins and in what is done behind the last.

* `CType.placeMembers` — members that join what is laid out so far;
* `CType.place_array`, `CType.place_struct`, `CType.place_union` — the layouts of types made of
  parts;
* `CType.placeMembers_error_cases`, `CType.joinStruct_error_cases`, `CType.arrayOf_error_cases` —
  why a step fails;
* `CType.layout_of_place`, `CType.exists_place_of_layout`, `CType.offsets_eq_of_place` — the
  answers to questions, from where the parts lie.
-/

namespace ForeignCall.CType

variable {target : Target} {pack : Nat}

/-! ## Types made of parts -/

theorem place_array (base : CType) (dim : UInt64) :
    place target pack (.array base (some dim)) =
      place target pack base >>= arrayOf (.array base (some dim)) dim.toNat := by
  rw [place]
  cases place target pack base <;> rfl

/-- Lays out members in order. Each of them is placed, and then joins what is laid out so far. -/
def placeMembers {α : Type} (target : Target) (pack : Nat)
    (join : α → Member CType → Placement → Except LayoutError α) (a : α) :
    List (Member CType) → Except LayoutError α
  | [] => .ok a
  | m :: ms => place target pack m.type >>= fun p =>
      join a m p >>= fun a' => placeMembers target pack join a' ms

/-- A member joins the struct `whole`. -/
def joinStruct (whole : CType) (pack : Nat) (s : StructState) (m : Member CType) (p : Placement) :
    Except LayoutError StructState :=
  s.add whole pack m.name m.type p

/-- A member joins a union. -/
def joinUnion (pack : Nat) (u : Placement) (m : Member CType) (p : Placement) :
    Except LayoutError Placement :=
  unionAdd pack u m.name m.type p

theorem placeStruct_eq_placeMembers (whole : CType) (s : StructState) (ms : List (Member CType)) :
    placeStruct target pack whole s ms = placeMembers target pack (joinStruct whole pack) s ms := by
  induction ms generalizing s with
  | nil => rfl
  | cons m ms ih =>
    rw [placeStruct, placeMembers]
    cases place target pack m.type with
    | error e => rfl
    | ok p =>
      simp only [bind, Except.bind, joinStruct]
      cases s.add whole pack m.name m.type p with
      | error e => rfl
      | ok s' => exact ih s'

theorem placeUnion_eq_placeMembers (u : Placement) (ms : List (Member CType)) :
    placeUnion target pack u ms = placeMembers target pack (joinUnion pack) u ms := by
  induction ms generalizing u with
  | nil => rfl
  | cons m ms ih =>
    rw [placeUnion, placeMembers]
    cases place target pack m.type with
    | error e => rfl
    | ok p =>
      simp only [bind, Except.bind, joinUnion]
      cases unionAdd pack u m.name m.type p with
      | error e => rfl
      | ok u' => exact ih u'

theorem place_struct (tag : Option String) (ms : List (Member CType)) :
    place target pack (.aggregate .struct tag ms) =
      placeMembers target pack (joinStruct (.aggregate .struct tag ms) pack) .start ms >>=
        StructState.finish (.aggregate .struct tag ms) := by
  rw [place, placeStruct_eq_placeMembers]
  cases placeMembers target pack (joinStruct (.aggregate .struct tag ms) pack) .start ms <;> rfl

theorem place_union (tag : Option String) (ms : List (Member CType)) :
    place target pack (.aggregate .union tag ms) =
      placeMembers target pack (joinUnion pack) ⟨⟨0, 1⟩, []⟩ ms >>=
        unionFinish (.aggregate .union tag ms) := by
  rw [place, placeUnion_eq_placeMembers]
  cases placeMembers target pack (joinUnion pack) ⟨⟨0, 1⟩, []⟩ ms <;> rfl

/-- What is kept when a member joins holds behind the last. -/
theorem placeMembers_keeps {α : Type}
    {join : α → Member CType → Placement → Except LayoutError α} {P : α → Prop}
    (hjoin : ∀ a m p a', join a m p = .ok a' → P a → P a') {ms : List (Member CType)} {a a' : α}
    (h : placeMembers target pack join a ms = .ok a') (ha : P a) : P a' := by
  induction ms generalizing a with
  | nil =>
    obtain rfl := Except.ok.inj h
    exact ha
  | cons m ms ih =>
    simp only [placeMembers, except_bind_eq_ok] at h
    obtain ⟨p, -, joined, hjoined, hrest⟩ := h
    exact ih hrest (hjoin a m p joined hjoined ha)

/-! ## Steps that succeed -/

theorem eq_of_unionFinish_eq_ok {whole : CType} {u p : Placement}
    (h : unionFinish whole u = .ok p) : p = u := by
  unfold unionFinish at h
  split at h
  · cases h
  · exact (Except.ok.inj h).symm

theorem eq_of_checked_eq_ok {whole : CType} {n m : Nat} (h : checked whole n = .ok m) : m = n := by
  unfold checked at h
  split at h
  · exact (Except.ok.inj h).symm
  · cases h

theorem alignUp_of_pos {whole : CType} {align : Nat} (halign : 0 < align) (n : Nat) :
    alignUp whole n align = checked whole (roundUp n align) :=
  if_neg (Nat.ne_of_gt halign)

theorem eq_of_alignUp_eq_ok {whole : CType} {n align m : Nat} (h : alignUp whole n align = .ok m) :
    m = roundUp n align := by
  unfold alignUp at h
  split at h
  · cases h
  · exact eq_of_checked_eq_ok h

theorem eq_of_arrayOf_eq_ok {whole : CType} {dim : Nat} {element p : Placement}
    (h : arrayOf whole dim element = .ok p) :
    p = ⟨⟨element.layout.size * dim, element.layout.align⟩, []⟩ := by
  unfold arrayOf at h
  dsimp only at h
  split at h
  · cases h
  · split at h
    · cases h
    · obtain ⟨size, hsize, rfl⟩ := except_map_eq_ok.mp h
      rw [eq_of_checked_eq_ok hsize]

/-! ## Steps that fail -/

theorem eq_of_checked_eq_error {whole : CType} {n : Nat} {e : LayoutError}
    (h : checked whole n = .error e) : e = .overflow whole := by
  unfold checked at h
  split at h
  · cases h
  · exact (Except.error.inj h).symm

theorem alignUp_error_cases {whole : CType} {n align : Nat} {e : LayoutError}
    (h : alignUp whole n align = .error e) :
    align = 0 ∧ e = .abort .divide ∨ e = .overflow whole := by
  unfold alignUp at h
  split at h
  · next hzero => exact .inl ⟨hzero, (Except.error.inj h).symm⟩
  · exact .inr (eq_of_checked_eq_error h)

theorem eq_of_memberOffsets_eq_error {name : Option String} {t : CType} {p : Placement}
    {offset : Nat} {e : LayoutError} (h : memberOffsets name t p offset = .error e) :
    e = .unnamedScalar t := by
  unfold memberOffsets at h
  split at h
  · cases h
  · cases h
  · exact (Except.error.inj h).symm

theorem joinStruct_error_cases {whole : CType} {s : StructState} {m : Member CType} {p : Placement}
    {e : LayoutError} (h : joinStruct whole pack s m p = .error e) :
    min pack p.layout.align = 0 ∧ e = .abort .divide ∨ e = .overflow whole ∨
      e = .unnamedScalar m.type := by
  unfold joinStruct StructState.add at h
  rcases except_bind_eq_error.mp h with h | ⟨offset, -, h⟩
  · exact (alignUp_error_cases h).imp_right .inl
  · rcases except_bind_eq_error.mp h with h | ⟨stop, -, h⟩
    · exact .inr (.inl (eq_of_checked_eq_error h))
    · rcases except_bind_eq_error.mp h with h | ⟨own, -, h⟩
      · exact .inr (.inr (eq_of_memberOffsets_eq_error h))
      · cases h

theorem eq_of_joinUnion_eq_error {u p : Placement} {m : Member CType} {e : LayoutError}
    (h : joinUnion pack u m p = .error e) : e = .unnamedScalar m.type := by
  rcases except_bind_eq_error.mp h with h | ⟨own, -, h⟩
  · exact eq_of_memberOffsets_eq_error h
  · cases h

theorem eq_of_unionFinish_eq_error {whole : CType} {u : Placement} {e : LayoutError}
    (h : unionFinish whole u = .error e) : e = .emptyUnion whole := by
  unfold unionFinish at h
  split at h
  · exact (Except.error.inj h).symm
  · cases h

theorem arrayOf_error_cases {whole : CType} {dim : Nat} {element : Placement} {e : LayoutError}
    (h : arrayOf whole dim element = .error e) :
    element.layout.align = 0 ∧ e = .abort .remainder ∨
      e = .misalignedElement whole element.layout.size element.layout.align ∨
      e = .overflow whole := by
  unfold arrayOf at h
  dsimp only at h
  split at h
  · next hzero => exact .inl ⟨hzero, (Except.error.inj h).symm⟩
  · split at h
    · exact .inr (.inl (Except.error.inj h).symm)
    · exact .inr (.inr (eq_of_checked_eq_error (except_map_eq_error.mp h)))

/-- Members fail where one of them has no place, or does not join. -/
theorem placeMembers_error_cases {α : Type}
    {join : α → Member CType → Placement → Except LayoutError α} {ms : List (Member CType)} {a : α}
    {e : LayoutError} (h : placeMembers target pack join a ms = .error e) :
    (∃ m ∈ ms, place target pack m.type = .error e) ∨
      ∃ m ∈ ms, ∃ a p, place target pack m.type = .ok p ∧ join a m p = .error e := by
  induction ms generalizing a with
  | nil => cases h
  | cons m ms ih =>
    simp only [placeMembers, except_bind_eq_error] at h
    rcases h with hplace | ⟨p, hp, hjoin | ⟨joined, -, hrest⟩⟩
    · exact .inl ⟨m, List.mem_cons_self, hplace⟩
    · exact .inr ⟨m, List.mem_cons_self, a, p, hp, hjoin⟩
    · rcases ih hrest with ⟨m', hm, hplace⟩ | ⟨m', hm, hjoin⟩
      · exact .inl ⟨m', List.mem_cons_of_mem m hm, hplace⟩
      · exact .inr ⟨m', List.mem_cons_of_mem m hm, hjoin⟩

/-! ## Answers -/

/-- The size and alignment of what lies somewhere, for a valid packing width. -/
theorem layout_eq_map (hpack : validPack pack = true) (t : CType) :
    layout target pack t = (place target pack t).map (·.layout) :=
  if_pos hpack

theorem layout_of_place (hpack : validPack pack = true) {t : CType} {p : Placement}
    (h : place target pack t = .ok p) : layout target pack t = .ok p.layout := by
  rw [layout_eq_map hpack, h]
  rfl

/-- A struct or union that lies somewhere has its offsets. -/
theorem offsets_eq_of_place (hpack : validPack pack = true) {kind : TagKind} {tag : Option String}
    {ms : List (Member CType)} {p : Placement}
    (h : place target pack (.aggregate kind tag ms) = .ok p) :
    offsets target pack (.aggregate kind tag ms) = .ok p.offsets := by
  rw [offsets, if_pos hpack, h]
  rfl

theorem validPack_of_layout {t : CType} {l : Layout} (h : layout target pack t = .ok l) :
    validPack pack = true := by
  unfold layout at h
  split at h
  · assumption
  · cases h

/-- What has a layout lies somewhere. -/
theorem exists_place_of_layout {t : CType} {l : Layout} (h : layout target pack t = .ok l) :
    ∃ p, place target pack t = .ok p ∧ p.layout = l := by
  rw [layout_eq_map (validPack_of_layout h)] at h
  exact except_map_eq_ok.mp h

end ForeignCall.CType
