import ForeignCall.Proofs.Layout.Aggregates

/-!
# ForeignCall.Proofs.Layout.Members

The members of a struct or union without a name, seen through. A path of indices leads from an
aggregate to a part of it, and the part starts where the starts of the members on the way add up to.
The offsets of an aggregate are those of the named members that are reached through unnamed ones.

* `CType.namedMembers` — these members in order, and `CType.Reaches`: what it is to be one of them;
* `CType.PartAt` — where the part at a path starts, and `PartAt.inside`: it ends inside the whole;
* `CType.Forks` — paths that part at a struct, and `Forks.apart`: they lead to different bytes;
* `CType.offsets_flatten` — the offsets of a struct or union.
-/

namespace ForeignCall

/-! ## Named members -/

/-- A named member with the indices that lead to it. -/
structure NamedMember where
  path : List Nat
  name : String
  type : CType

/-- A member of the unnamed member at `index`, seen from the aggregate around both. -/
def NamedMember.within (index : Nat) (m : NamedMember) : NamedMember :=
  { m with path := index :: m.path }

namespace CType

mutual

/-- The named members of a struct or union, in the order of a walk that enters the unnamed ones. -/
def namedMembers : CType → List NamedMember
  | .aggregate _ _ members => namedFrom 0 members
  | _ => []

/-- The named members among members of which the first has the index `index`. -/
def namedFrom (index : Nat) : List (Member CType) → List NamedMember
  | [] => []
  | ⟨some name, t⟩ :: ms => ⟨[index], name, t⟩ :: namedFrom (index + 1) ms
  | ⟨none, t⟩ :: ms => t.namedMembers.map (·.within index) ++ namedFrom (index + 1) ms

end

/-- A named member belongs to an aggregate: it is one of its members, or it belongs to one that has
no name. -/
inductive Reaches : CType → NamedMember → Prop
  | own {kind : TagKind} {tag : Option String} {members : List (Member CType)} {index : Nat}
    {name : String} {t : CType} (hm : members[index]? = some ⟨some name, t⟩) :
    Reaches (.aggregate kind tag members) ⟨[index], name, t⟩
  | nested {kind : TagKind} {tag : Option String} {members : List (Member CType)} {index : Nat}
    {t : CType} {m : NamedMember} (hm : members[index]? = some ⟨none, t⟩) (inner : Reaches t m) :
    Reaches (.aggregate kind tag members) (m.within index)

theorem namedFrom_cons (index : Nat) (m : Member CType) (ms : List (Member CType)) :
    namedFrom index (m :: ms) = namedFrom index [m] ++ namedFrom (index + 1) ms := by
  obtain ⟨name, t⟩ := m
  cases name <;> simp [namedFrom]

/-- What is found among members belongs to the member at the head of its path. -/
theorem mem_namedFrom {index : Nat} {ms : List (Member CType)} {m : NamedMember} :
    m ∈ namedFrom index ms ↔ ∃ i member, ms[i]? = some member ∧
      m ∈ namedFrom (index + i) [member] := by
  induction ms generalizing index with
  | nil => simp [namedFrom]
  | cons member ms ih =>
    rw [namedFrom_cons, List.mem_append, ih]
    constructor
    · rintro (h | ⟨i, member', hi, h⟩)
      · exact ⟨0, member, rfl, h⟩
      · exact ⟨i + 1, member', hi, by rwa [Nat.add_right_comm] at h⟩
    · rintro ⟨i, member', hi, h⟩
      cases i with
      | zero =>
        obtain rfl := Option.some.inj hi
        exact .inl h
      | succ i => exact .inr ⟨i, member', hi, by rwa [Nat.add_right_comm]⟩

/-- The walk finds the named members that belong to the aggregate, and no others. -/
theorem mem_namedMembers {t : CType} {m : NamedMember} : m ∈ t.namedMembers ↔ Reaches t m := by
  constructor
  · intro h
    induction t generalizing m with
    | aggregate kind tag members ih =>
      rw [namedMembers, mem_namedFrom] at h
      obtain ⟨i, ⟨name, t⟩, hi, h⟩ := h
      rw [Nat.zero_add] at h
      cases name with
      | some name =>
        obtain rfl := List.mem_singleton.mp h
        exact .own hi
      | none =>
        rw [namedFrom, namedFrom, List.append_nil] at h
        obtain ⟨inner, hinner, rfl⟩ := List.mem_map.mp h
        exact .nested hi (ih ⟨none, t⟩ (List.mem_of_getElem? hi) hinner)
    | void | special | integral | floating | pointer | array | placeholder | enum | func => cases h
  · intro h
    induction h with
    | own hm =>
      rw [namedMembers, mem_namedFrom]
      exact ⟨_, _, hm, by simp [namedFrom]⟩
    | nested hm inner ih =>
      rw [namedMembers, mem_namedFrom]
      exact ⟨_, _, hm, by simpa [namedFrom] using ⟨_, ih, rfl⟩⟩

/-- The path of what is found among members starts with the index of one of them. -/
theorem le_of_mem_namedFrom {index : Nat} {ms : List (Member CType)} {m : NamedMember}
    (h : m ∈ namedFrom index ms) : ∃ i path, m.path = i :: path ∧ index ≤ i := by
  obtain ⟨i, ⟨name, t⟩, -, h⟩ := mem_namedFrom.mp h
  cases name with
  | some name =>
    obtain rfl := List.mem_singleton.mp h
    exact ⟨index + i, [], rfl, Nat.le_add_right ..⟩
  | none =>
    rw [namedFrom, namedFrom, List.append_nil] at h
    obtain ⟨inner, -, rfl⟩ := List.mem_map.mp h
    exact ⟨index + i, inner.path, rfl, Nat.le_add_right ..⟩

theorem pairwise_namedFrom {ms : List (Member CType)}
    (hms : ∀ m ∈ ms, m.type.namedMembers.Pairwise fun a b => a.path < b.path) (index : Nat) :
    (namedFrom index ms).Pairwise fun a b => a.path < b.path := by
  induction ms generalizing index with
  | nil => exact .nil
  | cons m ms ih =>
    rw [List.forall_mem_cons] at hms
    obtain ⟨name, t⟩ := m
    have hbehind : ∀ path, ∀ b ∈ namedFrom (index + 1) ms, index :: path < b.path := by
      intro path b hb
      obtain ⟨i, path', hpath, hle⟩ := le_of_mem_namedFrom hb
      rw [hpath]
      exact List.cons_lt_cons_iff.mpr (.inl hle)
    cases name with
    | some name => exact .cons (hbehind []) (ih hms.2 _)
    | none =>
      rw [namedFrom, List.pairwise_append, List.pairwise_map]
      refine ⟨hms.1.imp fun h => List.cons_lt_cons_iff.mpr (.inr ⟨rfl, h⟩), ih hms.2 _, ?_⟩
      rintro a ha b hb
      obtain ⟨inner, -, rfl⟩ := List.mem_map.mp ha
      exact hbehind inner.path b hb

/-- The walk goes from the first member to the last, at every depth. -/
theorem pairwise_namedMembers (t : CType) :
    t.namedMembers.Pairwise fun a b => a.path < b.path := by
  induction t with
  | aggregate kind tag members ih => exact pairwise_namedFrom ih 0
  | void | special | integral | floating | pointer | array | placeholder | enum | func => exact .nil

/-! ## Where parts start -/

/-- Where the members of an aggregate start: in a struct one behind the other, in a union all at its
start. -/
def Starts (target : Target) (pack : Nat) (members : List (Member CType)) :
    TagKind → List Nat → Prop
  | .struct, ps => ∃ ls stop, LaidOut target pack members ls ∧ Consecutive pack 0 ls ps stop
  | .union, ps => ps = List.replicate members.length 0

/-- The indices lead from a type to a part of it. The part starts at the sum of the offsets of the
members on the way. -/
inductive PartAt (target : Target) (pack : Nat) : CType → List Nat → CType → Nat → Prop
  | here (t : CType) : PartAt target pack t [] t 0
  | member {kind : TagKind} {tag : Option String} {members : List (Member CType)} {ps : List Nat}
    {index p q : Nat} {m : Member CType} {path : List Nat} {part : CType}
    (hps : Starts target pack members kind ps) (hm : members[index]? = some m)
    (hp : ps[index]? = some p) (inner : PartAt target pack m.type path part q) :
    PartAt target pack (.aggregate kind tag members) (index :: path) part (p + q)

section Parts

variable {target : Target} {pack : Nat} {kind : TagKind} {tag : Option String}
  {members : List (Member CType)} {l : Layout}

theorem Starts.unique {ps ps' : List Nat} (h : Starts target pack members kind ps)
    (h' : Starts target pack members kind ps') : ps = ps' := by
  cases kind with
  | struct =>
    obtain ⟨ls, stop, hls, hps⟩ := h
    obtain ⟨ls', stop', hls', hps'⟩ := h'
    obtain rfl := hls.unique hls'
    exact (hps.unique hps').1
  | union => exact h.trans h'.symm

/-- **What a layout is made of.** The members start somewhere, each of them ends inside the
aggregate, and the offsets are those that the members bring there. In a struct all numbers fit. -/
theorem starts_of_place (htarget : target.Aligned) (hpack : validPack pack = true) {p : Placement}
    (h : place target pack (.aggregate kind tag members) = .ok p) :
    ∃ ps, Starts target pack members kind ps ∧ members.length = ps.length ∧
      p.offsets = offsetsAt target pack members ps ∧
      ∀ (index : Nat) (m : Member CType) (start : Nat),
        members[index]? = some m → ps[index]? = some start →
        ∃ part, layout target pack m.type = .ok part ∧ start + part.size ≤ p.layout.size ∧
          (kind = .struct → start + part.size ≤ maxSize) := by
  cases kind with
  | struct =>
    obtain ⟨ls, ps, stop, rounded, hls, hps, hrounded, hfits, rfl⟩ :=
      place_struct_eq_ok htarget hpack h
    refine ⟨ps, ⟨ls, stop, hls, hps⟩, hls.length_eq.trans hps.length_eq, rfl, ?_⟩
    intro index m start hm hstart
    obtain ⟨part, hpart, hlayout⟩ := hls.getElem? hm
    have hmem : (part, start) ∈ ls.zip ps :=
      List.mem_of_getElem? (List.getElem?_zip_eq_some.mpr ⟨hpart, hstart⟩)
    refine ⟨part, hlayout, ?_, fun _ => (hfits _ hmem).2⟩
    rw [structSize_eq_max]
    exact (hps.le_stop_of_mem hmem).trans (hrounded.le.trans (Nat.le_max_left ..))
  | union =>
    obtain ⟨ls, hls, hsizes, hoffsets⟩ := place_union_eq_ok hpack h
    refine ⟨_, rfl, List.length_replicate.symm, hoffsets, ?_⟩
    intro index m start hm hstart
    obtain ⟨part, hpart, hlayout⟩ := hls.getElem? hm
    obtain rfl := List.eq_of_mem_replicate (List.mem_of_getElem? hstart)
    refine ⟨part, hlayout, ?_, nofun⟩
    rw [Nat.zero_add]
    exact hsizes part (List.mem_of_getElem? hpart)

/-- A member of an aggregate with a layout has a layout, and ends inside the aggregate. -/
theorem Starts.inside (htarget : target.Aligned)
    (hl : layout target pack (.aggregate kind tag members) = .ok l) {ps : List Nat}
    (hps : Starts target pack members kind ps) {index start : Nat} {m : Member CType}
    (hm : members[index]? = some m) (hstart : ps[index]? = some start) :
    ∃ part, layout target pack m.type = .ok part ∧ start + part.size ≤ l.size ∧
      (kind = .struct → start + part.size ≤ maxSize) := by
  obtain ⟨p, hp, rfl⟩ := exists_place_of_layout hl
  obtain ⟨ps', hps', -, -, hinside⟩ := starts_of_place htarget (validPack_of_layout hl) hp
  obtain rfl := hps.unique hps'
  exact hinside index m start hm hstart

/-- **A part lies inside the whole.** -/
theorem PartAt.inside (htarget : target.Aligned) {t u : CType} {path : List Nat} {o : Nat}
    (h : PartAt target pack t path u o) (hl : layout target pack t = .ok l) :
    ∃ part, layout target pack u = .ok part ∧ o + part.size ≤ l.size := by
  induction h generalizing l with
  | here t => exact ⟨l, hl, by rw [Nat.zero_add]⟩
  | member hps hm hp inner ih =>
    obtain ⟨outer, houter, hle, -⟩ := hps.inside htarget hl hm hp
    obtain ⟨part, hpart, hle'⟩ := ih houter
    refine ⟨part, hpart, ?_⟩
    rw [Nat.add_assoc]
    exact (Nat.add_le_add_left hle' _).trans hle

/-! ## Parts apart -/

/-- The paths part at a struct: from there they lead to different members, the first path to the one
in front. -/
inductive Forks : CType → List Nat → List Nat → Prop
  | here {tag : Option String} {members : List (Member CType)} {i j : Nat} {path path' : List Nat}
    (hij : i < j) : Forks (.aggregate .struct tag members) (i :: path) (j :: path')
  | inside {kind : TagKind} {tag : Option String} {members : List (Member CType)} {index : Nat}
    {m : Member CType} {path path' : List Nat} (hm : members[index]? = some m)
    (inner : Forks m.type path path') :
    Forks (.aggregate kind tag members) (index :: path) (index :: path')

/-- The members of a struct lie one behind the other. -/
theorem Starts.stop_le {ps : List Nat} (hps : Starts target pack members .struct ps) {i j p q : Nat}
    (hij : i < j) {m : Member CType} (hm : members[i]? = some m) (hp : ps[i]? = some p)
    (hq : ps[j]? = some q) {part : Layout} (hpart : layout target pack m.type = .ok part) :
    p + part.size ≤ q := by
  obtain ⟨ls, stop, hls, hps⟩ := hps
  obtain ⟨part', hl, hlayout⟩ := hls.getElem? hm
  obtain rfl := Except.ok.inj (hpart.symm.trans hlayout)
  exact hps.stop_le_of_lt hij hl hp hq

/-- **Parts on paths that part at a struct have no byte in common**: one ends before the other
starts. -/
theorem Forks.apart (htarget : target.Aligned) {t u u' : CType} {path path' : List Nat} {o o' : Nat}
    (h : Forks t path path') (hl : layout target pack t = .ok l)
    (hu : PartAt target pack t path u o) (hu' : PartAt target pack t path' u' o') {part : Layout}
    (hpart : layout target pack u = .ok part) : o + part.size ≤ o' := by
  induction h generalizing l o o' with
  | here hij =>
    cases hu with
    | member hps hm hp inner =>
      cases hu' with
      | member hps' hm' hp' inner' =>
        obtain rfl := hps.unique hps'
        obtain ⟨outer, houter, -⟩ := hps.inside htarget hl hm hp
        obtain ⟨part', hpart', hle⟩ := inner.inside htarget houter
        obtain rfl := Except.ok.inj (hpart.symm.trans hpart')
        -- the first part ends inside its member, which ends before the other member starts
        have hbehind := hps.stop_le hij hm hp hp' houter
        omega
  | inside hm _ ih =>
    cases hu with
    | member hps hm' hp inner =>
      cases hu' with
      | member hps' hm'' hp' inner' =>
        obtain rfl := hps.unique hps'
        obtain rfl := Option.some.inj (hp.symm.trans hp')
        obtain rfl := Option.some.inj (hm.symm.trans hm')
        obtain rfl := Option.some.inj (hm.symm.trans hm'')
        obtain ⟨outer, houter, -⟩ := hps.inside htarget hl hm hp
        have hle := ih houter inner inner'
        omega

/-! ## Offsets -/

/-- The offsets that an unnamed member brings are those of its placement. -/
theorem offsets_getD_of_place (hpack : validPack pack = true) {t : CType} {p : Placement}
    (h : place target pack t = .ok p) : (t.offsets target pack).toOption.getD [] = p.offsets := by
  cases t with
  | aggregate kind tag members =>
    rw [offsets_eq_of_place hpack h]
    rfl
  | array base dim =>
    cases dim with
    | none => cases h
    | some dim =>
      simp only [place_array, except_bind_eq_ok] at h
      obtain ⟨element, -, hp⟩ := h
      obtain rfl := eq_of_arrayOf_eq_ok hp
      rfl
  | integral | floating | pointer | enum =>
    obtain rfl := Except.ok.inj h
    rfl
  | void | special | placeholder | func => cases h

/-- What holds of each member and what it brings holds along the whole walk. -/
theorem forall₂_namedFrom {R : NamedMember → String × Nat → Prop} {ms : List (Member CType)}
    {ps : List Nat} (hlength : ms.length = ps.length) (index : Nat)
    (hR : ∀ i m p, ms[i]? = some m → ps[i]? = some p →
      List.Forall₂ R (namedFrom (index + i) [m]) (offsetsAt target pack [m] [p])) :
    List.Forall₂ R (namedFrom index ms) (offsetsAt target pack ms ps) := by
  induction ms generalizing ps index with
  | nil => exact .nil
  | cons m ms ih =>
    obtain _ | ⟨p, ps⟩ := ps
    · cases hlength
    rw [namedFrom_cons, offsetsAt_cons]
    refine List.rel_append (hR 0 m p rfl rfl) (ih (Nat.succ.inj hlength) (index + 1) ?_)
    intro i m' p' hm hp
    rw [Nat.add_right_comm]
    exact hR (i + 1) m' p' hm hp

/-- **The offsets are those of the named members**, in the order of the walk. -/
theorem offsets_namedMembers (htarget : target.Aligned) (hpack : validPack pack = true) {t : CType}
    {p : Placement} (h : place target pack t = .ok p) :
    List.Forall₂ (fun m e => e.1 = m.name ∧ PartAt target pack t m.path m.type e.2) t.namedMembers
      p.offsets := by
  induction t generalizing p with
  | aggregate kind tag members ih =>
    obtain ⟨ps, hps, hlength, hoffsets, hinside⟩ := starts_of_place htarget hpack h
    rw [hoffsets]
    refine forall₂_namedFrom hlength 0 fun i m start hm hstart => ?_
    rw [Nat.zero_add]
    obtain ⟨name, t⟩ := m
    cases name with
    | some name => exact .cons ⟨rfl, .member hps hm hstart (.here t)⟩ .nil
    | none =>
      -- an unnamed member brings what its own walk finds, behind its start
      obtain ⟨part, hpart, -⟩ := hinside i _ start hm hstart
      obtain ⟨inner, hinner, -⟩ := exists_place_of_layout hpart
      simp only [namedFrom, offsetsAt, offsets_getD_of_place hpack hinner, List.append_nil,
        List.forall₂_map_left_iff, List.forall₂_map_right_iff]
      refine (ih ⟨none, t⟩ (List.mem_of_getElem? hm) hinner).imp ?_
      rintro m' e ⟨hname, hpart'⟩
      exact ⟨hname, .member hps hm hstart hpart'⟩
  | void | special | integral | floating | pointer | array | placeholder | enum | func =>
    rw [← offsets_getD_of_place hpack h]
    exact .nil

/-- An offset is at most the size of the struct or union. -/
theorem offset_le_size (htarget : target.Aligned) {t : CType} {os : Offsets}
    (hl : layout target pack t = .ok l) (hos : t.offsets target pack = .ok os) :
    ∀ e ∈ os, e.2 ≤ l.size := by
  obtain ⟨p, hp, rfl⟩ := exists_place_of_layout hl
  have hpack := validPack_of_layout hl
  have hoffsets := offsets_getD_of_place hpack hp
  rw [hos] at hoffsets
  obtain rfl : os = p.offsets := hoffsets
  have hnamed := offsets_namedMembers htarget hpack hp
  intro e he
  obtain ⟨i, rfl⟩ := List.get_of_mem he
  obtain ⟨-, hpart⟩ := hnamed.get (by rw [hnamed.length_eq]; exact i.isLt) i.isLt
  obtain ⟨part, -, hle⟩ := hpart.inside htarget hl
  exact (Nat.le_add_right ..).trans hle

/-- The offsets of an unnamed member of a struct fit 64 bits when its own is added to them: they are
at most its size, and its end fits. -/
theorem start_add_le_maxSize (htarget : target.Aligned)
    (hl : layout target pack (.aggregate .struct tag members) = .ok l) {index start : Nat}
    {t : CType} (hm : members[index]? = some ⟨none, t⟩)
    (hpart : PartAt target pack (.aggregate .struct tag members) [index] t start) {inner : Offsets}
    (hinner : t.offsets target pack = .ok inner) : ∀ e ∈ inner, start + e.2 ≤ maxSize := by
  intro e he
  cases hpart with
  | member hps hm' hstart hrest =>
    obtain rfl := Option.some.inj (hm.symm.trans hm')
    cases hrest
    obtain ⟨part, hlayout, -, hfits⟩ := hps.inside htarget hl hm' hstart
    exact (Nat.add_le_add_left (offset_le_size htarget hlayout hinner e he) _).trans (hfits rfl)

/-- **The offsets of a struct or union.** They are those of the named members that belong to it or
to its unnamed members, in the order of a walk; each is the sum of the offsets on the way to the
member. A member lies inside the whole, and ends before one starts that is in a later member of a
struct around both. Wherever an unnamed member of a struct has offsets, they fit 64 bits when its
own is added to them. -/
theorem offsets_flatten (htarget : target.Aligned) (queries : List Engine.Query)
    (hl : (((Engine.new target).after queries).layout pack (.aggregate kind tag members)).1 = .ok l) :
    let engine := (Engine.new target).after queries
    let whole := CType.aggregate kind tag members
    ∃ os, (engine.offsets pack whole).1 = .ok os ∧
      List.Forall₂ (fun m e => e.1 = m.name ∧ PartAt target pack whole m.path m.type e.2)
        whole.namedMembers os ∧
      (∀ m, m ∈ whole.namedMembers ↔ Reaches whole m) ∧
      (whole.namedMembers.Pairwise fun a b => a.path < b.path) ∧
      (∀ m o, Reaches whole m → PartAt target pack whole m.path m.type o →
        ∃ part, (engine.layout pack m.type).1 = .ok part ∧ o + part.size ≤ l.size ∧
          ∀ m' o', Reaches whole m' → PartAt target pack whole m'.path m'.type o' →
            Forks whole m.path m'.path → o + part.size ≤ o') ∧
      ∀ path tag' ms o, PartAt target pack whole path (.aggregate .struct tag' ms) o →
        ∀ index t start inner, ms[index]? = some ⟨none, t⟩ →
          PartAt target pack (.aggregate .struct tag' ms) [index] t start →
            (engine.offsets pack t).1 = .ok inner → ∀ e ∈ inner, start + e.2 ≤ maxSize := by
  intro engine whole
  simp only [engine, whole, Engine.layout_after, Engine.offsets_after] at hl ⊢
  have hpack := validPack_of_layout hl
  obtain ⟨p, hp, rfl⟩ := exists_place_of_layout hl
  have hoffsets : (CType.aggregate kind tag members).offsets target pack = .ok p.offsets := by
    rw [offsets, if_pos hpack, hp]
    rfl
  refine ⟨p.offsets, hoffsets, offsets_namedMembers htarget hpack hp, fun m => mem_namedMembers,
    pairwise_namedMembers _, fun m o _ hpart => ?_, ?_⟩
  · obtain ⟨part, hlayout, hle⟩ := hpart.inside htarget hl
    exact ⟨part, hlayout, hle, fun m' o' _ hpart' hforks =>
      hforks.apart htarget hl hpart hpart' hlayout⟩
  · intro path tag' ms o hstruct index t start inner hm hstart hinner
    obtain ⟨around, haround, -⟩ := hstruct.inside htarget hl
    exact start_add_le_maxSize htarget haround hm hstart hinner

/-- The members `char tag; union { int i; struct { char c; double d; }; }; short s[2];`. -/
def taggedMembers : List (Member CType) :=
  [⟨some "tag", .integral .char true⟩,
    ⟨none, .aggregate .union none
      [⟨some "i", .int⟩,
        ⟨none, .aggregate .struct none
          [⟨some "c", .integral .char true⟩, ⟨some "d", .double⟩]⟩]⟩,
    ⟨some "s", .array (.integral .short true) (some 2)⟩]

/-- The member `d` is two unnamed members deep: it starts at 16 and ends before `s` starts. -/
theorem offsets_flatten_taggedMembers :
    let whole := CType.aggregate .struct none taggedMembers
    Target.lp64.Aligned ∧ ((Engine.new .lp64).layout 8 whole).1 = .ok ⟨32, 8⟩ ∧
      ((Engine.new .lp64).offsets 8 whole).1 =
        .ok [("tag", 0), ("i", 8), ("c", 8), ("d", 16), ("s", 24)] ∧
      Reaches whole ⟨[1, 1, 1], "d", .double⟩ ∧ PartAt .lp64 8 whole [1, 1, 1] .double 16 ∧
        PartAt .lp64 8 whole [2] (.array (.integral .short true) (some 2)) 24 ∧
          16 + 8 ≤ 32 ∧ 16 + 8 ≤ 24 := by
  intro whole
  have htarget : Target.lp64.Aligned := by decide
  have hlayout : ((Engine.new .lp64).layout 8 whole).1 = .ok ⟨32, 8⟩ := by decide +kernel
  have hoffsets : ((Engine.new .lp64).offsets 8 whole).1 =
      .ok [("tag", 0), ("i", 8), ("c", 8), ("d", 16), ("s", 24)] := by decide +kernel
  have hdouble : ((Engine.new .lp64).layout 8 .double).1 = .ok ⟨8, 8⟩ := by decide +kernel
  obtain ⟨os, hos, hnamed, hreaches, -, hinside, -⟩ := offsets_flatten htarget [] hlayout
  obtain rfl := Except.ok.inj (hos.symm.trans hoffsets)
  obtain - | ⟨-, - | ⟨-, - | ⟨-, - | ⟨⟨-, hd⟩, - | ⟨⟨-, hs⟩, -⟩⟩⟩⟩⟩ := hnamed
  have hdNamed : Reaches whole ⟨[1, 1, 1], "d", .double⟩ :=
    (hreaches _).mp (by simp [taggedMembers, namedMembers, namedFrom, NamedMember.within])
  have hsNamed : Reaches whole ⟨[2], "s", .array (.integral .short true) (some 2)⟩ := .own rfl
  obtain ⟨part, hpart, hle, hapart⟩ := hinside _ _ hdNamed hd
  obtain rfl := Except.ok.inj (hpart.symm.trans hdouble)
  exact ⟨htarget, hlayout, hoffsets, hdNamed, hd, hs, hle,
    hapart _ _ hsNamed hs (.here (by decide))⟩

end Parts

end CType

end ForeignCall
