import ForeignCall.Proofs.CType.RoundTrip
import ForeignCall.Proofs.Json.Alike

/-!
# ForeignCall.Proofs.CType.Documents

The documents of a type, as a grammar. Each shape has its members, which are looked up by name: an
object may have them in any order, and others beside them.

* `CType.Denotes` — the documents of a type;
* `CType.decode_eq_ok_iff` — they are the documents that are read as this type;
* `CType.Denotes.alike` — a document may be exchanged for one that is alike.
-/

namespace ForeignCall

namespace CType

variable {d d' : Json} {obj : List (String × Json)} {t : CType} {key context : String}

/-! ## Members -/

theorem requireStr_eq_ok_iff {s : String} :
    requireStr key context obj = .ok s ↔ Json.lookup key obj = some (.str s) := by
  unfold requireStr require
  cases Json.lookup key obj with
  | none => simp
  | some j => cases j <;> simp

theorem requireName_eq_ok_iff {name : Option String} :
    requireName context obj = .ok name ↔ Json.lookup "n" obj = some (encodeName name) := by
  unfold requireName require
  cases Json.lookup "n" obj with
  | none => simp
  | some j => cases j <;> cases name <;> simp [encodeName, Json.opt]

theorem requireDim_eq_ok_iff {dim : Option UInt64} :
    requireDim obj = .ok dim ↔
      Json.lookup "v" obj = some (.opt (fun d => .nat d.toNat) dim) := by
  unfold requireDim require
  cases Json.lookup "v" obj with
  | none => simp
  | some j =>
    cases j with
    | null => cases dim <;> simp [Json.opt, Json.nat]
    | _ =>
      cases dim with
      | none => simp only [Json.opt]; split <;> simp
      | some d =>
        simp only [Json.opt, Option.some.injEq, ← Json.word?_eq_some_iff]
        split <;> simp_all

theorem requireVariadic_eq_ok_iff {variadic : Bool} :
    requireVariadic obj = .ok variadic ↔ Json.lookup "va" obj = some (.bool variadic) := by
  unfold requireVariadic require
  cases Json.lookup "va" obj with
  | none => simp
  | some j => cases j <;> simp

/-- The document of enumerators, each of which has its own name. -/
def valuesDocument (values : List (String × Int64)) : Json :=
  .obj (values.map fun e => (e.1, .int e.2.toInt))

theorem decodeValues_eq_ok_iff {values : List (String × Int64)} :
    decodeValues obj = .ok values ↔ obj = values.map fun e => (e.1, .int e.2.toInt) := by
  induction obj generalizing values with
  | nil => cases values <;> simp [decodeValues]
  | cons m obj ih =>
    obtain ⟨name, j⟩ := m
    rw [decodeValues]
    split
    · next hnone =>
      cases values with
      | nil => simp
      | cons e values =>
        have hne : j ≠ .int e.2.toInt := by
          rintro rfl
          rw [Json.int64?_int] at hnone
          cases hnone
        simp [hne]
    · next v hv =>
      obtain rfl := Json.int64?_eq_some_iff.mp hv
      cases values with
      | nil => simp [except_map_eq_ok]
      | cons e values =>
        simp [except_map_eq_ok, ih, Prod.ext_iff, Json.int, Int64.toInt_inj, and_comm]

theorem requireValues_eq_ok_iff {values : List (String × Int64)} :
    requireValues obj = .ok values ↔ Json.lookup "v" obj = some (valuesDocument values) := by
  unfold requireValues require
  cases Json.lookup "v" obj with
  | none => simp
  | some j => cases j <;> simp [valuesDocument, decodeValues_eq_ok_iff]

theorem decodeAt_of_lookup {j : Json} (h : Json.lookup key obj = some j) :
    decodeAt key context obj = decode j := by
  induction obj with
  | nil => exact nomatch h
  | cons m obj ih =>
    rw [Json.lookup_cons] at h
    rw [decodeAt]
    split <;> simp_all

theorem decodeListAt_of_lookup {items : List Json} (h : Json.lookup key obj = some (.arr items)) :
    decodeListAt key context obj = decodeMembers context items := by
  induction obj with
  | nil => exact nomatch h
  | cons m obj ih =>
    obtain ⟨k, j⟩ := m
    rw [Json.lookup_cons] at h
    by_cases hk : k = key
    · obtain rfl : j = .arr items := by simpa [hk] using h
      simp [decodeListAt, hk]
    · rw [if_neg hk] at h
      cases j <;> simp [decodeListAt, hk, ih h]

/-! ## Documents -/

mutual

/-- The documents of a type, by its shape. -/
inductive Denotes : Json → CType → Prop
  | name {name : String} {t : CType} (hname : ofName? name = some t) : Denotes (.str name) t
  | pointer {obj : List (String × Json)} {j : Json} {base : CType}
    (hshape : Json.lookup "t" obj = some (.str "p")) (hj : Json.lookup "b" obj = some j)
    (hbase : Denotes j base) : Denotes (.obj obj) (.pointer base)
  | array {obj : List (String × Json)} {j : Json} {base : CType} {dim : Option UInt64}
    (hshape : Json.lookup "t" obj = some (.str "a")) (hj : Json.lookup "b" obj = some j)
    (hbase : Denotes j base)
    (hdim : Json.lookup "v" obj = some (.opt (fun d => .nat d.toNat) dim)) :
    Denotes (.obj obj) (.array base dim)
  | func {obj : List (String × Json)} {items : List Json} {j : Json} {params : List (Member CType)}
    {ret : CType} {variadic : Bool} (hshape : Json.lookup "t" obj = some (.str "f"))
    (hvariadic : Json.lookup "va" obj = some (.bool variadic))
    (hitems : Json.lookup "as" obj = some (.arr items)) (hparams : DenotesMembers items params)
    (hj : Json.lookup "v" obj = some j) (hret : Denotes j ret) :
    Denotes (.obj obj) (.func params ret variadic)
  | enum {obj : List (String × Json)} {tag : Option String} {values : List (String × Int64)}
    (hshape : Json.lookup "t" obj = some (.str "e"))
    (htag : Json.lookup "n" obj = some (encodeName tag))
    (hvalues : Json.lookup "v" obj = some (valuesDocument values)) :
    Denotes (.obj obj) (.enum tag values)
  | aggregate {obj : List (String × Json)} {items : List Json} {kind : TagKind}
    {tag : Option String} {members : List (Member CType)}
    (hshape : Json.lookup "t" obj = some (.str (aggregateTag kind)))
    (htag : Json.lookup "n" obj = some (encodeName tag))
    (hitems : Json.lookup "d" obj = some (.arr items)) (hmembers : DenotesMembers items members) :
    Denotes (.obj obj) (.aggregate kind tag members)
  | placeholder {obj : List (String × Json)} {kind : TagKind} {tag : String}
    (hshape : Json.lookup "t" obj = some (.str (placeholderTag kind)))
    (htag : Json.lookup "n" obj = some (.str tag)) : Denotes (.obj obj) (.placeholder kind tag)

/-- The documents of members or parameters. -/
inductive DenotesMembers : List Json → List (Member CType) → Prop
  | nil : DenotesMembers [] []
  | cons {entry : List (String × Json)} {j : Json} {items : List Json} {name : Option String}
    {t : CType} {members : List (Member CType)}
    (hname : Json.lookup "n" entry = some (encodeName name))
    (hj : Json.lookup "t" entry = some j) (ht : Denotes j t)
    (hrest : DenotesMembers items members) :
    DenotesMembers (.obj entry :: items) (⟨name, t⟩ :: members)

end

mutual

theorem Denotes.decode_eq : {d : Json} → {t : CType} → Denotes d t → decode d = .ok t
  | _, _, .name hname => by rw [decode, hname]
  | _, _, .pointer hshape hj hbase => by
    simp [decode, requireStr_eq_ok_iff.mpr hshape, decodeAt_of_lookup hj, hbase.decode_eq]
  | _, _, .array hshape hj hbase hdim => by
    simp [decode, requireStr_eq_ok_iff.mpr hshape, decodeAt_of_lookup hj, hbase.decode_eq,
      requireDim_eq_ok_iff.mpr hdim, Except.map]
  | _, _, .func hshape hvariadic hitems hparams hj hret => by
    simp [decode, requireStr_eq_ok_iff.mpr hshape, requireVariadic_eq_ok_iff.mpr hvariadic,
      decodeListAt_of_lookup hitems, hparams.decode_eq, decodeAt_of_lookup hj, hret.decode_eq]
  | _, _, .enum hshape htag hvalues => by
    simp [decode, requireStr_eq_ok_iff.mpr hshape, requireName_eq_ok_iff.mpr htag,
      requireValues_eq_ok_iff.mpr hvalues, Except.map]
  | _, .aggregate kind _ _, .aggregate hshape htag hitems hmembers => by
    cases kind <;>
      simp [decode, requireStr_eq_ok_iff.mpr hshape, requireName_eq_ok_iff.mpr htag,
        decodeListAt_of_lookup hitems, hmembers.decode_eq, aggregateTag]
  | _, .placeholder kind _, .placeholder hshape htag => by
    cases kind <;>
      simp [decode, requireStr_eq_ok_iff.mpr hshape, requireStr_eq_ok_iff.mpr htag, placeholderTag,
        Except.map]

theorem DenotesMembers.decode_eq : {items : List Json} → {members : List (Member CType)} →
    DenotesMembers items members → ∀ {context : String}, decodeMembers context items = .ok members
  | _, _, .nil, _ => rfl
  | _, _, .cons hname hj ht hrest, context => by
    simp [decodeMembers, requireName_eq_ok_iff.mpr hname, decodeAt_of_lookup hj, ht.decode_eq,
      hrest.decode_eq, Except.map]

end

mutual

theorem denotes_of_decode : (d : Json) → ∀ {t : CType}, decode d = .ok t → Denotes d t
  | .str name, t, h => by
    rw [decode] at h
    split at h
    · next hname =>
      obtain rfl := Except.ok.inj h
      exact .name hname
    · cases h
  | .obj obj, t, h => by
    cases reads_of_decode h with
    | pointer hshape hbase =>
      obtain ⟨j, hj, hbase⟩ := denotes_of_decodeAt _ _ obj hbase
      exact .pointer (requireStr_eq_ok_iff.mp hshape) hj hbase
    | array hshape hbase hdim =>
      obtain ⟨j, hj, hbase⟩ := denotes_of_decodeAt _ _ obj hbase
      exact .array (requireStr_eq_ok_iff.mp hshape) hj hbase (requireDim_eq_ok_iff.mp hdim)
    | func hshape hvariadic hparams hret =>
      obtain ⟨items, hitems, hparams⟩ := denotes_of_decodeListAt _ _ obj hparams
      obtain ⟨j, hj, hret⟩ := denotes_of_decodeAt _ _ obj hret
      exact .func (requireStr_eq_ok_iff.mp hshape) (requireVariadic_eq_ok_iff.mp hvariadic) hitems
        hparams hj hret
    | enum hshape htag hvalues =>
      exact .enum (requireStr_eq_ok_iff.mp hshape) (requireName_eq_ok_iff.mp htag)
        (requireValues_eq_ok_iff.mp hvalues)
    | aggregate hshape htag hmembers =>
      obtain ⟨items, hitems, hmembers⟩ := denotes_of_decodeListAt _ _ obj hmembers
      exact .aggregate (requireStr_eq_ok_iff.mp hshape) (requireName_eq_ok_iff.mp htag) hitems
        hmembers
    | placeholder hshape htag =>
      exact .placeholder (requireStr_eq_ok_iff.mp hshape) (requireStr_eq_ok_iff.mp htag)

theorem denotes_of_decodeAt (key context : String) : (obj : List (String × Json)) →
    ∀ {t : CType}, decodeAt key context obj = .ok t →
    ∃ j, Json.lookup key obj = some j ∧ Denotes j t
  | (k, j) :: obj, t, h => by
    rw [decodeAt] at h
    rw [Json.lookup_cons]
    split at h
    · next hk => exact ⟨j, if_pos hk, denotes_of_decode j h⟩
    · next hk =>
      rw [if_neg hk]
      exact denotes_of_decodeAt key context obj h

theorem denotes_of_decodeListAt (key context : String) : (obj : List (String × Json)) →
    ∀ {members : List (Member CType)}, decodeListAt key context obj = .ok members →
    ∃ items, Json.lookup key obj = some (.arr items) ∧ DenotesMembers items members
  | (k, .arr items) :: obj, members, h => by
    rw [decodeListAt] at h
    rw [Json.lookup_cons]
    split at h
    · next hk => exact ⟨items, if_pos hk, denotes_of_decodeMembers context items h⟩
    · next hk =>
      rw [if_neg hk]
      exact denotes_of_decodeListAt key context obj h
  | (k, .null) :: obj, members, h | (k, .bool _) :: obj, members, h
  | (k, .num _) :: obj, members, h | (k, .str _) :: obj, members, h
  | (k, .obj _) :: obj, members, h => by
    simp only [decodeListAt] at h
    rw [Json.lookup_cons]
    split at h
    · cases h
    · next hk =>
      rw [if_neg hk]
      exact denotes_of_decodeListAt key context obj h

theorem denotes_of_decodeMembers (context : String) : (items : List Json) →
    ∀ {members : List (Member CType)}, decodeMembers context items = .ok members →
    DenotesMembers items members
  | [], members, h => by
    obtain rfl := Except.ok.inj h
    exact .nil
  | .obj entry :: items, members, h => by
    rw [decodeMembers] at h
    split at h
    · cases h
    · next hname =>
      split at h
      · cases h
      · next ht =>
        obtain ⟨rest, hrest, rfl⟩ := except_map_eq_ok.mp h
        obtain ⟨j, hj, ht⟩ := denotes_of_decodeAt "t" context entry ht
        exact .cons (requireName_eq_ok_iff.mp hname) hj ht
          (denotes_of_decodeMembers context items hrest)

end

/-- A document is read as the type that it is a document of. -/
theorem decode_eq_ok_iff : decode d = .ok t ↔ Denotes d t :=
  ⟨denotes_of_decode d, Denotes.decode_eq⟩

/-! ## Documents that are alike -/

theorem encodeName_eq_of_alike {name : Option String} {j : Json}
    (h : Json.Alike (encodeName name) j) : j = encodeName name := by
  cases name <;> cases h <;> rfl

theorem encodeDim_eq_of_alike {dim : Option UInt64} {j : Json}
    (h : Json.Alike (.opt (fun d => .nat d.toNat) dim) j) :
    j = .opt (fun d => .nat d.toNat) dim := by
  cases dim <;> cases h <;> rfl

mutual

theorem Denotes.alike : {d : Json} → {t : CType} → Denotes d t → ∀ {d' : Json}, d.Alike d' →
    Denotes d' t
  | _, _, .name hname, _, h => by
    obtain rfl := h.eq_of_str
    exact .name hname
  | _, _, .pointer hshape hj hbase, _, h => by
    obtain ⟨obj, rfl⟩ := h.exists_obj
    obtain ⟨j, hj, hbase'⟩ := h.lookup hj
    exact .pointer (h.lookup_str hshape) hj (hbase.alike hbase')
  | _, _, .array hshape hj hbase hdim, _, h => by
    obtain ⟨obj, rfl⟩ := h.exists_obj
    obtain ⟨j, hj, hbase'⟩ := h.lookup hj
    obtain ⟨v, hv, hdim'⟩ := h.lookup hdim
    obtain rfl := encodeDim_eq_of_alike hdim'
    exact .array (h.lookup_str hshape) hj (hbase.alike hbase') hv
  | _, _, .func hshape hvariadic hitems hparams hj hret, _, h => by
    obtain ⟨obj, rfl⟩ := h.exists_obj
    obtain ⟨v, hv, hvariadic'⟩ := h.lookup hvariadic
    obtain ⟨items, has, hparams'⟩ := h.lookup hitems
    obtain ⟨j, hj, hret'⟩ := h.lookup hj
    obtain ⟨items, rfl⟩ := hparams'.exists_arr
    cases hvariadic'
    exact .func (h.lookup_str hshape) hv has (hparams.alike hparams') hj (hret.alike hret')
  | _, _, .enum hshape htag hvalues, _, h => by
    obtain ⟨obj, rfl⟩ := h.exists_obj
    obtain ⟨n, hn, htag'⟩ := h.lookup htag
    obtain rfl := encodeName_eq_of_alike htag'
    exact .enum (h.lookup_str hshape) hn ((h.enumerators hshape).symm.trans hvalues)
  | _, _, .aggregate hshape htag hitems hmembers, _, h => by
    obtain ⟨obj, rfl⟩ := h.exists_obj
    obtain ⟨n, hn, htag'⟩ := h.lookup htag
    obtain rfl := encodeName_eq_of_alike htag'
    obtain ⟨items, hd, hmembers'⟩ := h.lookup hitems
    obtain ⟨items, rfl⟩ := hmembers'.exists_arr
    exact .aggregate (h.lookup_str hshape) hn hd (hmembers.alike hmembers')
  | _, _, .placeholder hshape htag, _, h => by
    obtain ⟨obj, rfl⟩ := h.exists_obj
    exact .placeholder (h.lookup_str hshape) (h.lookup_str htag)

theorem DenotesMembers.alike : {items : List Json} → {members : List (Member CType)} →
    DenotesMembers items members → ∀ {items' : List Json}, (Json.arr items).Alike (.arr items') →
    DenotesMembers items' members
  | _, _, .nil, _, h => by
    cases h
    exact .nil
  | _, _, .cons hname hj ht hrest, _, h => by
    obtain ⟨entry', items', rfl, hentry, hitems⟩ := h.exists_cons
    obtain ⟨entry, rfl⟩ := hentry.exists_obj
    obtain ⟨n, hn, hname'⟩ := hentry.lookup hname
    obtain rfl := encodeName_eq_of_alike hname'
    obtain ⟨j, hj, ht'⟩ := hentry.lookup hj
    exact .cons hn hj (ht.alike ht') (hrest.alike hitems)

end

end CType

end ForeignCall
