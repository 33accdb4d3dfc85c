import ForeignCall.Proofs.CType.Reading
import Mathlib.Data.List.Induction

/-!
# ForeignCall.Proofs.CType.RoundTrip

Types that read back from their documents. The names of atomic types, of special types and of shapes
never stand for one another, so a document determines the type; only a sign of truth values and the
repetitions of an enumerator are not written.

* `CType.decode_encode` — a type that consists of plain types reads back;
* `CType.decode_encode_iff_plain` — no other type does, and no other type is ever read.
-/

namespace ForeignCall.CType

/-! ## Names -/

theorem decode_canonical : ∀ e ∈ atomicTypes, decode (.str e.1) = .ok e.2 := by
  decide +kernel

theorem eq_vaList_of_canonical :
    ∀ e ∈ atomicTypes, isSpecialName e.1 → e = ("va_list", vaList) := by
  decide +kernel

theorem decode_special (name : SpecialName) : decode (.str name.text) = .ok (.special name) := by
  cases hfind : atomicTypes.find? (·.1 = name.text) with
  | none =>
    have hcanonical : ofCanonical? name.text = none := by rw [ofCanonical?, hfind]; rfl
    have hname : SpecialName.ofString? name.text = some name := dif_pos name.valid
    simp [decode, ofName?, hcanonical, hname]
  | some e =>
    have hmem := List.mem_of_find?_eq_some hfind
    have htext : e.1 = name.text := by simpa using List.find?_some hfind
    -- the argument list is the only special type that has a canonical name
    obtain rfl := eq_vaList_of_canonical e hmem (htext ▸ name.valid)
    obtain rfl : name = .vaList := by
      cases name
      simp_all [SpecialName.vaList]
    exact decode_canonical _ hmem

/-! ## Enumerators -/

theorem encodeValues_concat (values : List (String × Int64)) (e : String × Int64) :
    encodeValues (values ++ [e]) = Json.put (encodeValues values) e.1 (.int e.2.toInt) := by
  simp [encodeValues]

theorem encodeValues_eq_map {values : List (String × Int64)} (h : (values.map (·.1)).Nodup) :
    encodeValues values = values.map fun e => (e.1, .int e.2.toInt) := by
  induction values using List.reverseRecOn with
  | nil => rfl
  | append_singleton values e ih =>
    rw [List.map_append, List.nodup_append] at h
    obtain ⟨hvalues, _, hapart⟩ := h
    have hnew : e.1 ∉ (values.map fun e => (e.1, Json.int e.2.toInt)).map (·.1) := by
      intro hmem
      rw [List.map_map] at hmem
      exact hapart _ hmem _ (by simp) rfl
    rw [encodeValues_concat, ih hvalues, Json.put_of_not_mem hnew, List.map_append]
    rfl

theorem decodeValues_map (values : List (String × Int64)) :
    decodeValues (values.map fun e => (e.1, .int e.2.toInt)) = .ok values := by
  induction values with
  | nil => rfl
  | cons e values ih => simp [decodeValues, Json.int64?_int, ih, Except.map]

/-! ## Reading what has been written -/

theorem decode_integral {kind : IntKind} {signed : Bool} (h : (integral kind signed).Plain) :
    decode (integral kind signed).encode = .ok (.integral kind signed) := by
  have hmem : (integralName kind signed, integral kind signed) ∈ atomicTypes := by
    cases kind with
    | bool =>
      obtain rfl : signed = false := h
      decide
    | _ => cases signed <;> decide
  exact decode_canonical _ hmem

theorem decode_floating (kind : FloatKind) :
    decode (floating kind).encode = .ok (.floating kind) := by
  have hmem : (kind.spelling, floating kind) ∈ atomicTypes := by cases kind <;> decide
  exact decode_canonical _ hmem

theorem decodeMembers_encodeMembers (context : String) {members : List (Member CType)}
    (h : ∀ m ∈ members, decode m.type.encode = .ok m.type) :
    decodeMembers context (encodeMembers members) = .ok members := by
  induction members with
  | nil => rfl
  | cons m members ih =>
    obtain ⟨name, t⟩ := m
    rw [List.forall_mem_cons] at h
    have hname : requireName context [("n", encodeName name), ("t", t.encode)] = .ok name := by
      cases name <;> rfl
    have ht : decodeAt "t" context [("n", encodeName name), ("t", t.encode)] = .ok t := by
      simp [decodeAt, h.1]
    rw [encodeMembers, decodeMembers, hname, ht, ih h.2]
    rfl

theorem decode_encode {t : CType} (h : ∀ u ∈ t.parts, u.Plain) : decode t.encode = .ok t := by
  induction t with
  | void => exact decode_canonical ("void", .void) (by decide)
  | special name => exact decode_special name
  | integral kind signed => exact decode_integral (h _ (self_mem_parts _))
  | floating kind => exact decode_floating kind
  | pointer base ih =>
    simp only [parts, List.forall_mem_cons] at h
    simp [encode, decode, requireStr, require, Json.lookup, decodeAt, ih h.2]
  | array base dim ih =>
    simp only [parts, List.forall_mem_cons] at h
    have hdim : requireDim [("t", .str "a"), ("b", base.encode),
        ("v", .opt (fun d => .nat d.toNat) dim)] = .ok dim := by
      cases dim with
      | none => rfl
      | some d =>
        have hword := Json.word?_nat d
        rw [Json.nat] at hword
        simp [requireDim, require, Json.lookup, Json.opt, Json.nat, hword]
    simp [encode, decode, requireStr, require, Json.lookup, decodeAt, ih h.2, hdim, Except.map]
  | aggregate kind tag members ih =>
    simp only [parts, List.forall_mem_cons, forall_memberParts] at h
    have hmembers := fun context =>
      decodeMembers_encodeMembers context fun m hm => ih m hm (h.2 m hm)
    cases kind <;> cases tag <;>
      simp [encode, decode, requireStr, requireName, require, Json.lookup, Json.opt, encodeName,
        aggregateTag, decodeListAt, hmembers]
  | placeholder kind tag =>
    cases kind <;>
      simp [encode, decode, requireStr, require, Json.lookup, placeholderTag, Except.map]
  | enum tag values =>
    have hvalues := encodeValues_eq_map (h _ (self_mem_parts _))
    cases tag <;>
      simp [encode, decode, requireStr, requireName, requireValues, require, Json.lookup, Json.opt,
        encodeName, hvalues, decodeValues_map, Except.map]
  | func params ret variadic ih ihret =>
    simp only [parts, List.forall_mem_cons, List.forall_mem_append, forall_memberParts] at h
    have hparams := decodeMembers_encodeMembers "function" fun m hm => ih m hm (h.2.1 m hm)
    simp [encode, decode, requireStr, requireVariadic, require, Json.lookup, decodeAt,
      decodeListAt, hparams, ihret h.2.2]

/-! ## Types that do not read back -/

theorem distinct_encodeName (name : Option String) : (encodeName name).Distinct := by
  cases name with
  | none => exact .null
  | some name => exact .str name

theorem distinct_encodeValues (values : List (String × Int64)) :
    (Json.obj (encodeValues values)).Distinct := by
  induction values using List.reverseRecOn with
  | nil => exact .obj (by simp [encodeValues]) (by simp [encodeValues])
  | append_singleton values e ih =>
    rw [encodeValues_concat]
    exact Json.distinct_put ih (.num _)

theorem distinct_encodeMembers {members : List (Member CType)}
    (h : ∀ m ∈ members, m.type.encode.Distinct) : ∀ j ∈ encodeMembers members, j.Distinct := by
  induction members with
  | nil => simp [encodeMembers]
  | cons m members ih =>
    obtain ⟨name, t⟩ := m
    rw [List.forall_mem_cons] at h
    rw [encodeMembers, List.forall_mem_cons]
    refine ⟨.obj (by simp) ?_, ih h.2⟩
    simpa using ⟨distinct_encodeName name, h.1⟩

theorem distinct_encode (t : CType) : t.encode.Distinct := by
  induction t with
  | void | special | integral | floating => exact .str _
  | pointer base ih =>
    refine .obj (by simp) ?_
    simpa using ⟨.str _, ih⟩
  | array base dim ih =>
    have hdim : (Json.opt (fun d : UInt64 => .nat d.toNat) dim).Distinct := by
      cases dim with
      | none => exact .null
      | some d => exact .num _
    refine .obj (by simp) ?_
    simpa using ⟨.str _, ih, hdim⟩
  | aggregate kind tag members ih =>
    refine .obj (by simp) ?_
    simpa using ⟨.str _, distinct_encodeName tag, .arr (distinct_encodeMembers ih)⟩
  | placeholder kind tag =>
    refine .obj (by simp) ?_
    simpa using ⟨.str _, .str _⟩
  | enum tag values =>
    refine .obj (by simp) ?_
    simpa using ⟨.str _, distinct_encodeName tag, distinct_encodeValues values⟩
  | func params ret variadic ih ihret =>
    refine .obj (by simp) ?_
    simpa using ⟨.str _, .bool _, .arr (distinct_encodeMembers ih), ihret⟩

theorem decode_encode_iff (t : CType) : decode t.encode = .ok t ↔ ∀ u ∈ t.parts, u.Plain :=
  ⟨plain_of_decode t.encode t.distinct_encode, decode_encode⟩

/-- **A type reads back from its document exactly when it consists of plain types**, and all types
that are read of documents do. -/
theorem decode_encode_iff_plain :
    (∀ t : CType, decode t.encode = .ok t ↔ ∀ u ∈ t.parts, u.Plain) ∧
      ∀ j : Json, j.Distinct → ∀ t, decode j = .ok t → ∀ u ∈ t.parts, u.Plain :=
  ⟨decode_encode_iff, fun j hj _ h => plain_of_decode j hj h⟩

/-- The document of a pointer to an enum, with a member that is ignored. -/
def pointerToEnum : Json :=
  .obj [("t", .str "p"), ("note", .null),
    ("b", .obj [("v", .obj [("B", .int 1), ("A", .int (-1))]), ("n", .null), ("t", .str "e")])]

theorem plain_pointerToEnum :
    pointerToEnum.Distinct ∧
      decode pointerToEnum = .ok (.pointer (.enum none [("B", 1), ("A", -1)])) ∧
      ∀ u ∈ (pointer (.enum none [("B", 1), ("A", -1)])).parts, u.Plain := by
  have hvalues : (Json.obj [("B", .int 1), ("A", .int (-1))]).Distinct := by
    refine .obj (by decide) ?_
    simpa using ⟨.num _, .num _⟩
  have hdistinct : pointerToEnum.Distinct := by
    refine .obj (by decide) ?_
    simpa using ⟨.str _, .null, .obj (by decide) (by simpa using ⟨hvalues, .null, .str _⟩)⟩
  have hdecode : decode pointerToEnum = .ok (.pointer (.enum none [("B", 1), ("A", -1)])) := by
    decide +kernel
  exact ⟨hdistinct, hdecode, decode_encode_iff_plain.2 pointerToEnum hdistinct _ hdecode⟩

end ForeignCall.CType
