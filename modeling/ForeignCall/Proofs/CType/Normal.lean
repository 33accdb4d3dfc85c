import ForeignCall.Proofs.CType.Documents

/-!
# ForeignCall.Proofs.CType.Normal

What of a document counts. A document may have members that its shape does not name, and have its
members in any order; neither is in the document that is written for the type. All else is kept, so
two documents are read as the same type only if they agree in all else.

* `CType.pruned` — a document without the members that its shape does not name;
* `CType.Denotes.alike_pruned` — the document that is written for a type is a pruned document;
* `CType.encode_normalises` — what is written for the type of a document, and when two documents
  have the same type.
-/

namespace ForeignCall.CType

/-! ## Pruned documents -/

/-- What a member holds: a document of a type, documents of members or parameters, or else. -/
inductive Content where
  | plain
  | type
  | members
deriving DecidableEq

/-- The members that an object may have, with their contents. -/
abbrev Format := List (String × Content)

/-- The members of a shape. -/
def shapeFormat : String → Format
  | "p" => [("t", .plain), ("b", .type)]
  | "a" => [("t", .plain), ("b", .type), ("v", .plain)]
  | "f" => [("t", .plain), ("va", .plain), ("as", .members), ("v", .type)]
  | "e" => [("t", .plain), ("n", .plain), ("v", .plain)]
  | "s" | "u" => [("t", .plain), ("n", .plain), ("d", .members)]
  | "os" | "ou" => [("t", .plain), ("n", .plain)]
  | _ => []

/-- The members of the document of a type, by its tag. -/
def typeFormat (obj : List (String × Json)) : Format :=
  match Json.lookup "t" obj with
  | some (.str tag) => shapeFormat tag
  | _ => []

/-- The members of the document of a member or parameter. -/
def memberFormat : Format := [("n", .plain), ("t", .type)]

mutual

/-- The document of a type without the members that its shape does not name, at any depth. -/
def pruned : Json → Json
  | .obj obj => .obj (prunedObject (typeFormat obj) obj)
  | j => j

/-- The members of an object that a format names, pruned by their contents. -/
def prunedObject (format : Format) : List (String × Json) → List (String × Json)
  | [] => []
  | (key, j) :: obj =>
    match format.lookup key with
    | none => prunedObject format obj
    | some .plain => (key, j) :: prunedObject format obj
    | some .type => (key, pruned j) :: prunedObject format obj
    | some .members => (key, prunedMembers j) :: prunedObject format obj

/-- The documents of members or parameters, pruned. -/
def prunedMembers : Json → Json
  | .arr items => .arr (prunedItems items)
  | j => j

/-- The documents of members or parameters, pruned one after another. -/
def prunedItems : List Json → List Json
  | [] => []
  | .obj entry :: items => .obj (prunedObject memberFormat entry) :: prunedItems items
  | j :: items => j :: prunedItems items

end

/-- What is left of the content of a member. -/
def Content.pruned : Content → Json → Json
  | .plain => id
  | .type => CType.pruned
  | .members => prunedMembers

theorem lookup_prunedObject (format : Format) (key : String) (obj : List (String × Json)) :
    Json.lookup key (prunedObject format obj) =
      (format.lookup key).bind fun content => (Json.lookup key obj).map content.pruned := by
  induction obj with
  | nil => simp [prunedObject, Json.lookup_nil]
  | cons m obj ih =>
    obtain ⟨k, j⟩ := m
    rw [Json.lookup_cons, prunedObject]
    cases hk : format.lookup k with
    | none =>
      by_cases hkey : k = key
      · subst hkey
        simp only [ih, hk, Option.bind_none]
      · simp only [ih, if_neg hkey]
    | some content =>
      by_cases hkey : k = key <;> cases content <;> simp_all [Json.lookup_cons, Content.pruned]

/-! ## Written documents -/

/-- A member that is written for the content of an object's member. -/
def Writes (obj : List (String × Json)) (field : String × Content) (member : String × Json) :
    Prop :=
  member.1 = field.1 ∧
    ∃ j, Json.lookup field.1 obj = some j ∧ member.2.Alike (field.2.pruned j)

variable {obj es : List (String × Json)} {format : Format}

theorem lookup_of_writes (h : List.Forall₂ (Writes obj) format es) (key : String) :
    (Json.lookup key es).isSome = (Json.lookup key (prunedObject format obj)).isSome ∧
      ∀ j k, Json.lookup key es = some j → Json.lookup key (prunedObject format obj) = some k →
        j.Alike k := by
  rw [lookup_prunedObject]
  induction h with
  | nil => simp [Json.lookup_nil]
  | @cons field member format es hfirst hrest ih =>
    obtain ⟨k, content⟩ := field
    obtain ⟨k', e⟩ := member
    obtain ⟨rfl, j, hj, halike⟩ := hfirst
    rw [Json.lookup_cons, List.lookup_cons]
    by_cases hkey : k' = key
    · subst hkey
      simp_all
    · have hne : (key == k') = false := beq_eq_false_iff_ne.mpr (Ne.symm hkey)
      simpa [hkey, hne] using ih

theorem alike_of_writes (h : List.Forall₂ (Writes obj) format es)
    (horder : Json.lookup "t" es = some (.str "e") →
      Json.lookup "v" es = Json.lookup "v" (prunedObject format obj)) :
    (Json.obj es).Alike (.obj (prunedObject format obj)) :=
  .members (fun key => (lookup_of_writes h key).1) (fun key => (lookup_of_writes h key).2) horder

theorem encode_of_canonicalName {name : String} {t : CType} (h : t.canonicalName = some name) :
    t.encode = .str name := by
  cases t <;> simp_all [canonicalName, encode]

theorem canonicalName_of_mem : ∀ e ∈ atomicTypes, e.2.canonicalName = some e.1 := by
  decide

/-- The name of a type is written again. -/
theorem encode_of_ofName? {name : String} {t : CType} (h : ofName? name = some t) :
    t.encode = .str name := by
  unfold ofName? at h
  cases hcanonical : ofCanonical? name with
  | none =>
    rw [hcanonical] at h
    obtain ⟨special, hspecial, rfl⟩ := Option.map_eq_some_iff.mp h
    unfold SpecialName.ofString? at hspecial
    split at hspecial
    · obtain rfl := Option.some.inj hspecial
      rfl
    · cases hspecial
  | some canonical =>
    rw [hcanonical] at h
    obtain rfl := Option.some.inj h
    obtain ⟨e, hfind, rfl⟩ := Option.map_eq_some_iff.mp hcanonical
    obtain rfl : e.1 = name := by simpa using List.find?_some hfind
    exact encode_of_canonicalName (canonicalName_of_mem e (List.mem_of_find?_eq_some hfind))

mutual

theorem Denotes.alike_pruned : {d : Json} → {t : CType} → Denotes d t →
    (∀ u ∈ t.parts, u.Plain) → t.encode.Alike (pruned d)
  | _, _, .name hname, _ => by
    rw [encode_of_ofName? hname]
    exact .same _
  | _, .pointer base, .pointer hshape hj hbase, hplain => by
    simp only [parts, List.forall_mem_cons] at hplain
    rw [encode, pruned, typeFormat, hshape]
    exact alike_of_writes (.cons ⟨rfl, _, hshape, .same _⟩
      (.cons ⟨rfl, _, hj, hbase.alike_pruned hplain.2⟩ .nil)) (by simp [Json.lookup_cons])
  | _, .array base dim, .array hshape hj hbase hdim, hplain => by
    simp only [parts, List.forall_mem_cons] at hplain
    rw [encode, pruned, typeFormat, hshape]
    exact alike_of_writes (.cons ⟨rfl, _, hshape, .same _⟩
      (.cons ⟨rfl, _, hj, hbase.alike_pruned hplain.2⟩ (.cons ⟨rfl, _, hdim, .same _⟩ .nil)))
      (by simp [Json.lookup_cons])
  | _, .func params ret variadic, .func hshape hvariadic hitems hparams hj hret, hplain => by
    simp only [parts, List.forall_mem_cons, List.forall_mem_append, forall_memberParts] at hplain
    rw [encode, pruned, typeFormat, hshape]
    exact alike_of_writes (.cons ⟨rfl, _, hshape, .same _⟩ (.cons ⟨rfl, _, hvariadic, .same _⟩
      (.cons ⟨rfl, _, hitems, hparams.alike_pruned hplain.2.1⟩
        (.cons ⟨rfl, _, hj, hret.alike_pruned hplain.2.2⟩ .nil)))) (by simp [Json.lookup_cons])
  | _, .enum tag values, .enum hshape htag hvalues, hplain => by
    have hdocument : Json.obj (encodeValues values) = valuesDocument values := by
      rw [encodeValues_eq_map (hplain _ (self_mem_parts _)), valuesDocument]
    rw [encode, pruned, typeFormat, hshape, hdocument]
    exact alike_of_writes (.cons ⟨rfl, _, hshape, .same _⟩ (.cons ⟨rfl, _, htag, .same _⟩
      (.cons ⟨rfl, _, hvalues, .same _⟩ .nil))) fun _ => by
        rw [lookup_prunedObject, hvalues]
        rfl
  | _, .aggregate kind tag members, .aggregate hshape htag hitems hmembers, hplain => by
    simp only [parts, List.forall_mem_cons, forall_memberParts] at hplain
    rw [encode, pruned, typeFormat, hshape]
    have hformat : shapeFormat (aggregateTag kind) =
        [("t", .plain), ("n", .plain), ("d", .members)] := by cases kind <;> rfl
    simp only [hformat]
    exact alike_of_writes (.cons ⟨rfl, _, hshape, .same _⟩ (.cons ⟨rfl, _, htag, .same _⟩
      (.cons ⟨rfl, _, hitems, hmembers.alike_pruned hplain.2⟩ .nil)))
      (by cases kind <;> simp [Json.lookup_cons, aggregateTag])
  | _, .placeholder kind tag, .placeholder hshape htag, _ => by
    rw [encode, pruned, typeFormat, hshape]
    have hformat : shapeFormat (placeholderTag kind) = [("t", .plain), ("n", .plain)] := by
      cases kind <;> rfl
    simp only [hformat]
    exact alike_of_writes (.cons ⟨rfl, _, hshape, .same _⟩ (.cons ⟨rfl, _, htag, .same _⟩ .nil))
      (by cases kind <;> simp [Json.lookup_cons, placeholderTag])

theorem DenotesMembers.alike_pruned : {items : List Json} → {members : List (Member CType)} →
    DenotesMembers items members → (∀ m ∈ members, ∀ u ∈ m.type.parts, u.Plain) →
    (Json.arr (encodeMembers members)).Alike (.arr (prunedItems items))
  | _, _, .nil, _ => .same _
  | _, _, .cons hname hj ht hrest, hplain => by
    rw [List.forall_mem_cons] at hplain
    rw [encodeMembers, prunedItems]
    refine .item (alike_of_writes (.cons ⟨rfl, _, hname, .same _⟩
      (.cons ⟨rfl, _, hj, ht.alike_pruned hplain.1⟩ .nil)) fun _ => ?_)
      (hrest.alike_pruned hplain.2)
    rw [lookup_prunedObject]
    rfl

end

/-- **What is written for the type of a document is the document without the members that its
shapes do not name**, with objects as maps. So two documents have the same type when they agree in
all other members. -/
theorem encode_normalises :
    (∀ d : Json, d.Distinct → ∀ t, decode d = .ok t → t.encode.Alike (pruned d)) ∧
      ∀ d d' : Json, d.Distinct → d'.Distinct → ∀ t t', decode d = .ok t → decode d' = .ok t' →
        (t = t' ↔ (pruned d).Alike (pruned d')) := by
  have hpruned (d : Json) (hd : d.Distinct) (t : CType) (h : decode d = .ok t) :
      t.encode.Alike (pruned d) :=
    (decode_eq_ok_iff.mp h).alike_pruned (plain_of_decode d hd h)
  refine ⟨hpruned, fun d d' hd hd' t t' h h' => ⟨?_, fun halike => ?_⟩⟩
  · rintro rfl
    exact (hpruned d hd t h).symm.trans (hpruned d' hd' t h')
  · have hencode : t.encode.Alike t'.encode :=
      ((hpruned d hd t h).trans halike).trans (hpruned d' hd' t' h').symm
    -- the document of the second type is one of the first type as well
    have hdenotes : Denotes t.encode t :=
      decode_eq_ok_iff.mp (decode_encode (plain_of_decode d hd h))
    have hread : decode t'.encode = .ok t := decode_eq_ok_iff.mpr (hdenotes.alike hencode)
    rw [decode_encode (plain_of_decode d' hd' h')] at hread
    exact (Except.ok.inj hread).symm

theorem encode_normalises_pointerToEnum :
    pointerToEnum.Distinct ∧
      decode pointerToEnum = .ok (.pointer (.enum none [("B", 1), ("A", -1)])) ∧
      (encode (.pointer (.enum none [("B", 1), ("A", -1)]))).Alike (pruned pointerToEnum) ∧
      (pruned pointerToEnum).Alike
        (pruned (encode (.pointer (.enum none [("B", 1), ("A", -1)])))) := by
  have hvalues : (Json.obj [("B", .int 1), ("A", .int (-1))]).Distinct := by
    refine .obj (by decide) ?_
    simpa using ⟨.num _, .num _⟩
  have hdistinct : pointerToEnum.Distinct := by
    refine .obj (by decide) ?_
    simpa using ⟨.str _, .null, .obj (by decide) (by simpa using ⟨hvalues, .null, .str _⟩)⟩
  have hdecode : decode pointerToEnum = .ok (.pointer (.enum none [("B", 1), ("A", -1)])) := by
    decide +kernel
  have hagain : decode (encode (.pointer (.enum none [("B", 1), ("A", -1)]))) =
      .ok (.pointer (.enum none [("B", 1), ("A", -1)])) := by
    decide +kernel
  exact ⟨hdistinct, hdecode, encode_normalises.1 _ hdistinct _ hdecode,
    (encode_normalises.2 _ _ hdistinct (distinct_encode _) _ _ hdecode hagain).mp rfl⟩

end ForeignCall.CType
