import ForeignCall.CType.Document
import ForeignCall.Proofs.CType.Parts
import ForeignCall.Proofs.Json.Members
import ForeignCall.Proofs.Results

/-!
# ForeignCall.Proofs.CType.Reading

What can be read of a document. A type that is read has no signed type of truth values in it, for
which there is no name, and no enum with a repeated enumerator, because enumerators are the members
of an object.

* `CType.Plain` — a type that is neither of these two;
* `CType.Reads` — what is read of an object, by its shape;
* `CType.plain_of_decode` — every type that is read consists of plain types.
-/

namespace ForeignCall.CType

/-- Not a signed type of truth values, and not an enum with a repeated enumerator. -/
def Plain : CType → Prop
  | .integral .bool signed => signed = false
  | .enum _ values => (values.map (·.1)).Nodup
  | _ => True

instance : DecidablePred Plain
  | .integral .bool signed => inferInstanceAs (Decidable (signed = false))
  | .enum _ values => inferInstanceAs (Decidable (values.map (·.1)).Nodup)
  | .void | .special _ | .integral .char _ | .integral .short _ | .integral .int _
  | .integral .long _ | .integral .longLong _ | .floating _ | .pointer _ | .array ..
  | .aggregate .. | .placeholder .. | .func .. => isTrue trivial

/-! ## Objects -/

/-- The types that are read of an object, by its shape. -/
inductive Reads (obj : List (String × Json)) : CType → Prop
  | pointer {base : CType} (hshape : requireStr "t" "type object" obj = .ok "p")
    (hbase : decodeAt "b" "pointer" obj = .ok base) : Reads obj (.pointer base)
  | array {base : CType} {dim : Option UInt64}
    (hshape : requireStr "t" "type object" obj = .ok "a")
    (hbase : decodeAt "b" "array" obj = .ok base) (hdim : requireDim obj = .ok dim) :
    Reads obj (.array base dim)
  | func {params : List (Member CType)} {ret : CType} {variadic : Bool}
    (hshape : requireStr "t" "type object" obj = .ok "f")
    (hvariadic : requireVariadic obj = .ok variadic)
    (hparams : decodeListAt "as" "function" obj = .ok params)
    (hret : decodeAt "v" "function" obj = .ok ret) : Reads obj (.func params ret variadic)
  | enum {tag : Option String} {values : List (String × Int64)}
    (hshape : requireStr "t" "type object" obj = .ok "e")
    (htag : requireName "enum" obj = .ok tag) (hvalues : requireValues obj = .ok values) :
    Reads obj (.enum tag values)
  | aggregate {kind : TagKind} {tag : Option String} {members : List (Member CType)}
    (hshape : requireStr "t" "type object" obj = .ok (aggregateTag kind))
    (htag : requireName kind.keyword obj = .ok tag)
    (hmembers : decodeListAt "d" kind.keyword obj = .ok members) :
    Reads obj (.aggregate kind tag members)
  | placeholder {kind : TagKind} {tag : String}
    (hshape : requireStr "t" "type object" obj = .ok (placeholderTag kind))
    (htag : requireStr "n" ("opaque " ++ kind.keyword) obj = .ok tag) :
    Reads obj (.placeholder kind tag)

theorem reads_of_decode {obj : List (String × Json)} {t : CType} (h : decode (.obj obj) = .ok t) :
    Reads obj t := by
  rw [decode] at h
  split at h
  · cases h
  · next hshape =>
    split at h
    · cases h
    · next hbase =>
      obtain rfl := Except.ok.inj h
      exact .pointer hshape hbase
  · next hshape =>
    split at h
    · cases h
    · next hbase =>
      obtain ⟨dim, hdim, rfl⟩ := except_map_eq_ok.mp h
      exact .array hshape hbase hdim
  · next hshape =>
    split at h
    · cases h
    · next hvariadic =>
      split at h
      · cases h
      · next hparams =>
        split at h
        · cases h
        · next hret =>
          obtain rfl := Except.ok.inj h
          exact .func hshape hvariadic hparams hret
  · next hshape =>
    split at h
    · cases h
    · next htag =>
      obtain ⟨values, hvalues, rfl⟩ := except_map_eq_ok.mp h
      exact .enum hshape htag hvalues
  · next hshape =>
    split at h
    · cases h
    · next htag =>
      split at h
      · cases h
      · next hmembers =>
        obtain rfl := Except.ok.inj h
        exact .aggregate hshape htag hmembers
  · next hshape =>
    split at h
    · cases h
    · next htag =>
      split at h
      · cases h
      · next hmembers =>
        obtain rfl := Except.ok.inj h
        exact .aggregate hshape htag hmembers
  · next hshape =>
    obtain ⟨tag, htag, rfl⟩ := except_map_eq_ok.mp h
    exact .placeholder hshape htag
  · next hshape =>
    obtain ⟨tag, htag, rfl⟩ := except_map_eq_ok.mp h
    exact .placeholder hshape htag
  · cases h

theorem keys_of_decodeValues {members : List (String × Json)} {values : List (String × Int64)}
    (h : decodeValues members = .ok values) : values.map (·.1) = members.map (·.1) := by
  induction members generalizing values with
  | nil =>
    obtain rfl := Except.ok.inj h
    rfl
  | cons m members ih =>
    rw [decodeValues] at h
    split at h
    · cases h
    · obtain ⟨rest, hrest, rfl⟩ := except_map_eq_ok.mp h
      simp [ih hrest]

/-- An enumerator has its name once when the member of the document has. -/
theorem plain_of_requireValues {obj : List (String × Json)} {values : List (String × Int64)}
    (hobj : ∀ m ∈ obj, Json.Distinct m.2) (h : requireValues obj = .ok values) :
    (values.map (·.1)).Nodup := by
  unfold requireValues require Json.lookup at h
  cases hfind : obj.find? (·.1 = "v") with
  | none => simp [hfind] at h
  | some m =>
    have hm := hobj m (List.mem_of_find?_eq_some hfind)
    obtain ⟨key, j⟩ := m
    cases hm with
    | obj hnames hmembers =>
      simp only [hfind, Option.map_some] at h
      rw [keys_of_decodeValues h]
      exact hnames
    | _ => simp [hfind] at h

theorem plain_of_canonical : ∀ e ∈ atomicTypes, ∀ u ∈ e.2.parts, u.Plain := by
  decide

theorem plain_of_ofName? {name : String} {t : CType} (h : ofName? name = some t) :
    ∀ u ∈ t.parts, u.Plain := by
  unfold ofName? at h
  cases hcanonical : ofCanonical? name with
  | none =>
    rw [hcanonical] at h
    obtain ⟨special, _, rfl⟩ := Option.map_eq_some_iff.mp h
    simp [Plain]
  | some canonical =>
    rw [hcanonical] at h
    obtain rfl := Option.some.inj h
    obtain ⟨e, he, rfl⟩ := Option.map_eq_some_iff.mp hcanonical
    exact plain_of_canonical e (List.mem_of_find?_eq_some he)

mutual

theorem plain_of_decode : (j : Json) → j.Distinct → ∀ {t : CType}, decode j = .ok t →
    ∀ u ∈ t.parts, u.Plain
  | .str name, _, t, h => by
    rw [decode] at h
    split at h
    · next hname =>
      obtain rfl := Except.ok.inj h
      exact plain_of_ofName? hname
    · cases h
  | .obj obj, .obj _ hobj, t, h => by
    cases reads_of_decode h with
    | pointer _ hbase =>
      have hparts := plain_of_decodeAt _ _ obj hobj hbase
      simpa [Plain] using hparts
    | array _ hbase _ =>
      have hparts := plain_of_decodeAt _ _ obj hobj hbase
      simpa [Plain] using hparts
    | func _ _ hparams hret =>
      have hparams := plain_of_decodeListAt _ _ obj hobj hparams
      have hret := plain_of_decodeAt _ _ obj hobj hret
      simp only [parts, List.forall_mem_cons, List.forall_mem_append, forall_memberParts]
      exact ⟨trivial, hparams, hret⟩
    | enum _ _ hvalues =>
      have hnodup := plain_of_requireValues hobj hvalues
      simpa [Plain] using hnodup
    | aggregate _ _ hmembers =>
      have hmembers := plain_of_decodeListAt _ _ obj hobj hmembers
      simp only [parts, List.forall_mem_cons, forall_memberParts]
      exact ⟨trivial, hmembers⟩
    | placeholder _ _ => simp [Plain]

theorem plain_of_decodeAt (key context : String) : (obj : List (String × Json)) →
    (∀ m ∈ obj, Json.Distinct m.2) → ∀ {t : CType}, decodeAt key context obj = .ok t →
    ∀ u ∈ t.parts, u.Plain
  | (k, j) :: obj, hobj, t, h => by
    rw [List.forall_mem_cons] at hobj
    rw [decodeAt] at h
    split at h
    · exact plain_of_decode j hobj.1 h
    · exact plain_of_decodeAt key context obj hobj.2 h

theorem plain_of_decodeListAt (key context : String) : (obj : List (String × Json)) →
    (∀ m ∈ obj, Json.Distinct m.2) → ∀ {members : List (Member CType)},
    decodeListAt key context obj = .ok members → ∀ m ∈ members, ∀ u ∈ m.type.parts, u.Plain
  | (k, .arr items) :: obj, hobj, members, h => by
    rw [List.forall_mem_cons] at hobj
    rw [decodeListAt] at h
    split at h
    · cases hobj.1 with
      | arr hitems => exact plain_of_decodeMembers context items hitems h
    · exact plain_of_decodeListAt key context obj hobj.2 h
  | (_, .null) :: obj, hobj, members, h | (_, .bool _) :: obj, hobj, members, h
  | (_, .num _) :: obj, hobj, members, h | (_, .str _) :: obj, hobj, members, h
  | (_, .obj _) :: obj, hobj, members, h => by
    rw [List.forall_mem_cons] at hobj
    simp only [decodeListAt] at h
    split at h
    · cases h
    · exact plain_of_decodeListAt key context obj hobj.2 h

theorem plain_of_decodeMembers (context : String) : (items : List Json) →
    (∀ j ∈ items, j.Distinct) → ∀ {members : List (Member CType)},
    decodeMembers context items = .ok members → ∀ m ∈ members, ∀ u ∈ m.type.parts, u.Plain
  | [], _, members, h => by
    obtain rfl := Except.ok.inj h
    simp
  | .obj entry :: items, hitems, members, h => by
    rw [List.forall_mem_cons] at hitems
    rw [decodeMembers] at h
    split at h
    · cases h
    · split at h
      · cases h
      · next ht =>
        obtain ⟨rest, hrest, rfl⟩ := except_map_eq_ok.mp h
        rw [List.forall_mem_cons]
        cases hitems.1 with
        | obj _ hentry =>
          exact ⟨plain_of_decodeAt "t" context entry hentry ht,
            plain_of_decodeMembers context items hitems.2 hrest⟩

end

end ForeignCall.CType
