import ForeignCall.Json.Basic
import Mathlib.Data.List.Nodup

/-!
# ForeignCall.Proofs.Json.Members

The members of objects, and the numbers that documents hold without loss.

* `Json.Distinct` — each object of a document has each name once;
* `Json.distinct_put` — setting a member keeps the names of an object apart;
* `Json.int64?_eq_some_iff`, `Json.word?_eq_some_iff` — words are read of their own numbers only.
-/

namespace ForeignCall

/-- A document in which each object has each name once. -/
inductive Json.Distinct : Json → Prop
  | null : Distinct .null
  | bool (b : Bool) : Distinct (.bool b)
  | num (n : Json.Number) : Distinct (.num n)
  | str (s : String) : Distinct (.str s)
  | arr {items : List Json} (hitems : ∀ j ∈ items, Distinct j) : Distinct (.arr items)
  | obj {members : List (String × Json)} (hnames : (members.map (·.1)).Nodup)
    (hmembers : ∀ m ∈ members, Distinct m.2) : Distinct (.obj members)

namespace Json

theorem keys_put (members : List (String × Json)) (key : String) (value : Json) :
    (put members key value).map (·.1) =
      if key ∈ members.map (·.1) then members.map (·.1) else members.map (·.1) ++ [key] := by
  unfold put
  simp only [List.any_eq_true, decide_eq_true_eq, List.mem_map]
  split
  · rw [List.map_map]
    refine List.map_congr_left fun m _ => ?_
    by_cases hm : m.1 = key <;> simp [hm]
  · rw [List.map_append]
    rfl

theorem mem_put {members : List (String × Json)} {key : String} {value : Json} {m : String × Json}
    (h : m ∈ put members key value) : m = (key, value) ∨ m ∈ members := by
  unfold put at h
  split at h
  · obtain ⟨m', hm', rfl⟩ := List.mem_map.mp h
    split
    · exact .inl rfl
    · exact .inr hm'
  · rw [List.mem_append, List.mem_singleton] at h
    exact h.symm

theorem distinct_put {members : List (String × Json)} {key : String} {value : Json}
    (h : (obj members).Distinct) (hvalue : value.Distinct) :
    (obj (put members key value)).Distinct := by
  cases h with
  | obj hnames hmembers =>
    refine .obj ?_ fun m hm => ?_
    · rw [keys_put]
      split
      · exact hnames
      · next hnew =>
        rw [← List.concat_eq_append]
        exact List.Nodup.concat hnew hnames
    · rcases mem_put hm with rfl | hm
      · exact hvalue
      · exact hmembers m hm

theorem put_of_not_mem {members : List (String × Json)} {key : String}
    (h : key ∉ members.map (·.1)) (value : Json) :
    put members key value = members ++ [(key, value)] := by
  unfold put
  have hnone : members.any (·.1 = key) = false := by
    rw [List.any_eq_false]
    intro m hm heq
    exact h (List.mem_map.mpr ⟨m, hm, by simpa using heq⟩)
  rw [hnone]
  rfl

theorem lookup_nil (key : String) : lookup key [] = none := rfl

theorem lookup_cons (key k : String) (j : Json) (members : List (String × Json)) :
    lookup key ((k, j) :: members) = if k = key then some j else lookup key members := by
  by_cases hk : k = key <;> simp [lookup, hk]

/-! ## Numbers -/

theorem int64?_int (v : Int64) : (int v.toInt).int64? = some v := by
  have hrange : -(2 : Int) ^ 63 ≤ v.toInt ∧ v.toInt < 2 ^ 63 := ⟨v.le_toInt, v.toInt_lt⟩
  simp only [int, int64?, if_pos hrange, Int64.ofInt_toInt]

theorem word?_nat (d : UInt64) : (nat d.toNat).word? = some d := by
  have hrange : (0 : Int) ≤ d.toNat ∧ (d.toNat : Int) ≤ maxWord := by
    have := d.toNat_lt
    unfold maxWord
    omega
  simp only [nat, word?, if_pos hrange, Int.toNat_natCast, UInt64.ofNat_toNat]

theorem int64?_eq_some_iff {j : Json} {v : Int64} : j.int64? = some v ↔ j = int v.toInt := by
  constructor
  · intro h
    unfold int64? at h
    split at h
    · split at h
      · next n hn =>
        obtain rfl := Option.some.inj h
        rw [int, Int64.toInt_ofInt_of_le hn.1 hn.2]
      · exact nomatch h
    · exact nomatch h
  · rintro rfl
    exact int64?_int v

theorem word?_eq_some_iff {j : Json} {d : UInt64} : j.word? = some d ↔ j = nat d.toNat := by
  constructor
  · intro h
    unfold word? at h
    split at h
    · split at h
      · next n hn =>
        obtain rfl := Option.some.inj h
        have hlt : n.toNat < 2 ^ 64 := by
          unfold maxWord at hn
          omega
        have htoNat : (UInt64.ofNat n.toNat).toNat = n.toNat := UInt64.toNat_ofNat_of_lt' hlt
        rw [nat, htoNat, Int.toNat_of_nonneg hn.1]
      · exact nomatch h
    · exact nomatch h
  · rintro rfl
    exact word?_nat d

end Json

end ForeignCall
