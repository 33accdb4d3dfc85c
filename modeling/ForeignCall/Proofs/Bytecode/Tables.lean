import ForeignCall.Proofs.Program.Meaning
import Mathlib.Data.Finset.Card
import Mathlib.Data.List.Nodup

/-!
# ForeignCall.Proofs.Bytecode.Tables

The tables of constants and functions without their limit. An entry is added at the end unless the
table holds one with the same key, so a table holds every key once, in the order of first use, and
an index stays valid when the table grows.

* `internConstant_ok_iff`, `internFunction_ok_iff` — interning adds an entry and gives its index,
  exactly as long as the table fits an operand byte;
* `length_addAll_nil` — how many entries a table has: as many as there are distinct keys.
-/

namespace ForeignCall

/-! ## Lists with one entry for each key -/

section AppendNew

variable {α κ : Type} [DecidableEq κ]

/-- Adds an entry at the end, unless there is one with its key. -/
def appendNew (key : α → κ) (entries : List α) (a : α) : List α :=
  if key a ∈ entries.map key then entries else entries ++ [a]

/-- The index of the first entry with the key of another. -/
def indexOfKey (key : α → κ) (entries : List α) (a : α) : Nat :=
  entries.findIdx fun e => key e = key a

theorem mem_appendNew {key : α → κ} {entries : List α} {a e : α}
    (h : e ∈ appendNew key entries a) : e ∈ entries ∨ e = a := by
  unfold appendNew at h
  split at h
  · exact .inl h
  · simpa using h

/-- Entries keep their places. -/
theorem prefix_appendNew (key : α → κ) (entries : List α) (a : α) :
    entries <+: appendNew key entries a := by
  unfold appendNew
  split
  · exact List.prefix_rfl
  · exact List.prefix_append entries [a]

/-- The keys afterwards are those before and the new one. -/
theorem keys_appendNew (key : α → κ) (entries : List α) (a : α) :
    ((appendNew key entries a).map key).toFinset = insert (key a) (entries.map key).toFinset := by
  unfold appendNew
  split
  · next h => rw [Finset.insert_eq_self.2 (List.mem_toFinset.2 h)]
  · rw [List.map_append, List.toFinset_append, List.map_singleton, List.toFinset_cons,
      List.toFinset_nil, insert_empty_eq, Finset.union_comm, Finset.insert_eq]

/-- Every key stays the key of one entry only. -/
theorem nodup_appendNew {key : α → κ} {entries : List α} (h : (entries.map key).Nodup) (a : α) :
    ((appendNew key entries a).map key).Nodup := by
  unfold appendNew
  split
  · exact h
  · next hnew =>
    rw [List.map_append, List.map_singleton, List.nodup_append_comm]
    exact List.nodup_cons.2 ⟨hnew, h⟩

/-- The entry at the index of a key has this key. -/
theorem getElem?_indexOfKey (key : α → κ) (entries : List α) (a : α) :
    ∃ e, (appendNew key entries a)[indexOfKey key (appendNew key entries a) a]? = some e ∧
      key e = key a := by
  have hmem : key a ∈ (appendNew key entries a).map key := by
    rw [← List.mem_toFinset, keys_appendNew]
    exact Finset.mem_insert_self _ _
  obtain ⟨e, he, hkey⟩ := List.mem_map.1 hmem
  have hlt : indexOfKey key (appendNew key entries a) a < (appendNew key entries a).length :=
    List.findIdx_lt_length_of_exists ⟨e, he, by simpa using hkey⟩
  exact ⟨_, List.getElem?_eq_getElem hlt, of_decide_eq_true (List.findIdx_getElem (w := hlt))⟩

/-- Looking a key up before it is added: it is found at its index, or it will be the last. -/
theorem findIdx?_key (key : α → κ) (entries : List α) (a : α) :
    entries.findIdx? (fun e => key e = key a) =
      if key a ∈ entries.map key then some (indexOfKey key (appendNew key entries a) a)
      else none := by
  split
  · next h =>
    obtain ⟨e, he, hkey⟩ := List.mem_map.1 h
    rw [appendNew, if_pos h, indexOfKey, List.findIdx?_eq_guard_findIdx_lt]
    have hlt : entries.findIdx (fun e => key e = key a) < entries.length :=
      List.findIdx_lt_length_of_exists ⟨e, he, by simpa using hkey⟩
    simp [hlt]
  · next h =>
    rw [List.findIdx?_eq_none_iff]
    intro e he
    simpa using fun hkey => h (List.mem_map.2 ⟨e, he, hkey⟩)

/-- A new key gets the index behind all others. -/
theorem indexOfKey_of_not_mem {key : α → κ} {entries : List α} {a : α}
    (h : key a ∉ entries.map key) :
    indexOfKey key (appendNew key entries a) a = entries.length := by
  have hnone : entries.findIdx (fun e => key e = key a) = entries.length := by
    rw [List.findIdx_eq_length]
    intro e he
    simpa using fun hkey => h (List.mem_map.2 ⟨e, he, hkey⟩)
  rw [appendNew, if_neg h, indexOfKey, List.findIdx_append, hnone]
  simp

/-- Adds entries in order. -/
def addAll (key : α → κ) (entries new : List α) : List α := new.foldl (appendNew key) entries

theorem addAll_append (key : α → κ) (entries xs ys : List α) :
    addAll key entries (xs ++ ys) = addAll key (addAll key entries xs) ys :=
  List.foldl_append

theorem prefix_addAll (key : α → κ) (entries new : List α) : entries <+: addAll key entries new := by
  induction new generalizing entries with
  | nil => exact List.prefix_rfl
  | cons a new ih => exact (prefix_appendNew key entries a).trans (ih _)

theorem keys_addAll (key : α → κ) (entries new : List α) :
    ((addAll key entries new).map key).toFinset =
      (entries.map key).toFinset ∪ (new.map key).toFinset := by
  induction new generalizing entries with
  | nil => simp [addAll]
  | cons a new ih =>
    change ((addAll key (appendNew key entries a) new).map key).toFinset = _
    rw [ih, keys_appendNew, List.map_cons, List.toFinset_cons, Finset.insert_union,
      Finset.union_insert]

theorem nodup_addAll {key : α → κ} {entries : List α} (h : (entries.map key).Nodup)
    (new : List α) : ((addAll key entries new).map key).Nodup := by
  induction new generalizing entries with
  | nil => exact h
  | cons a new ih => exact ih (nodup_appendNew h a)

/-- A table has as many entries as there are keys. -/
theorem length_addAll_nil (key : α → κ) (new : List α) :
    (addAll key [] new).length = (new.map key).toFinset.card := by
  have hkeys := keys_addAll key [] new
  rw [List.map_nil, List.toFinset_nil, Finset.empty_union] at hkeys
  have hnodup : ((addAll key [] new).map key).Nodup := nodup_addAll (by simp) new
  rw [← hkeys, List.toFinset_card_of_nodup hnodup, List.length_map]

/-! ## Interning one entry -/

/-- How many entries an operand byte can count. -/
def tableLimit : Nat := 256

/-- A count is an operand byte up to 255. -/
theorem operandByte_ok_iff {n : Nat} {what : String} {b : UInt8} :
    operandByte n what = .ok b ↔ n ≤ 255 ∧ b = UInt8.ofNat n := by
  unfold operandByte
  split
  · next h => simp [h, eq_comm]
  · next h => simp [h]

/-- The index of an entry, which is added if its key is new. -/
def internEntry (key : α → κ) (what : String) (entries : List α) (a : α) :
    Except CompileError (UInt8 × List α) :=
  match entries.findIdx? fun e => key e = key a with
  | some i => .ok (UInt8.ofNat i, entries)
  | none => (operandByte entries.length what).map fun i => (i, entries ++ [a])

/-- Interning adds the entry and gives its index, as long as the list fits an operand byte. -/
theorem internEntry_ok_iff {key : α → κ} {what : String} {entries entries' : List α} {a : α}
    {i : UInt8} (hfits : entries.length ≤ tableLimit) :
    internEntry key what entries a = .ok (i, entries') ↔
      entries' = appendNew key entries a ∧ entries'.length ≤ tableLimit ∧
        i = UInt8.ofNat (indexOfKey key entries' a) := by
  unfold internEntry
  rw [findIdx?_key]
  by_cases h : key a ∈ entries.map key
  · have hsame : appendNew key entries a = entries := if_pos h
    rw [if_pos h, hsame]
    simp only [Except.ok.injEq, Prod.mk.injEq]
    constructor
    · rintro ⟨rfl, rfl⟩
      exact ⟨rfl, hfits, rfl⟩
    · rintro ⟨rfl, _, rfl⟩
      exact ⟨rfl, rfl⟩
  · have hnew : appendNew key entries a = entries ++ [a] := if_neg h
    have hindex := indexOfKey_of_not_mem h
    rw [hnew] at hindex
    rw [if_neg h, hnew]
    simp only [except_map_eq_ok, operandByte_ok_iff, Prod.mk.injEq]
    constructor
    · rintro ⟨b, ⟨hle, rfl⟩, rfl, rfl⟩
      exact ⟨rfl, by simp [tableLimit]; omega, by rw [hindex]⟩
    · rintro ⟨rfl, hle, rfl⟩
      refine ⟨_, ⟨?_, rfl⟩, by rw [hindex], rfl⟩
      simp [tableLimit] at hle
      omega

end AppendNew

/-! ## Tables without a limit -/

namespace Tables

/-- All entries of both tables have an index that is a byte. -/
def Fits (t : Tables) : Prop :=
  t.constants.length ≤ tableLimit ∧ t.functions.length ≤ tableLimit

/-- The tables with a constant, which is added if it is new. -/
def withConstant (t : Tables) (c : Constant) : Tables :=
  { t with constants := appendNew id t.constants c }

/-- The tables with a function, which is added if its key is new. -/
def withFunction (t : Tables) (f : Function) : Tables :=
  { t with functions := appendNew Function.key t.functions f }

/-- The entries of one pair of tables are those of another at the same places, and maybe more. -/
def Within (t t' : Tables) : Prop :=
  t.constants <+: t'.constants ∧ t.functions <+: t'.functions

theorem Within.refl (t : Tables) : t.Within t := ⟨List.prefix_rfl, List.prefix_rfl⟩

theorem Within.trans {t t' t'' : Tables} (h : t.Within t') (h' : t'.Within t'') : t.Within t'' :=
  ⟨h.1.trans h'.1, h.2.trans h'.2⟩

/-- Smaller tables fit if larger ones do. -/
theorem Within.fits {t t' : Tables} (h : t.Within t') (hfits : t'.Fits) : t.Fits :=
  ⟨h.1.length_le.trans hfits.1, h.2.length_le.trans hfits.2⟩

theorem within_withConstant (t : Tables) (c : Constant) : t.Within (t.withConstant c) :=
  ⟨prefix_appendNew id t.constants c, List.prefix_rfl⟩

theorem within_withFunction (t : Tables) (f : Function) : t.Within (t.withFunction f) :=
  ⟨List.prefix_rfl, prefix_appendNew Function.key t.functions f⟩

/-- Tables that fit, with functions of which something holds. -/
structure Sound (Q : Function → Prop) (t : Tables) : Prop where
  fits : t.Fits
  functions : ∀ f ∈ t.functions, Q f

/-- Sound tables become larger ones that are sound. -/
def GrowsTo (Q : Function → Prop) (t t' : Tables) : Prop := t.Sound Q → t.Within t' ∧ t'.Sound Q

theorem GrowsTo.refl (Q : Function → Prop) (t : Tables) : t.GrowsTo Q t := fun h => ⟨.refl t, h⟩

theorem GrowsTo.trans {Q : Function → Prop} {t t' t'' : Tables} (h : t.GrowsTo Q t')
    (h' : t'.GrowsTo Q t'') : t.GrowsTo Q t'' := fun hsound => by
  obtain ⟨hwithin, hsound'⟩ := h hsound
  obtain ⟨hwithin', hsound''⟩ := h' hsound'
  exact ⟨hwithin.trans hwithin', hsound''⟩

theorem sound_empty (Q : Function → Prop) : empty.Sound Q :=
  ⟨⟨Nat.zero_le _, Nat.zero_le _⟩, fun _ h => absurd h (List.not_mem_nil)⟩

/-- Interning a constant adds it and gives its index, as long as the tables fit. -/
theorem internConstant_ok_iff {t t' : Tables} {c : Constant} {i : UInt8} (ht : t.Fits) :
    t.internConstant c = .ok (i, t') ↔
      t' = t.withConstant c ∧ t'.Fits ∧ i = UInt8.ofNat (indexOfKey id t'.constants c) := by
  have heq : t.internConstant c = (internEntry id "constants" t.constants c).map
      fun e => (e.1, { t with constants := e.2 }) := by
    unfold internConstant internEntry
    simp only [id]
    cases t.constants.findIdx? (· = c) with
    | some i => rfl
    | none => cases operandByte t.constants.length "constants" <;> rfl
  rw [heq]
  simp only [except_map_eq_ok, Prod.exists, internEntry_ok_iff ht.1]
  constructor
  · rintro ⟨_, _, ⟨rfl, hle, rfl⟩, h⟩
    obtain ⟨rfl, rfl⟩ := Prod.mk.inj h
    exact ⟨rfl, ⟨hle, ht.2⟩, rfl⟩
  · rintro ⟨rfl, hfits, rfl⟩
    exact ⟨_, _, ⟨rfl, hfits.1, rfl⟩, rfl⟩

/-- Interning a function adds it and gives its index, as long as the tables fit. -/
theorem internFunction_ok_iff {t t' : Tables} {f : Function} {i : UInt8} (ht : t.Fits) :
    t.internFunction f = .ok (i, t') ↔
      t' = t.withFunction f ∧ t'.Fits ∧
        i = UInt8.ofNat (indexOfKey Function.key t'.functions f) := by
  have heq : t.internFunction f = (internEntry Function.key "functions" t.functions f).map
      fun e => (e.1, { t with functions := e.2 }) := by
    unfold internFunction internEntry
    cases t.functions.findIdx? (·.key = f.key) with
    | some i => rfl
    | none => cases operandByte t.functions.length "functions" <;> rfl
  rw [heq]
  simp only [except_map_eq_ok, Prod.exists, internEntry_ok_iff ht.2]
  constructor
  · rintro ⟨_, _, ⟨rfl, hle, rfl⟩, h⟩
    obtain ⟨rfl, rfl⟩ := Prod.mk.inj h
    exact ⟨rfl, ⟨ht.1, hle⟩, rfl⟩
  · rintro ⟨rfl, hfits, rfl⟩
    exact ⟨_, _, ⟨rfl, hfits.2, rfl⟩, rfl⟩

theorem growsTo_of_internConstant {Q : Function → Prop} {t t' : Tables} {c : Constant} {i : UInt8}
    (h : t.internConstant c = .ok (i, t')) : t.GrowsTo Q t' := fun hsound => by
  obtain ⟨rfl, hfits', _⟩ := (internConstant_ok_iff hsound.fits).1 h
  exact ⟨t.within_withConstant c, hfits', hsound.functions⟩

theorem growsTo_of_internFunction {Q : Function → Prop} {t t' : Tables} {f : Function} {i : UInt8}
    (h : t.internFunction f = .ok (i, t')) (hf : Q f) : t.GrowsTo Q t' := fun hsound => by
  obtain ⟨rfl, hfits', _⟩ := (internFunction_ok_iff hsound.fits).1 h
  refine ⟨t.within_withFunction f, hfits', fun g hg => ?_⟩
  rcases mem_appendNew hg with hg | rfl
  · exact hsound.functions g hg
  · exact hf

/-- An index of a table that fits is the number that its byte stands for. -/
theorem toNat_ofNat_index {α : Type} {entries : List α} {n : Nat} {e : α}
    (hle : entries.length ≤ tableLimit) (h : entries[n]? = some e) :
    (UInt8.ofNat n).toNat = n := by
  have hlt : n < entries.length := (List.getElem?_eq_some_iff.1 h).1
  have hlimit : n < 2 ^ 8 := lt_of_lt_of_le hlt hle
  rw [UInt8.toNat_ofNat', Nat.mod_eq_of_lt hlimit]

/-- An entry has its index in all longer lists too. -/
theorem getElem?_of_isPrefix {α : Type} {xs ys : List α} {n : Nat} {a : α} (h : xs <+: ys)
    (ha : xs[n]? = some a) : ys[n]? = some a := by
  obtain ⟨zs, rfl⟩ := h
  rw [List.getElem?_append_left (List.getElem?_eq_some_iff.1 ha).1, ha]

/-- The index of a constant leads to the constant, in all larger tables too. -/
theorem getElem?_of_internConstant {t t' T : Tables} {c : Constant} {i : UInt8}
    (h : t.internConstant c = .ok (i, t')) (hfits : t.Fits) (hT : t'.Within T) :
    T.constants[i.toNat]? = some c := by
  obtain ⟨rfl, hfits', rfl⟩ := (internConstant_ok_iff hfits).1 h
  have hc : (t.withConstant c).constants[indexOfKey id (t.withConstant c).constants c]? =
      some c := by
    obtain ⟨e, he, rfl⟩ := getElem?_indexOfKey id t.constants c
    exact he
  rw [toNat_ofNat_index hfits'.1 hc]
  exact getElem?_of_isPrefix hT.1 hc

/-- The index of a function leads to a function with its key, in all larger tables too. -/
theorem getElem?_of_internFunction {t t' T : Tables} {f : Function} {i : UInt8}
    (h : t.internFunction f = .ok (i, t')) (hfits : t.Fits) (hT : t'.Within T) :
    ∃ g ∈ t'.functions, T.functions[i.toNat]? = some g ∧ g.key = f.key := by
  obtain ⟨rfl, hfits', rfl⟩ := (internFunction_ok_iff hfits).1 h
  have hf : ∃ g, (t.withFunction f).functions[indexOfKey Function.key
      (t.withFunction f).functions f]? = some g ∧ g.key = f.key :=
    getElem?_indexOfKey Function.key t.functions f
  obtain ⟨g, hg, hkey⟩ := hf
  refine ⟨g, List.mem_of_getElem? hg, ?_, hkey⟩
  rw [toNat_ofNat_index hfits'.2 hg]
  exact getElem?_of_isPrefix hT.2 hg

end Tables

end ForeignCall
