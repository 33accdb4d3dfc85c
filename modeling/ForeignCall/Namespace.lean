/-!
# ForeignCall.Namespace

A finite map from names to values whose entries are sorted by name, so that equal maps have equal
entries. Names are compared by code points.

* `get?_insert` — after an insertion the name has the new value, and every other name its old one.
-/

namespace ForeignCall

/-- Entries in strictly ascending order of their names. -/
def Ascending {α : Type} (entries : List (String × α)) : Prop :=
  entries.Pairwise fun a b => a.1 < b.1

/-- A finite map from names to values. -/
structure Namespace (α : Type) where
  entries : List (String × α)
  ascending : Ascending entries

namespace Namespace

variable {α : Type}

/-- Sets the value of a name in a sorted list of entries. -/
def insertEntry (name : String) (value : α) : List (String × α) → List (String × α)
  | [] => [(name, value)]
  | (n, v) :: es =>
    if name < n then (name, value) :: (n, v) :: es
    else if n < name then (n, v) :: insertEntry name value es
    else (name, value) :: es

/-- The names of the entries after an insertion. -/
theorem mem_insertEntry {name : String} {value : α} {es : List (String × α)} {e : String × α}
    (h : e ∈ insertEntry name value es) : e = (name, value) ∨ e ∈ es := by
  induction es with
  | nil => simp_all [insertEntry]
  | cons x es ih =>
    unfold insertEntry at h
    split at h
    · simp_all
    · split at h
      · rcases List.mem_cons.1 h with rfl | h
        · simp
        · rcases ih h with h | h <;> simp [h]
      · rcases List.mem_cons.1 h with rfl | h <;> simp_all

/-- Two names of which neither comes before the other are equal. -/
theorem eq_of_not_lt {a b : String} (h : ¬a < b) (h' : ¬b < a) : a = b :=
  String.le_antisymm (String.not_lt.1 h') (String.not_lt.1 h)

/-- An insertion keeps the order. -/
theorem ascending_insertEntry {name : String} {value : α} {es : List (String × α)}
    (h : Ascending es) : Ascending (insertEntry name value es) := by
  induction es with
  | nil => simp [insertEntry, Ascending]
  | cons x es ih =>
    obtain ⟨n, v⟩ := x
    have hx := List.pairwise_cons.1 h
    unfold insertEntry
    split
    · next hlt =>
      refine List.pairwise_cons.2 ⟨fun e he => ?_, h⟩
      rcases List.mem_cons.1 he with rfl | he
      · exact hlt
      · exact String.lt_trans hlt (hx.1 e he)
    · split
      · next hgt =>
        refine List.pairwise_cons.2 ⟨fun e he => ?_, ih hx.2⟩
        rcases mem_insertEntry he with rfl | he
        · exact hgt
        · exact hx.1 e he
      · next h₁ h₂ =>
        obtain rfl : name = n := eq_of_not_lt h₁ h₂
        exact List.pairwise_cons.2 hx

/-- The map without entries. -/
def empty : Namespace α := ⟨[], List.Pairwise.nil⟩

instance : Inhabited (Namespace α) := ⟨empty⟩

instance : EmptyCollection (Namespace α) := ⟨empty⟩

/-- Sets the value of a name. -/
def insert (ns : Namespace α) (name : String) (value : α) : Namespace α :=
  ⟨insertEntry name value ns.entries, ascending_insertEntry ns.ascending⟩

/-- The value of a name. -/
def get? (ns : Namespace α) (name : String) : Option α := ns.entries.lookup name

/-- Whether a name has a value. -/
def contains (ns : Namespace α) (name : String) : Bool := (ns.get? name).isSome

/-- The names, in ascending order. -/
def names (ns : Namespace α) : List String := ns.entries.map (·.1)

/-- The values, in the order of their names. -/
def values (ns : Namespace α) : List α := ns.entries.map (·.2)

/-- The map of a list of entries; the last entry of a name counts. -/
def ofList (entries : List (String × α)) : Namespace α :=
  entries.foldl (fun ns e => ns.insert e.1 e.2) empty

/-- The map with every value replaced. -/
def map {β : Type} (f : String → α → β) (ns : Namespace α) : Namespace β :=
  ⟨ns.entries.map fun e => (e.1, f e.1 e.2), by
    have h := ns.ascending
    unfold Ascending at h ⊢
    rw [List.pairwise_map]
    exact h⟩

/-- The entries that satisfy a condition. -/
def filter (keep : String → α → Bool) (ns : Namespace α) : Namespace α :=
  ⟨ns.entries.filter fun e => keep e.1 e.2, ns.ascending.filter _⟩

/-- How many names have a value. -/
def size (ns : Namespace α) : Nat := ns.entries.length

/-! ## Laws -/

/-- Maps with the same entries are equal. -/
@[ext] theorem ext {a b : Namespace α} (h : a.entries = b.entries) : a = b := by
  cases a; cases b; simp_all

instance [DecidableEq α] : DecidableEq (Namespace α) := fun a b =>
  if h : a.entries = b.entries then isTrue (ext h) else isFalse fun e => h (e ▸ rfl)

/-- Looking a name up in a list that starts with an entry. -/
theorem lookup_cons_eq (key n : String) (v : α) (es : List (String × α)) :
    List.lookup key ((n, v) :: es) = if key = n then some v else es.lookup key := by
  by_cases h : key = n
  · simp [h]
  · simp [List.lookup_cons, h, beq_eq_false_iff_ne.2 h]

/-- Looking a name up after an insertion into a list. -/
theorem lookup_insertEntry (name key : String) (value : α) (es : List (String × α)) :
    (insertEntry name value es).lookup key = if key = name then some value else es.lookup key := by
  induction es with
  | nil => simp [insertEntry, lookup_cons_eq]
  | cons x es ih =>
    obtain ⟨n, v⟩ := x
    unfold insertEntry
    split
    · simp [lookup_cons_eq]
    · split
      · next hgt =>
        have hne : ¬n = name := fun e => String.lt_irrefl _ (e ▸ hgt)
        by_cases hk : key = n <;> simp_all [lookup_cons_eq]
      · next h₁ h₂ =>
        obtain rfl : name = n := eq_of_not_lt h₁ h₂
        by_cases h : key = name <;> simp [lookup_cons_eq, h]

/-- After an insertion the name has the new value, and every other name its old one. -/
theorem get?_insert (ns : Namespace α) (name key : String) (value : α) :
    (ns.insert name value).get? key = if key = name then some value else ns.get? key :=
  lookup_insertEntry name key value ns.entries

/-- The empty map has no value for any name. -/
@[simp] theorem get?_empty (key : String) : (empty : Namespace α).get? key = none := rfl

end Namespace

end ForeignCall
