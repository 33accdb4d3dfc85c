import ForeignCall.Bytecode.Compiler
import Mathlib.Tactic.Common

/-!
# ForeignCall.Proofs.Bytecode.Resemblance

What the compiler looks at in a type. A struct or union is passed as it is, whatever its members
are, unless only its tag is known. Whether an argument is compatible with its parameter depends on
the members too, because a struct or union is compatible with itself and with nothing else.

* `CType.Resembles` — types that are passed alike;
* `CType.Akin` — the same, or structs or unions of which only the tag may be known;
* `compatible_iff_eq` — what is compatible with a struct or union;
* `CType.Akin.compatible_eq` — when types that are akin are compatible alike.
-/

namespace ForeignCall

namespace CType

/-- Types that are passed alike: they are equal, or both are structs or unions of one kind and
tag. -/
inductive Resembles : CType → CType → Prop where
  | refl (t : CType) : Resembles t t
  | aggregate (kind : TagKind) (tag : Option String) (members members' : List (Member CType)) :
    Resembles (.aggregate kind tag members) (.aggregate kind tag members')

/-- Types that are equal, or two structs or unions of one kind and text, complete or not. -/
inductive Akin : CType → CType → Prop where
  | refl (t : CType) : Akin t t
  | tagged {t t' : CType} : t.tagKind ≠ none → t'.tagKind = t.tagKind → t'.display = t.display →
    Akin t t'

variable {t t' u u' : CType}

namespace Resembles

theorem isVoid_eq (h : t.Resembles t') : t'.isVoid = t.isVoid := by
  cases h <;> rfl

theorem decayed (h : t.Resembles t') : t.decayed.Resembles t'.decayed := by
  cases h with
  | refl => exact .refl _
  | aggregate => exact .aggregate ..

theorem promoted (h : t.Resembles t') : (promoted t).Resembles (ForeignCall.promoted t') := by
  cases h with
  | refl => exact .refl _
  | aggregate => exact .aggregate ..

/-- Types that resemble each other have the same tag byte. -/
theorem tag_eq (h : t.Resembles t') (m : Machine) : m.tag t' = m.tag t := by
  cases h <;> rfl

theorem akin (h : t.Resembles t') : t.Akin t' := by
  cases h with
  | refl => exact .refl _
  | aggregate => exact .tagged nofun rfl (by rw [display, display])

end Resembles

namespace Akin

theorem tagKind_eq (h : t.Akin t') : t'.tagKind = t.tagKind := by
  cases h with
  | refl => rfl
  | tagged _ hkind _ => exact hkind

/-- Types that are akin have the same text. -/
theorem display_eq (h : t.Akin t') : t'.display = t.display := by
  cases h with
  | refl => rfl
  | tagged _ _ htext => exact htext

/-- Only structs and unions are akin to another type than themselves. -/
theorem eq_of_tagKind (h : t.Akin t') (hkind : t.tagKind = none) : t' = t := by
  cases h with
  | refl => rfl
  | tagged hsome => exact absurd hkind hsome

end Akin

/-- No literal is checked against a struct or union. -/
theorem checkLiteral_of_tagKind (ht : t.tagKind ≠ none) (m : Machine) (f : Function)
    (position : Nat) (arg : Term) :
    checkLiteral m f position t arg = checkLiteral m f position .void arg := by
  have hplain : t.isIntegralOrEnum = false := by cases t <;> simp [tagKind] at ht ⊢ <;> rfl
  have hvoid : void.isIntegralOrEnum = false := rfl
  cases arg <;> simp [checkLiteral, hplain, hvoid]

/-- A literal is checked alike against parameters that are akin. -/
theorem Akin.checkLiteral_eq (h : t.Akin t') (m : Machine) (f : Function) (position : Nat)
    (arg : Term) : checkLiteral m f position t' arg = checkLiteral m f position t arg := by
  cases h with
  | refl => rfl
  | tagged hsome hkind _ =>
    rw [checkLiteral_of_tagKind hsome, checkLiteral_of_tagKind (hkind ▸ hsome)]

end CType

/-! ## Compatibility -/

variable {t t' u u' : CType}

/-- No type decays to a struct or union. -/
theorem CType.decayed_eq_iff (hu : u.tagKind ≠ none) : t.decayed = u ↔ t = u := by
  cases t with
  | array base dim => cases u <;> simp [decayed, tagKind] at hu ⊢
  | func params ret variadic => cases u <;> simp [decayed, tagKind] at hu ⊢
  | _ => rfl

/-- A struct or union, complete or not, is compatible with itself only. -/
theorem compatible_iff_eq (h : t.tagKind ≠ none ∨ u.tagKind ≠ none) :
    compatible t u = true ↔ t = u := by
  -- neither arithmetic nor a pointer
  have hplain : ∀ v : CType, v.tagKind ≠ none →
      v.decayed = v ∧ v.isArithmetic = false ∧ v.pointee = none := by
    intro v hv
    cases v <;> simp [CType.tagKind, CType.decayed, CType.isArithmetic, CType.pointee] at hv ⊢
  rcases h with h | h
  · obtain ⟨hself, harith, hpointee⟩ := hplain t h
    have hiff : t = u.decayed ↔ t = u := by rw [eq_comm, CType.decayed_eq_iff h, eq_comm]
    simp [compatible, hself, harith, hpointee, hiff]
  · obtain ⟨hself, harith, hpointee⟩ := hplain u h
    simp [compatible, hself, harith, hpointee, CType.decayed_eq_iff h]

/-- Types that are compatible are equal, or none of them is a struct or union. -/
theorem eq_or_tagKind_of_compatible (h : compatible t u = true) :
    t = u ∨ t.tagKind = none ∧ u.tagKind = none := by
  by_cases hkind : t.tagKind = none ∧ u.tagKind = none
  · exact .inr hkind
  · exact .inl ((compatible_iff_eq (Decidable.not_and_iff_or_not.mp hkind)).mp h)

namespace CType.Akin

/-- Two types and types akin to them are the same, unless each pair has a struct or union. -/
theorem eq_or_tagKind_ne (ht : t.Akin t') (hu : u.Akin u') :
    (t' = t ∧ u' = u) ∨
      (t.tagKind ≠ none ∨ u.tagKind ≠ none) ∧ (t'.tagKind ≠ none ∨ u'.tagKind ≠ none) := by
  rw [ht.tagKind_eq, hu.tagKind_eq, and_self, ← Decidable.not_and_iff_or_not]
  by_cases hkind : t.tagKind = none ∧ u.tagKind = none
  · exact .inl ⟨ht.eq_of_tagKind hkind.1, hu.eq_of_tagKind hkind.2⟩
  · exact .inr hkind

/-- Types that are akin are compatible alike if they are equal alike. -/
theorem compatible_eq (ht : t.Akin t') (hu : u.Akin u') (h : t' = u' ↔ t = u) :
    compatible t' u' = compatible t u := by
  obtain ⟨rfl, rfl⟩ | ⟨hkind, hkind'⟩ := ht.eq_or_tagKind_ne hu
  · rfl
  · rw [Bool.eq_iff_iff, compatible_iff_eq hkind, compatible_iff_eq hkind', h]

/-- Types that are akin and compatible are equal alike. -/
theorem eq_iff_of_compatible (ht : t.Akin t') (hu : u.Akin u') (h : compatible t u = true)
    (h' : compatible t' u' = true) : t' = u' ↔ t = u := by
  obtain ⟨rfl, rfl⟩ | ⟨hkind, hkind'⟩ := ht.eq_or_tagKind_ne hu
  · exact Iff.rfl
  · rw [← compatible_iff_eq hkind, ← compatible_iff_eq hkind', h, h']

end CType.Akin

end ForeignCall
