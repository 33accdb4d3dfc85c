import ForeignCall.Proofs.CType.Keywords
import ForeignCall.Proofs.CType.Reading

/-!
# ForeignCall.Proofs.CType.Spelling

The types that keywords spell are elementary: no other type occurs in them, and none is a tagged
type or the signed type of truth values.

* `CType.Elementary` — these types;
* `CType.elementary_of_spelling` — keywords spell nothing else.
-/

namespace ForeignCall.CType

/-- The types that keywords spell. The type of truth values is unsigned. -/
inductive Elementary : CType → Prop
  | void : Elementary .void
  | vaList : Elementary vaList
  | floating (kind : FloatKind) : Elementary (.floating kind)
  | integral {kind : IntKind} {signed : Bool} (h : Plain (.integral kind signed)) :
    Elementary (.integral kind signed)

theorem Spelled.elementary {words : List String} {t : CType} (h : Spelled words t) :
    Elementary t := by
  cases h with
  | alone h _ =>
    simp only [standaloneTypes, List.mem_cons, Prod.mk.injEq, List.not_mem_nil, or_false] at h
    rcases h with ⟨-, rfl⟩ | ⟨-, rfl⟩ | ⟨-, rfl⟩ | ⟨-, rfl⟩ | ⟨-, rfl⟩
    · exact .void
    · exact .floating .float
    · exact .floating .double
    · exact .integral rfl
    · exact .vaList
  | longDouble _ => exact .floating .longDouble
  | integer _ h =>
    obtain ⟨-, -, kind, hkind, rfl⟩ := h
    cases hkind <;> exact .integral trivial

theorem elementary_of_spelling {words : List String} {t : CType}
    (h : ofSpelling words = .ok (some t)) : Elementary t :=
  (ofSpelling_eq_some_iff.mp h).elementary

end ForeignCall.CType
