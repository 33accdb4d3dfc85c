import ForeignCall.Proofs.Header.Changes
import ForeignCall.Proofs.Header.Sizes

/-!
# ForeignCall.Proofs.Header.Declared

Headers in which a tag has been declared in advance. What is done to such a header leads to the same
as without the declaration, with the tag declared behind it.

* `Builder.declare_comm`, `Builder.define_declare`, `Builder.defineEnum_declare` — operations with a
  tag declared in advance;
* `Builder.complete_declare`, `Builder.enumerators_declare` — what a declaration does not change.
-/

namespace ForeignCall

namespace Builder

variable {b b' : Builder} {kind kind' : TagKind} {name name' : String}

/-- A tag has an entry. -/
def Entered (b : Builder) (tag : Tag) : Prop := (b.aggregate? tag.kind tag.name).isSome

/-- A declaration changes nothing if the tag has an entry. -/
theorem declare_of_isSome (h : (b.aggregate? kind name).isSome) : b.declare kind name = b := by
  obtain ⟨t, ht⟩ := Option.isSome_iff_exists.mp h
  rw [declare, ht]

theorem declare_of_none (h : b.aggregate? kind name = none) :
    b.declare kind name = b.setAggregate kind name (.placeholder kind name) := by
  rw [declare, h]

theorem aggregate?_declare_of_ne (hne : ¬(kind' = kind ∧ name' = name)) :
    (b.declare kind name).aggregate? kind' name' = b.aggregate? kind' name' := by
  rw [get?_declare, if_neg hne]

theorem entered_declare (b : Builder) (kind : TagKind) (name : String) (tag : Tag) :
    (b.declare kind name).Entered tag ↔ tag ∈ [⟨kind, name⟩] ∨ b.Entered tag := by
  obtain ⟨kind', name'⟩ := tag
  rw [Entered, Entered, get?_declare, List.mem_singleton, Tag.mk.injEq]
  split
  · next h => exact iff_of_true rfl (.inl h)
  · next h => exact (or_iff_right h).symm

theorem setAggregate_setAggregate (b : Builder) (kind : TagKind) (name : String) (t t' : CType) :
    (b.setAggregate kind name t).setAggregate kind name t' = b.setAggregate kind name t' := by
  cases kind <;>
    simp [setAggregate, Namespaces.withAggregates, Namespaces.aggregates, Namespace.insert_insert]

theorem setAggregate_comm (b : Builder) (hne : ¬(kind' = kind ∧ name' = name)) (t t' : CType) :
    (b.setAggregate kind name t).setAggregate kind' name' t' =
      (b.setAggregate kind' name' t').setAggregate kind name t := by
  cases kind <;> cases kind'
  case struct.union | union.struct => rfl
  all_goals
    have hname : name ≠ name' := fun heq => hne ⟨rfl, heq.symm⟩
    simp [setAggregate, Namespaces.withAggregates, Namespaces.aggregates,
      Namespace.insert_comm _ hname]

/-- The order of two declarations does not matter. -/
theorem declare_comm (b : Builder) (kind kind' : TagKind) (name name' : String) :
    (b.declare kind name).declare kind' name' = (b.declare kind' name').declare kind name := by
  by_cases heq : kind' = kind ∧ name' = name
  · rw [heq.1, heq.2]
  · have hne : ¬(kind = kind' ∧ name = name') := fun h => heq ⟨h.1.symm, h.2.symm⟩
    have hentry := aggregate?_declare_of_ne (b := b) heq
    have hentry' := aggregate?_declare_of_ne (b := b) hne
    cases h : b.aggregate? kind name with
    | some t =>
      have hsome : (b.aggregate? kind name).isSome := by rw [h]; rfl
      rw [declare_of_isSome hsome, declare_of_isSome (b := b.declare kind' name')]
      rw [hentry']
      exact hsome
    | none =>
      cases h' : b.aggregate? kind' name' with
      | some t' =>
        have hsome : (b.aggregate? kind' name').isSome := by rw [h']; rfl
        rw [declare_of_isSome hsome, declare_of_isSome (b := b.declare kind name)]
        rw [hentry]
        exact hsome
      | none =>
        rw [declare_of_none (hentry.trans h'), declare_of_none h, declare_of_none (hentry'.trans h),
          declare_of_none h']
        exact setAggregate_comm b heq ..

/-- What leaves the tags alone can be done before a declaration or behind it. -/
theorem declare_of_tags (f : Builder → Builder)
    (hentry : ∀ b kind name, (f b).aggregate? kind name = b.aggregate? kind name)
    (hset : ∀ b kind name t, f (b.setAggregate kind name t) = (f b).setAggregate kind name t)
    (b : Builder) (kind : TagKind) (name : String) :
    f (b.declare kind name) = (f b).declare kind name := by
  unfold declare
  rw [hentry]
  split
  · rfl
  · exact hset ..

theorem typedef?_declare (b : Builder) (kind : TagKind) (name : String) :
    (b.declare kind name).typedef? = b.typedef? := by
  unfold declare
  split
  · rfl
  · cases kind <;> rfl

theorem enum?_declare (b : Builder) (kind : TagKind) (name : String) :
    (b.declare kind name).enum? = b.enum? := by
  unfold declare
  split
  · rfl
  · cases kind <;> rfl

theorem enumerator?_declare (b : Builder) (kind : TagKind) (name : String) :
    (b.declare kind name).enumerator? = b.enumerator? := by
  unfold declare
  split <;> rfl

/-- **A definition with a tag declared in advance.** -/
theorem define_declare (b : Builder) (kind kind' : TagKind) (name name' : String) (t : CType) :
    (b.declare kind name).define kind' name' t =
      (b.define kind' name' t).map fun b' => b'.declare kind name := by
  cases h : b.aggregate? kind name with
  | some t' =>
    -- the entry is there already, and behind the definition still
    have hsome : (b.aggregate? kind name).isSome := by rw [h]; rfl
    rw [declare_of_isSome hsome]
    cases hdefine : b.define kind' name' t with
    | error c => rfl
    | ok b' =>
      have hsome' : (b'.aggregate? kind name).isSome := by
        rw [get?_define hdefine]
        split
        · rfl
        · exact hsome
      rw [Except.map, declare_of_isSome hsome']
  | none =>
    rw [declare_of_none h]
    by_cases heq : kind' = kind ∧ name' = name
    · obtain ⟨rfl, rfl⟩ := heq
      have hdefined : ((b.setAggregate kind' name' t).aggregate? kind' name').isSome := by
        rw [get?_setAggregate, if_pos ⟨rfl, rfl⟩]
        rfl
      rw [define, get?_setAggregate, if_pos ⟨rfl, rfl⟩]
      simp only [define, h, Except.map, declare_of_isSome hdefined, setAggregate_setAggregate]
    · have hne : ¬(kind = kind' ∧ name = name') := fun h => heq ⟨h.1.symm, h.2.symm⟩
      have hnone : (b.setAggregate kind' name' t).aggregate? kind name = none := by
        rw [get?_setAggregate, if_neg hne, h]
      rw [define, define, get?_setAggregate, if_neg heq]
      split
      · rw [Except.map, declare_of_none hnone, setAggregate_comm b heq]
      · rw [Except.map, declare_of_none hnone, setAggregate_comm b heq]
      · split
        · rw [Except.map, declare_of_none h]
        · rfl

/-- A definition gives its tag an entry. -/
theorem entered_define {t : CType} (h : b.define kind name t = .ok b') (tag : Tag) :
    b'.Entered tag ↔ tag ∈ [⟨kind, name⟩] ∨ b.Entered tag := by
  obtain ⟨kind', name'⟩ := tag
  rw [Entered, Entered, get?_define h, List.mem_singleton, Tag.mk.injEq]
  split
  · next h => exact iff_of_true rfl (.inl h)
  · next h => exact (or_iff_right h).symm

theorem entered_defineEnum {key : String} {t : CType} (h : b.defineEnum key t = .ok b')
    (tag : Tag) : b'.Entered tag ↔ tag ∈ [] ∨ b.Entered tag := by
  rw [or_iff_right List.not_mem_nil]
  rcases defineEnum_cases h with ⟨rfl, -⟩ | ⟨rfl, -⟩ <;> rfl

/-- An enum with a tag declared in advance. -/
theorem defineEnum_declare (b : Builder) (kind : TagKind) (name key : String) (t : CType) :
    (b.declare kind name).defineEnum key t =
      (b.defineEnum key t).map fun b' => b'.declare kind name := by
  have hset := declare_of_tags
    (fun b => { b with spaces := { b.spaces with enums := b.spaces.enums.insert key t } })
    (fun b kind name => by cases kind <;> rfl) (fun b kind name t => by cases kind <;> rfl)
    b kind name
  unfold defineEnum
  rw [enum?_declare]
  split
  · exact congrArg Except.ok hset
  · split <;> rfl

/-- **A completion with a tag declared in advance.** -/
theorem complete_declare (b : Builder) (kind : TagKind) (name : String) (t : CType) :
    (b.declare kind name).complete t = b.complete t := by
  refine CType.complete_congr (fun tag t ht hself => ?_) (fun tag t ht hself => ?_) t
  · rw [Namespaces.get?_definitions] at ht ⊢
    change (b.declare kind name).aggregate? tag.kind tag.name = some t at ht
    change b.aggregate? tag.kind tag.name = some t
    rw [get?_declare] at ht
    split at ht
    · next heq =>
      rw [← heq.1, ← heq.2] at ht
      cases h : b.aggregate? tag.kind tag.name with
      | some t' =>
        rw [h] at ht
        exact ht
      | none =>
        rw [h] at ht
        exact absurd (Option.some.inj ht).symm hself
    · exact ht
  · rw [Namespaces.get?_definitions] at ht ⊢
    change b.aggregate? tag.kind tag.name = some t at ht
    change (b.declare kind name).aggregate? tag.kind tag.name = some t
    rw [get?_declare]
    split
    · next heq =>
      rw [heq.1, heq.2] at ht
      rw [ht]
      rfl
    · exact ht

/-- A declaration brings no enumerators. -/
theorem enumerators_declare (b : Builder) (kind : TagKind) (name : String) :
    (b.declare kind name).spaces.enumerators = b.spaces.enumerators := by
  cases h : b.aggregate? kind name with
  | some t => rw [declare_of_isSome (by rw [h]; rfl)]
  | none =>
    have hvalues := Namespace.flatMap_values_insert (b.spaces.aggregates kind)
      (.placeholder kind name) (f := Namespaces.enumeratorsOf) h rfl
    rw [declare_of_none h]
    cases kind <;>
      simp_all [Namespaces.enumerators, Namespaces.allTypes, setAggregate,
        Namespaces.withAggregates, Namespaces.aggregates]

end Builder

end ForeignCall
