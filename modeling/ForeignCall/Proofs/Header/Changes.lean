import ForeignCall.Header.Translation
import Mathlib.Logic.Relation

/-!
# ForeignCall.Proofs.Header.Changes

What a translation can do to the header that is being collected: it declares and defines tags,
makes enumerators known and adds declarations. The types that it stores are made of keywords, of
types that are stored already, and of tagged types that it has just declared or defined. What every
such change keeps is kept by every translation (`ForeignCall.Proofs.Header.Translation`).

* `Builder.Denotes` — the types that a node can denote at some point;
* `Builder.Change` — one change, and `Builder.Becomes` for changes in a row;
* `Builder.Grows` — the name and the macros stay, a tag that is declared stays declared, and a
  definition never changes.

The names of the enumerators of an enum body satisfy `allowed`, which stands for what is known of
the bodies in the tree.
-/

namespace ForeignCall

namespace Builder

variable (allowed : List String → Prop)

/-- The types that a node can denote while a header is being collected. -/
inductive Denotes (b : Builder) : CType → Prop
  | spelled {words : List String} {t : CType} (h : CType.ofSpelling words = .ok (some t)) :
    Denotes b t
  | typedef {name : String} {t : CType} (h : b.typedef? name = some t) : Denotes b t
  | pointer {base : CType} (hbase : Denotes b base) : Denotes b (.pointer base)
  | array {base : CType} (dim : Option UInt64) (hbase : Denotes b base) :
    Denotes b (.array base dim)
  | func {params : List (Member CType)} {ret : CType} (variadic : Bool)
    (hparams : ∀ m ∈ params, Denotes b m.type) (hret : Denotes b ret) :
    Denotes b (.func params ret variadic)
  | placeholder {kind : TagKind} {name : String} (h : (b.aggregate? kind name).isSome) :
    Denotes b (.placeholder kind name)
  | aggregate {kind : TagKind} {tag : Option String} {members : List (Member CType)}
    (hmembers : ∀ m ∈ members, Denotes b m.type)
    (htag : ∀ name, tag = some name →
      b.aggregate? kind name = some (.aggregate kind tag members)) :
    Denotes b (.aggregate kind tag members)
  | enum {tag : Option String} {values : List (String × Int64)}
    (hbody : allowed (values.map (·.1)))
    (htag : ∀ name, tag = some name → b.enum? name = some (.enum tag values)) :
    Denotes b (.enum tag values)
  | enumTag {name : String} {t : CType} (h : b.enum? name = some t) : Denotes b t

/-- A change to the tags and the enumerators, which the translation of a type can make. -/
inductive TagChange : Builder → Builder → Prop
  | declare (b : Builder) (kind : TagKind) (name : String) : TagChange b (b.declare kind name)
  | define {b b' : Builder} {kind : TagKind} {name : String} {members : List (Member CType)}
    (hmembers : ∀ m ∈ members, b.Denotes allowed m.type)
    (h : b.define kind name (.aggregate kind (some name) members) = .ok b') : TagChange b b'
  | defineEnum {b b' : Builder} {name : String} {values : List (String × Int64)}
    (hbody : allowed (values.map (·.1)))
    (h : b.defineEnum name (.enum (some name) values) = .ok b') : TagChange b b'
  | enumerator (b : Builder) (name : String) (value : Int64) (owner : Option String) :
    TagChange b (b.addEnumerator name value owner)

/-- One change to a header that is being collected. -/
inductive Change : Builder → Builder → Prop
  | tag {b b' : Builder} (h : b.TagChange allowed b') : Change b b'
  /-- An enum without a tag is stored under its first enumerator. -/
  | untagged {b b' : Builder} {first : String} {value : Int64} {rest : List (String × Int64)}
    (hdenotes : b.Denotes allowed (.enum none ((first, value) :: rest)))
    (h : b.defineEnum ("\x7b" ++ first ++ "\x7d") (.enum none ((first, value) :: rest)) = .ok b') :
    Change b b'
  | function {b : Builder} (name : String) {params : List (Member CType)} {ret : CType}
    {variadic : Bool} (hdenotes : b.Denotes allowed (.func params ret variadic)) :
    Change b (b.addFunction name (.func params ret variadic))
  | global {b : Builder} (name : String) {t : CType} (hdenotes : b.Denotes allowed t)
    (hfunc : ∀ params ret variadic, t ≠ .func params ret variadic) :
    Change b (b.addVariable name t)
  | typedef {b : Builder} (name : String) {t : CType} (hdenotes : b.Denotes allowed t) :
    Change b (b.addTypedef name t)

/-- Changes in a row. -/
def Becomes : Builder → Builder → Prop := Relation.ReflTransGen (Change allowed)

/-! ## What stays -/

/-- What later changes keep of a header that is being collected. -/
structure Grows (b b' : Builder) : Prop where
  name_eq : b'.name = b.name
  macros_eq : b'.spaces.macros = b.spaces.macros
  entry : ∀ {kind name}, (b.aggregate? kind name).isSome → (b'.aggregate? kind name).isSome
  definition : ∀ {kind name kind' tag members},
    b.aggregate? kind name = some (.aggregate kind' tag members) →
      b'.aggregate? kind name = some (.aggregate kind' tag members)
  enum : ∀ {name t}, b.enum? name = some t → b'.enum? name = some t

variable {allowed} {b b' b'' : Builder}

theorem Grows.refl (b : Builder) : b.Grows b := ⟨rfl, rfl, id, id, id⟩

theorem Grows.trans (h : b.Grows b') (h' : b'.Grows b'') : b.Grows b'' where
  name_eq := h'.name_eq.trans h.name_eq
  macros_eq := h'.macros_eq.trans h.macros_eq
  entry := h'.entry ∘ h.entry
  definition := h'.definition ∘ h.definition
  enum := h'.enum ∘ h.enum

/-- A definition is new, or it is the one that is there. -/
theorem define_cases {kind : TagKind} {name : String} {t : CType}
    (h : b.define kind name t = .ok b') :
    b' = b.setAggregate kind name t ∧ isOpen (b.aggregate? kind name) ∨
      b' = b ∧ b.aggregate? kind name = some t := by
  unfold define at h
  split at h
  · next hentry => exact .inl ⟨(Except.ok.inj h).symm, by rw [hentry]; rfl⟩
  · next hentry => exact .inl ⟨(Except.ok.inj h).symm, by rw [hentry]; rfl⟩
  · next hentry =>
    split at h
    · next heq => exact .inr ⟨(Except.ok.inj h).symm, by rw [hentry, heq]⟩
    · cases h

/-- An enum is new, or it is the one that is there. -/
theorem defineEnum_cases {key : String} {t : CType} (h : b.defineEnum key t = .ok b') :
    b' = { b with spaces := { b.spaces with enums := b.spaces.enums.insert key t } } ∧
        b.enum? key = none ∨
      b' = b ∧ b.enum? key = some t := by
  unfold defineEnum at h
  split at h
  · next hentry => exact .inl ⟨(Except.ok.inj h).symm, hentry⟩
  · next hentry =>
    split at h
    · next heq => exact .inr ⟨(Except.ok.inj h).symm, by rw [hentry, heq]⟩
    · cases h

theorem get?_defineEnum {key : String} {t : CType} (h : b.defineEnum key t = .ok b')
    (key' : String) : b'.enum? key' = if key' = key then some t else b.enum? key' := by
  rcases defineEnum_cases h with ⟨rfl, -⟩ | ⟨rfl, hentry⟩
  · exact Namespace.get?_insert ..
  · split
    · next heq => rw [heq, hentry]
    · rfl

theorem grows_setAggregate {kind : TagKind} {name : String} (t : CType)
    (hopen : isOpen (b.aggregate? kind name)) : b.Grows (b.setAggregate kind name t) where
  name_eq := rfl
  macros_eq := by cases kind <;> rfl
  entry h := by
    rw [get?_setAggregate]
    split
    · rfl
    · exact h
  definition h := by
    rw [get?_setAggregate]
    split
    · next heq =>
      -- a tag that is open has no definition
      rw [← heq.1, ← heq.2, h] at hopen
      cases hopen
    · exact h
  enum h := by cases kind <;> exact h

theorem grows_declare (b : Builder) (kind : TagKind) (name : String) :
    b.Grows (b.declare kind name) := by
  unfold declare
  split
  · exact .refl b
  · next hentry => exact grows_setAggregate _ (by rw [hentry]; rfl)

theorem grows_define {kind : TagKind} {name : String} {t : CType}
    (h : b.define kind name t = .ok b') : b.Grows b' := by
  rcases define_cases h with ⟨rfl, hopen⟩ | ⟨rfl, -⟩
  · exact grows_setAggregate t hopen
  · exact .refl b'

theorem grows_defineEnum {key : String} {t : CType} (h : b.defineEnum key t = .ok b') :
    b.Grows b' := by
  have hget := get?_defineEnum h
  rcases defineEnum_cases h with ⟨rfl, hnone⟩ | ⟨rfl, -⟩
  · refine ⟨rfl, rfl, id, id, fun {name _} hname => ?_⟩
    rw [hget, if_neg, hname]
    rintro rfl
    rw [hnone] at hname
    cases hname
  · exact .refl b'

theorem TagChange.grows (h : b.TagChange allowed b') : b.Grows b' := by
  cases h with
  | declare kind name => exact grows_declare b kind name
  | define _ h => exact grows_define h
  | defineEnum _ h => exact grows_defineEnum h
  | enumerator => exact ⟨rfl, rfl, id, id, id⟩

theorem Change.grows (h : b.Change allowed b') : b.Grows b' := by
  cases h with
  | tag h => exact h.grows
  | untagged _ h => exact grows_defineEnum h
  | function | global | typedef => exact ⟨rfl, rfl, id, id, id⟩

/-- **Changes in a row keep what is settled.** -/
theorem Becomes.grows (h : b.Becomes allowed b') : b.Grows b' := by
  induction h with
  | refl => exact .refl b
  | tail _ hchange ih => exact ih.trans hchange.grows

/-! ## Types that are denoted later -/

theorem types_setAggregate (b : Builder) (kind : TagKind) (name : String) (t : CType) :
    (b.setAggregate kind name t).spaces.types = b.spaces.types := by
  cases kind <;> rfl

/-- The translation of a type adds no typedef. -/
theorem TagChange.types_eq (h : b.TagChange allowed b') : b'.spaces.types = b.spaces.types := by
  cases h with
  | declare kind name =>
    unfold Builder.declare
    split
    · rfl
    · exact types_setAggregate ..
  | define _ h =>
    rcases define_cases h with ⟨rfl, -⟩ | ⟨rfl, -⟩
    · exact types_setAggregate ..
    · rfl
  | defineEnum _ h =>
    rcases defineEnum_cases h with ⟨rfl, -⟩ | ⟨rfl, -⟩ <;> rfl
  | enumerator => rfl

/-- What a node denotes it denotes after changes to the tags. -/
theorem Denotes.mono {t : CType} (hgrows : b.Grows b')
    (htypes : b'.spaces.types = b.spaces.types) (h : b.Denotes allowed t) :
    b'.Denotes allowed t := by
  induction h with
  | spelled h => exact .spelled h
  | @typedef name _ h =>
    have h' : b'.typedef? name = b.typedef? name := by rw [typedef?, htypes, typedef?]
    exact .typedef (h'.trans h)
  | pointer _ ih => exact .pointer ih
  | array dim _ ih => exact .array dim ih
  | func variadic _ _ ihparams ihret => exact .func variadic ihparams ihret
  | placeholder h => exact .placeholder (hgrows.entry h)
  | aggregate _ htag ih => exact .aggregate ih fun name hname => hgrows.definition (htag name hname)
  | enum hbody htag => exact .enum hbody fun name hname => hgrows.enum (htag name hname)
  | enumTag h => exact .enumTag (hgrows.enum h)

theorem TagChange.denotes {t : CType} (h : b.TagChange allowed b') (ht : b.Denotes allowed t) :
    b'.Denotes allowed t :=
  ht.mono h.grows h.types_eq

end Builder

end ForeignCall
