import ForeignCall.Proofs.Declaration.Carriers
import ForeignCall.Proofs.Header.Changes
import ForeignCall.Proofs.Namespace
import Mathlib.Data.List.Perm.Basic

/-!
# ForeignCall.Proofs.Header.Additions

Where the enumerators of a header are found again. They are made known one by one while declarations
are translated; in the end only the types count, which are those of tags and those of the names that
have been declared.

* `Builder.Has` — an enumerator is found in a type of a header;
* `Builder.Collects` — what steps leave in the types of the enumerators that they make known;
* `Builder.Adds` — what steps leave there that give types to tags only;
* `Builder.Contributes` — what a step adds that translates a part of a type, and what of it the part
  holds on to.
-/

namespace ForeignCall

open Namespaces (enumeratorsOf enumeratorsOfMembers)

/-! ## Where enumerators are found -/

/-- A name with the value that it has as an enumerator. -/
abbrev NamedValue := String × EnumValue

namespace Builder

/-- What a header has a type for. -/
inductive Entry where
  | function (name : String)
  | global (name : String)
  | typedef (name : String)
  | aggregate (kind : TagKind) (name : String)
  | enum (tag : String)
deriving DecidableEq

/-- The place that a declaration gives its type to; none for tags, which keep their definitions. -/
def Entry.place? : Entry → Option Place
  | .function name | .global name => some (.ordinary name)
  | .typedef name => some (.typedef name)
  | .aggregate .. | .enum _ => none

variable {b b' b'' : Builder} {p : NamedValue} {e : Entry}

/-- The type of an entry. -/
def typeAt? (b : Builder) : Entry → Option CType
  | .function name => b.spaces.functions.get? name
  | .global name => b.spaces.globals.get? name
  | .typedef name => b.typedef? name
  | .aggregate kind name => b.aggregate? kind name
  | .enum tag => b.enum? tag

/-- An enumerator is found in the type of an entry. -/
def Has (b : Builder) (e : Entry) (p : NamedValue) : Prop :=
  ∃ t, b.typeAt? e = some t ∧ p ∈ enumeratorsOf t

/-- An enumerator is found in some type. -/
def Stores (b : Builder) (p : NamedValue) : Prop := ∃ e, b.Has e p

theorem stores_iff : b.Stores p ↔ p ∈ b.spaces.allTypes.flatMap enumeratorsOf := by
  simp only [List.mem_flatMap, Namespaces.allTypes, List.mem_append, Namespace.mem_values_iff]
  constructor
  · rintro ⟨e, t, ht, hp⟩
    refine ⟨t, ?_, hp⟩
    cases e with
    | function name => exact .inl (.inl (.inl (.inl (.inl ⟨name, ht⟩))))
    | global name => exact .inl (.inl (.inl (.inl (.inr ⟨name, ht⟩))))
    | typedef name => exact .inl (.inl (.inl (.inr ⟨name, ht⟩)))
    | aggregate kind name =>
      cases kind with
      | struct => exact .inl (.inl (.inr ⟨name, ht⟩))
      | union => exact .inl (.inr ⟨name, ht⟩)
    | enum tag => exact .inr ⟨tag, ht⟩
  · rintro ⟨t, ht, hp⟩
    rcases ht with ((((⟨name, ht⟩ | ⟨name, ht⟩) | ⟨name, ht⟩) | ⟨name, ht⟩) | ⟨name, ht⟩) | ⟨name, ht⟩
    · exact ⟨.function name, t, ht, hp⟩
    · exact ⟨.global name, t, ht, hp⟩
    · exact ⟨.typedef name, t, ht, hp⟩
    · exact ⟨.aggregate .struct name, t, ht, hp⟩
    · exact ⟨.aggregate .union name, t, ht, hp⟩
    · exact ⟨.enum name, t, ht, hp⟩

/-! ## Entries -/

/-- An entry gets a type, and nothing else changes. -/
structure Sets (b : Builder) (e : Entry) (t : CType) (b' : Builder) : Prop where
  enumerators : b'.enumerators = b.enumerators
  typeAt : ∀ e', b'.typeAt? e' = if e' = e then some t else b.typeAt? e'

theorem Sets.has {t : CType} (h : b.Sets e t b') : b'.Has e p ↔ p ∈ enumeratorsOf t := by
  simp [Has, h.typeAt]

theorem Sets.has_of_ne {t : CType} (h : b.Sets e t b') {e' : Entry} (hne : e' ≠ e) :
    b'.Has e' p ↔ b.Has e' p := by
  simp [Has, h.typeAt, hne]

theorem sets_addFunction (b : Builder) (name : String) (t : CType) :
    b.Sets (.function name) t (b.addFunction name t) := by
  refine ⟨rfl, fun e => ?_⟩
  cases e with
  | function name' => simpa [typeAt?, addFunction] using b.spaces.functions.get?_insert name name' t
  | global | typedef | aggregate | enum => rfl

theorem sets_addVariable (b : Builder) (name : String) (t : CType) :
    b.Sets (.global name) t (b.addVariable name t) := by
  refine ⟨rfl, fun e => ?_⟩
  cases e with
  | global name' => simpa [typeAt?, addVariable] using b.spaces.globals.get?_insert name name' t
  | function | typedef | aggregate | enum => rfl

theorem sets_addTypedef (b : Builder) (name : String) (t : CType) :
    b.Sets (.typedef name) t (b.addTypedef name t) := by
  refine ⟨rfl, fun e => ?_⟩
  cases e with
  | typedef name' =>
    simpa [typeAt?, typedef?, addTypedef] using b.spaces.types.get?_insert name name' t
  | function | global | aggregate | enum => rfl

/-- A tag gets a type in which the enumerators are found that were found there before. -/
structure TagSet (b : Builder) (e : Entry) (t : CType) (b' : Builder) : Prop extends
    b.Sets e t b' where
  kept : ∀ {p}, b.Has e p → p ∈ enumeratorsOf t
  tag : e.place? = none

theorem tagSet_same {t : CType} (h : b.typeAt? e = some t) (htag : e.place? = none) :
    b.TagSet e t b where
  enumerators := rfl
  typeAt e' := by
    split
    · next heq => rw [heq, h]
    · rfl
  kept := by
    rintro p ⟨t', ht', hp⟩
    rw [h] at ht'
    obtain rfl := Option.some.inj ht'
    exact hp
  tag := htag

/-- In an entry that is open no enumerators are found. -/
theorem tagSet_setAggregate {kind : TagKind} {name : String} (t : CType)
    (hopen : isOpen (b.aggregate? kind name)) :
    b.TagSet (.aggregate kind name) t (b.setAggregate kind name t) where
  enumerators := rfl
  typeAt e := by
    cases e with
    | aggregate kind' name' => simpa [typeAt?] using get?_setAggregate b kind kind' name name' t
    | function | global | typedef | enum => cases kind <;> rfl
  kept := by
    rintro p ⟨t', ht', hp⟩
    have hopen' : isOpen (some t') := (show b.aggregate? kind name = some t' from ht') ▸ hopen
    cases t' with
    | placeholder => simp [enumeratorsOf] at hp
    | void | integral | floating | special | pointer | array | func | aggregate | enum =>
      cases hopen'
  tag := rfl

theorem tagSet_declare (b : Builder) (kind : TagKind) (name : String) :
    ∃ t, b.TagSet (.aggregate kind name) t (b.declare kind name) ∧
      ∀ p ∈ enumeratorsOf t, b.Stores p := by
  unfold declare
  cases hentry : b.aggregate? kind name with
  | some t => exact ⟨t, tagSet_same hentry rfl, fun p hp => ⟨.aggregate kind name, t, hentry, hp⟩⟩
  | none =>
    refine ⟨_, tagSet_setAggregate _ (by rw [hentry]; rfl), ?_⟩
    simp [enumeratorsOf]

theorem tagSet_define {kind : TagKind} {name : String} {t : CType}
    (h : b.define kind name t = .ok b') : b.TagSet (.aggregate kind name) t b' := by
  rcases define_cases h with ⟨rfl, hopen⟩ | ⟨rfl, hentry⟩
  · exact tagSet_setAggregate t hopen
  · exact tagSet_same hentry rfl

theorem tagSet_defineEnum {tag : String} {t : CType} (h : b.defineEnum tag t = .ok b') :
    b.TagSet (.enum tag) t b' := by
  rcases defineEnum_cases h with ⟨rfl, hnone⟩ | ⟨rfl, hentry⟩
  · refine ⟨⟨rfl, fun e => ?_⟩, ?_, rfl⟩
    · cases e with
      | enum tag' => simpa [typeAt?] using get?_defineEnum h tag'
      | function | global | typedef | aggregate => rfl
    · rintro p ⟨t', ht', -⟩
      exact nomatch hnone.symm.trans ht'
  · exact tagSet_same hentry rfl

/-! ## What is added -/

/-- Steps that give types to `places` make the enumerators `added` known. Of these nothing is found
in the types afterwards but `kept`, and what was found in the types before is found there still,
except for the types of `places`. -/
structure Collects (b : Builder) (places : List (Option Place)) (added : List NamedValue)
    (kept : List String) (b' : Builder) : Prop where
  enumerators : b'.enumerators = added.foldl (fun ns e => ns.insert e.1 e.2) b.enumerators
  has : ∀ {e p}, e.place? = none ∨ e.place? ∉ places → b.Has e p → b'.Has e p
  stores : ∀ {p}, b'.Stores p → b.Stores p ∨ p ∈ added ∧ p.1 ∈ kept

theorem Collects.refl (b : Builder) : b.Collects [] [] [] b := ⟨rfl, fun _ => id, .inl⟩

section Collects

variable {places places' : List (Option Place)} {added added' : List NamedValue}
  {kept kept' carried : List String}

theorem Collects.trans (h : b.Collects places added kept b')
    (h' : b'.Collects places' added' kept' b'') :
    b.Collects (places ++ places') (added ++ added') (kept ++ kept') b'' where
  enumerators := by rw [h'.enumerators, h.enumerators, List.foldl_append]
  has {e p} he hp := by
    rw [List.mem_append, not_or] at he
    exact h'.has (he.imp_right And.right) (h.has (he.imp_right And.left) hp)
  stores hp := by
    rcases h'.stores hp with hp | ⟨hadded, hkept⟩
    · rcases h.stores hp with hp | ⟨hadded, hkept⟩
      · exact .inl hp
      · exact .inr ⟨List.mem_append_left _ hadded, List.mem_append_left _ hkept⟩
    · exact .inr ⟨List.mem_append_right _ hadded, List.mem_append_right _ hkept⟩

/-- What is found behind a step when an entry gets a type that holds on to `carried`. -/
theorem Collects.stores_sets {t : CType} (h : b.Collects places added kept b')
    (hset : b'.Sets e t b'')
    (ht : ∀ p ∈ enumeratorsOf t, p ∈ added ∧ p.1 ∈ carried ∨ b'.Stores p) (hp : b''.Stores p) :
    b.Stores p ∨ p ∈ added ∧ p.1 ∈ carried ++ kept := by
  have hbefore : b'.Stores p → b.Stores p ∨ p ∈ added ∧ p.1 ∈ carried ++ kept := fun hp =>
    (h.stores hp).imp_right fun hp => ⟨hp.1, List.mem_append_right _ hp.2⟩
  obtain ⟨e', hp⟩ := hp
  by_cases heq : e' = e
  · subst heq
    rcases ht p (hset.has.mp hp) with ⟨hadded, hcarried⟩ | hp
    · exact .inr ⟨hadded, List.mem_append_left _ hcarried⟩
    · exact hbefore hp
  · exact hbefore ⟨e', (hset.has_of_ne heq).mp hp⟩

end Collects

/-- A step that gives types to tags only. What is `anchored` is found there afterwards. -/
structure Adds (b : Builder) (added : List NamedValue) (anchored : List String) (b' : Builder) :
    Prop extends b.Collects [] added anchored b' where
  reached : ∀ n ∈ anchored, ∃ v e, e.place? = none ∧ b'.Has e (n, v)

section Adds

variable {added added' : List NamedValue} {carried anchored anchored' : List String}

theorem Adds.refl (b : Builder) : b.Adds [] [] b := ⟨.refl b, nofun⟩

/-- What is found in the types stays there. -/
theorem Adds.keeps (h : b.Adds added anchored b') (hp : b.Has e p) : b'.Has e p :=
  h.has (.inr List.not_mem_nil) hp

theorem Adds.trans (h : b.Adds added anchored b') (h' : b'.Adds added' anchored' b'') :
    b.Adds (added ++ added') (anchored ++ anchored') b'' := by
  refine ⟨h.toCollects.trans h'.toCollects, fun n hn => ?_⟩
  rcases List.mem_append.mp hn with hn | hn
  · obtain ⟨v, e, he, hhas⟩ := h.reached n hn
    exact ⟨v, e, he, h'.keeps hhas⟩
  · exact h'.reached n hn

theorem Adds.perm (h : b.Adds added anchored b') (hanchored : anchored.Perm anchored') :
    b.Adds added anchored' b' where
  enumerators := h.enumerators
  has := h.has
  stores hp := (h.stores hp).imp_right fun hp => ⟨hp.1, hanchored.subset hp.2⟩
  reached n hn := h.reached n (hanchored.symm.subset hn)

theorem adds_enumerator (b : Builder) (name : String) (value : Int64) (owner : Option String) :
    b.Adds [(name, ⟨value, owner⟩)] [] (b.addEnumerator name value owner) :=
  ⟨⟨rfl, fun _ => id, .inl⟩, nofun⟩

/-- Behind a step a tag gets a type that holds on to the enumerators `carried`. -/
theorem Adds.tagSet {t : CType} (h : b.Adds added anchored b') (hset : b'.TagSet e t b'')
    (ht : ∀ p ∈ enumeratorsOf t, p ∈ added ∧ p.1 ∈ carried ∨ b'.Stores p)
    (hcarried : ∀ n ∈ carried, ∃ v, (n, v) ∈ enumeratorsOf t) :
    b.Adds added (carried ++ anchored) b'' := by
  have hkept : ∀ {e' p}, b'.Has e' p → b''.Has e' p := by
    intro e' p hp
    by_cases heq : e' = e
    · subst heq
      exact hset.has.mpr (hset.kept hp)
    · exact (hset.has_of_ne heq).mpr hp
  refine ⟨⟨hset.enumerators.trans h.enumerators, fun he hp => hkept (h.has he hp),
    h.stores_sets hset.toSets ht⟩, fun n hn => ?_⟩
  rcases List.mem_append.mp hn with hn | hn
  · obtain ⟨v, hv⟩ := hcarried n hn
    exact ⟨v, e, hset.tag, hset.has.mpr hv⟩
  · obtain ⟨v, e', he', hp⟩ := h.reached n hn
    exact ⟨v, e', he', hkept hp⟩

end Adds

/-! ## Parts of types -/

/-- What a step does that translates a part of a type with the enumerators `names`. What it makes of
the part holds on to `found`, among these are `carried`. -/
structure Contributes (b : Builder) (names carried anchored : List String)
    (found : List NamedValue) (b' : Builder) : Prop where
  adds : ∃ added, (added.map (·.1)).Perm names ∧ b.Adds added anchored b' ∧
    ∀ p ∈ found, p ∈ added ∧ p.1 ∈ carried ∨ b'.Stores p
  holds : ∀ n ∈ carried, ∃ v, (n, v) ∈ found

section Contributes

variable {names names' carried carried' anchored anchored' : List String}
  {found found' : List NamedValue}

/-- A part that refers to what is there. -/
theorem Contributes.nothing (h : ∀ p ∈ found, b.Stores p) : b.Contributes [] [] [] found b :=
  ⟨⟨[], .nil, .refl b, fun p hp => .inr (h p hp)⟩, nofun⟩

/-- Two parts, one after the other. -/
theorem Contributes.append (h : b.Contributes names carried anchored found b')
    (h' : b'.Contributes names' carried' anchored' found' b'') :
    b.Contributes (names ++ names') (carried ++ carried') (anchored ++ anchored') (found ++ found')
      b'' := by
  obtain ⟨⟨added, hnames, hadds, hfound⟩, hholds⟩ := h
  obtain ⟨⟨added', hnames', hadds', hfound'⟩, hholds'⟩ := h'
  refine ⟨⟨added ++ added', ?_, hadds.trans hadds', fun p hp => ?_⟩, fun n hn => ?_⟩
  · rw [List.map_append]
    exact hnames.append hnames'
  · rcases List.mem_append.mp hp with hp | hp
    · rcases hfound p hp with ⟨hadded, hcarried⟩ | ⟨e, hp⟩
      · exact .inl ⟨List.mem_append_left _ hadded, List.mem_append_left _ hcarried⟩
      · exact .inr ⟨e, hadds'.keeps hp⟩
    · rcases hfound' p hp with ⟨hadded, hcarried⟩ | hp
      · exact .inl ⟨List.mem_append_right _ hadded, List.mem_append_right _ hcarried⟩
      · exact .inr hp
  · rcases List.mem_append.mp hn with hn | hn
    · obtain ⟨v, hv⟩ := hholds n hn
      exact ⟨v, List.mem_append_left _ hv⟩
    · obtain ⟨v, hv⟩ := hholds' n hn
      exact ⟨v, List.mem_append_right _ hv⟩

/-- The order of the parts does not matter. -/
theorem Contributes.perm (h : b.Contributes names carried anchored found b')
    (hnames : names.Perm names') (hanchored : anchored.Perm anchored') :
    b.Contributes names' carried anchored' found b' := by
  obtain ⟨⟨added, hadded, hadds, hfound⟩, hholds⟩ := h
  exact ⟨⟨added, hadded.trans hnames, hadds.perm hanchored, hfound⟩, hholds⟩

/-- Nothing holds on to what has been translated. -/
theorem Contributes.forget (h : b.Contributes names carried anchored found b') :
    b.Contributes names [] anchored [] b' := by
  obtain ⟨⟨added, hnames, hadds, -⟩, -⟩ := h
  exact ⟨⟨added, hnames, hadds, nofun⟩, nofun⟩

/-- Behind a part a tag gets a type with what the part holds on to. -/
theorem Contributes.tagSet {t : CType} (h : b.Contributes names carried anchored found b')
    (hset : b'.TagSet e t b'') (ht : enumeratorsOf t = found) :
    b.Contributes names carried (carried ++ anchored) found b'' := by
  subst ht
  obtain ⟨⟨added, hnames, hadds, hfound⟩, hholds⟩ := h
  refine ⟨⟨added, hnames, hadds.tagSet hset hfound hholds, fun p hp => ?_⟩, hholds⟩
  exact .inr ⟨e, hset.has.mpr hp⟩

theorem Contributes.declare (b : Builder) (kind : TagKind) (name : String) :
    b.Contributes [] [] [] [] (b.declare kind name) := by
  obtain ⟨t, hset, ht⟩ := b.tagSet_declare kind name
  have hadds := (Adds.refl b).tagSet hset (fun p hp => .inr (ht p hp)) (List.forall_mem_nil _)
  exact ⟨⟨[], .nil, hadds, nofun⟩, nofun⟩

theorem Contributes.enumerator (b : Builder) (name : String) (value : Int64)
    (owner : Option String) :
    b.Contributes [name] [name] [] [(name, ⟨value, owner⟩)] (b.addEnumerator name value owner) :=
  ⟨⟨_, .refl _, b.adds_enumerator name value owner, fun p hp => .inl ⟨hp, by simp_all⟩⟩,
    fun n hn => ⟨⟨value, owner⟩, by simp_all⟩⟩

end Contributes

end Builder

end ForeignCall
