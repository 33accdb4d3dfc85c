import ForeignCall.Proofs.CType.Spelling
import ForeignCall.Proofs.Header.Translation
import ForeignCall.Proofs.Namespace

/-!
# ForeignCall.Proofs.Header.Coherence

The tags of a header belong together: what occurs in a stored type under a tag is what the header
has under that tag, whatever has been translated, and also when a translation has failed halfway.

* `Builder.Knows` — what a header has of a type that occurs in another;
* `Change.sound` — one change keeps that the header knows what occurs in it;
* `Builder.coherent_after` — the tags of a header belong together.
-/

namespace ForeignCall

/-! ## Stored types -/

namespace Namespaces

variable {ns ns' : Namespaces} {t u : CType}

/-- The maps of types, in the order in which their enumerators count. -/
def maps (ns : Namespaces) : List (Namespace CType) :=
  [ns.functions, ns.globals, ns.types, ns.structs, ns.unions, ns.enums]

theorem mem_allTypes : t ∈ ns.allTypes ↔ ∃ map ∈ ns.maps, t ∈ map.values := by
  simp [allTypes, maps]

theorem mem_allTypes_of_get? {map : Namespace CType} (hmap : map ∈ ns.maps) {name : String}
    (h : map.get? name = some t) : t ∈ ns.allTypes :=
  mem_allTypes.mpr ⟨map, hmap, Namespace.mem_values_iff.mpr ⟨name, h⟩⟩

/-- One of the maps has got a type, and the others are what they were. -/
def Adds (ns ns' : Namespaces) (t : CType) : Prop :=
  ∃ i, ∃ map ∈ ns.maps, ∃ name, ns'.maps = ns.maps.set i (map.insert name t)

theorem Adds.mem_allTypes (h : ns.Adds ns' t) (hu : u ∈ ns'.allTypes) :
    u = t ∨ u ∈ ns.allTypes := by
  obtain ⟨i, map, hmap, name, hmaps⟩ := h
  obtain ⟨map', hmap', hu⟩ := Namespaces.mem_allTypes.mp hu
  rw [hmaps] at hmap'
  rcases List.mem_or_eq_of_mem_set hmap' with hold | rfl
  · exact .inr (Namespaces.mem_allTypes.mpr ⟨map', hold, hu⟩)
  · exact (Namespace.mem_values_insert hu).imp_right fun hu =>
      Namespaces.mem_allTypes.mpr ⟨map, hmap, hu⟩

theorem adds_aggregates (ns : Namespaces) (kind : TagKind) (name : String) (t : CType) :
    ns.Adds (ns.withAggregates kind ((ns.aggregates kind).insert name t)) t := by
  cases kind with
  | struct => exact ⟨3, ns.structs, by simp [maps], name, rfl⟩
  | union => exact ⟨4, ns.unions, by simp [maps], name, rfl⟩

end Namespaces

namespace Builder

variable {allowed : List String → Prop} {b b' : Builder}

/-! ## What a header knows -/

/-- What a header has of a type that occurs in another. -/
def Knows (allowed : List String → Prop) (b : Builder) : CType → Prop
  | .integral kind signed => CType.Plain (.integral kind signed)
  | .placeholder kind name => (b.aggregate? kind name).isSome
  | .aggregate kind tag members =>
    ∀ name, tag = some name → b.aggregate? kind name = some (.aggregate kind tag members)
  | .enum tag values =>
    allowed (values.map (·.1)) ∧ ∀ name, tag = some name → b.enum? name = some (.enum tag values)
  | _ => True

/-- What is known stays known. -/
theorem Knows.mono (hgrows : b.Grows b') {t : CType} (h : b.Knows allowed t) :
    b'.Knows allowed t := by
  cases t with
  | placeholder kind name => exact hgrows.entry h
  | aggregate kind tag members => exact fun name hname => hgrows.definition (h name hname)
  | enum tag values => exact ⟨h.1, fun name hname => hgrows.enum (h.2 name hname)⟩
  | integral kind signed => exact h
  | void | special | floating | pointer | array | func => trivial

/-- A header knows what occurs in the types that it stores, and its tags are under their names. -/
structure Sound (allowed : List String → Prop) (b : Builder) : Prop where
  knows : ∀ t ∈ b.spaces.allTypes, ∀ u ∈ t.parts, b.Knows allowed u
  entries : ∀ kind name t, b.aggregate? kind name = some t →
    t = .placeholder kind name ∨ ∃ members, t = .aggregate kind (some name) members

/-- A header knows what occurs in a type that a node can denote. -/
theorem Denotes.knows (hb : b.Sound allowed) {t : CType} (h : b.Denotes allowed t) :
    ∀ u ∈ t.parts, b.Knows allowed u := by
  induction h with
  | spelled h =>
    cases CType.elementary_of_spelling h with
    | void | vaList | floating => exact List.forall_mem_singleton.mpr trivial
    | integral hplain => exact List.forall_mem_singleton.mpr hplain
  | typedef h =>
    exact hb.knows _ (Namespaces.mem_allTypes_of_get? (by simp [Namespaces.maps]) h)
  | pointer _ ih => exact List.forall_mem_cons.mpr ⟨trivial, ih⟩
  | array dim _ ih => exact List.forall_mem_cons.mpr ⟨trivial, ih⟩
  | func variadic _ _ ihparams ihret =>
    rw [CType.parts, List.forall_mem_cons, List.forall_mem_append]
    exact ⟨trivial, CType.forall_memberParts.mpr ihparams, ihret⟩
  | placeholder h => exact List.forall_mem_singleton.mpr h
  | aggregate _ htag ih =>
    rw [CType.parts, List.forall_mem_cons]
    exact ⟨htag, CType.forall_memberParts.mpr ih⟩
  | enum hbody htag => exact List.forall_mem_singleton.mpr ⟨hbody, htag⟩
  | enumTag h =>
    exact hb.knows _ (Namespaces.mem_allTypes_of_get? (by simp [Namespaces.maps]) h)

/-! ## Changes -/

/-- A header that gets a type that it knows stays sound. -/
theorem Sound.grow (hb : b.Sound allowed) (hgrows : b.Grows b') {t : CType}
    (hadds : b.spaces.Adds b'.spaces t) (hknows : ∀ u ∈ t.parts, b'.Knows allowed u)
    (hentries : ∀ kind name t, b'.aggregate? kind name = some t →
      b.aggregate? kind name = some t ∨
        t = .placeholder kind name ∨ ∃ members, t = .aggregate kind (some name) members) :
    b'.Sound allowed where
  knows u hu v hv := by
    rcases hadds.mem_allTypes hu with rfl | hold
    · exact hknows v hv
    · exact (hb.knows u hold v hv).mono hgrows
  entries kind name t ht := by
    rcases hentries kind name t ht with hold | hnew
    · exact hb.entries kind name t hold
    · exact hnew

theorem Sound.setAggregate (hb : b.Sound allowed) {kind : TagKind} {name : String} {t : CType}
    (hgrows : b.Grows (b.setAggregate kind name t))
    (hknows : ∀ u ∈ t.parts, (b.setAggregate kind name t).Knows allowed u)
    (hentry : t = .placeholder kind name ∨ ∃ members, t = .aggregate kind (some name) members) :
    (b.setAggregate kind name t).Sound allowed := by
  refine hb.grow hgrows (b.spaces.adds_aggregates kind name t) hknows fun kind' name' t' ht' => ?_
  rw [get?_setAggregate] at ht'
  split at ht'
  · next heq =>
    obtain ⟨rfl, rfl⟩ := heq
    obtain rfl := Option.some.inj ht'
    exact .inr hentry
  · exact .inl ht'

theorem Sound.defineEnum (hb : b.Sound allowed) {key : String} {t : CType}
    (h : b.defineEnum key t = .ok b') (hknows : ∀ u ∈ t.parts, b'.Knows allowed u) :
    b'.Sound allowed := by
  have hgrows := grows_defineEnum h
  rcases defineEnum_cases h with ⟨rfl, -⟩ | ⟨rfl, -⟩
  · exact hb.grow hgrows ⟨5, b.spaces.enums, by simp [Namespaces.maps], key, rfl⟩ hknows
      fun _ _ _ ht => .inl ht
  · exact hb

/-- A change to the tags and the enumerators keeps that a header knows what occurs in it. -/
theorem TagChange.sound (hb : b.Sound allowed) (h : b.TagChange allowed b') :
    b'.Sound allowed := by
  have hgrows := h.grows
  cases h with
  | declare kind name =>
    unfold Builder.declare at hgrows ⊢
    split
    · exact hb
    · next hnone =>
      rw [hnone] at hgrows
      have hget := get?_setAggregate b kind kind name name (.placeholder kind name)
      rw [if_pos ⟨rfl, rfl⟩] at hget
      exact hb.setAggregate hgrows (List.forall_mem_singleton.mpr (Option.isSome_of_eq_some hget))
        (.inl rfl)
  | @define _ kind name members hmembers h =>
    have hget := get?_define h kind name
    rw [if_pos ⟨rfl, rfl⟩] at hget
    have hknows : ∀ u ∈ (CType.aggregate kind (some name) members).parts, b'.Knows allowed u := by
      rw [CType.parts, List.forall_mem_cons, CType.forall_memberParts]
      refine ⟨fun name' hname => ?_, fun m hm u hu => ((hmembers m hm).knows hb u hu).mono hgrows⟩
      obtain rfl := Option.some.inj hname
      exact hget
    -- the definition is new, or the one that is there already
    rcases define_cases h with ⟨rfl, -⟩ | ⟨rfl, -⟩
    · exact hb.setAggregate hgrows hknows (.inr ⟨members, rfl⟩)
    · exact hb
  | @defineEnum _ name values hbody h =>
    refine hb.defineEnum h (List.forall_mem_singleton.mpr ⟨hbody, fun name' hname => ?_⟩)
    obtain rfl := Option.some.inj hname
    rw [get?_defineEnum h, if_pos rfl]
  | enumerator => exact ⟨hb.knows, hb.entries⟩

/-- One change keeps that a header knows what occurs in it. -/
theorem Change.sound (hb : b.Sound allowed) (h : b.Change allowed b') : b'.Sound allowed := by
  have hgrows := h.grows
  have hknows : ∀ {t : CType}, b.Denotes allowed t → ∀ u ∈ t.parts, b'.Knows allowed u :=
    fun hdenotes u hu => (hdenotes.knows hb u hu).mono hgrows
  cases h with
  | tag h => exact h.sound hb
  | untagged hdenotes h => exact hb.defineEnum h (hknows hdenotes)
  | function name hdenotes =>
    exact hb.grow hgrows ⟨0, b.spaces.functions, by simp [Namespaces.maps], name, rfl⟩
      (hknows hdenotes) fun _ _ _ ht => .inl ht
  | global name hdenotes =>
    exact hb.grow hgrows ⟨1, b.spaces.globals, by simp [Namespaces.maps], name, rfl⟩
      (hknows hdenotes) fun _ _ _ ht => .inl ht
  | typedef name hdenotes =>
    exact hb.grow hgrows ⟨2, b.spaces.types, by simp [Namespaces.maps], name, rfl⟩
      (hknows hdenotes) fun _ _ _ ht => .inl ht

theorem sound_empty (name : String) : (⟨name, {}, .empty⟩ : Builder).Sound allowed where
  knows := nofun
  entries kind name t h := by cases kind <;> cases h

/-- Changes in a row keep that a header knows what occurs in it. -/
theorem Becomes.sound (hb : b.Sound allowed) (h : b.Becomes allowed b') : b'.Sound allowed := by
  induction h with
  | refl => exact hb
  | tail _ hchange ih => exact hchange.sound ih

/-! ## Coherence -/

/-- What the types of a header say under a tag is what the header has under the tag. -/
structure Coherent (b : Builder) : Prop where
  bodies : ∀ t ∈ b.spaces.allTypes, ∀ kind name members,
    .aggregate kind (some name) members ∈ t.parts →
      b.aggregate? kind name = some (.aggregate kind (some name) members)
  placeholders : ∀ t ∈ b.spaces.allTypes, ∀ kind name,
    .placeholder kind name ∈ t.parts → (b.aggregate? kind name).isSome
  entries : ∀ kind name t, b.aggregate? kind name = some t →
    t = .placeholder kind name ∨ ∃ members, t = .aggregate kind (some name) members
  enums : ∀ t ∈ b.spaces.allTypes, ∀ name values,
    .enum (some name) values ∈ t.parts → b.enum? name = some (.enum (some name) values)

/-- **The tags of a header belong together**, whatever has been translated and wherever a
translation has failed. -/
theorem coherent_after (name : String) (batches : List Batch) :
    ((⟨name, {}, .empty⟩ : Builder).after batches).Coherent := by
  have hbecomes := @after_becomes (fun _ => True) batches (fun _ _ _ _ _ _ => trivial)
    ⟨name, {}, .empty⟩
  have hsound := hbecomes.sound (sound_empty name)
  exact {
    bodies := fun t ht kind name members hu => hsound.knows t ht _ hu name rfl
    placeholders := fun t ht kind name hu => hsound.knows t ht _ hu
    entries := hsound.entries
    enums := fun t ht name values hu => (hsound.knows t ht _ hu).2 name rfl }

end Builder

end ForeignCall
