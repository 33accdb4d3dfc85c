import ForeignCall.Header.Basic
import ForeignCall.Proofs.Header.Contributions

/-!
# ForeignCall.Proofs.Header.Survival

Which enumerators a header still has when its declarations are complete. While declarations are
translated every enumerator is known; the header that is made of them in the end finds its
enumerators in the types that are stored.

* `Declaration.translate_leaves` — what the translation of a declaration leaves in the types;
* `translateUnit_collects` — a file leaves there nothing but what it keeps;
* **`Builder.enumerators_of_frozen`** — the header has no enumerators but those of the file, and it
  has those that last.
-/

namespace ForeignCall

open Namespaces (enumeratorsOf)

open Builder Context

/-! ## Declarations -/

namespace Builder

variable {b b' b'' : Builder}

/-- What a declaration leaves in the types: what it carries in the type of its name, and what is
anchored in the types of tags. -/
structure Leaves (b : Builder) (place : Option Place) (names carried anchored : List String)
    (b' : Builder) : Prop where
  collects : ∃ added, (added.map (·.1)).Perm names ∧
    b.Collects [place] added (carried ++ anchored) b'
  carries : ∀ n ∈ carried, ∃ v e, e.place? = place ∧ b'.Has e (n, v)
  anchors : ∀ n ∈ anchored, ∃ v e, e.place? = none ∧ b'.Has e (n, v)

variable {names carried anchored : List String} {found : List NamedValue}

/-- A part that nothing holds on to. -/
theorem Contributes.leaves (h : b.Contributes names carried anchored found b') :
    b.Leaves none names [] anchored b' := by
  obtain ⟨⟨added, hnames, hadds, -⟩, -⟩ := h
  exact ⟨⟨added, hnames, hadds.enumerators, fun _ => hadds.keeps, hadds.stores⟩, nofun,
    hadds.reached⟩

/-- A part whose type is given to a name. -/
theorem Contributes.leaves_named {t : CType} {e : Entry} {place : Place}
    (h : b.Contributes names carried anchored (enumeratorsOf t) b') (hset : b'.Sets e t b'')
    (he : e.place? = some place) : b.Leaves (some place) names carried anchored b'' := by
  obtain ⟨⟨added, hnames, hadds, hfound⟩, hholds⟩ := h
  have hother : ∀ {e'}, e'.place? = none ∨ e'.place? ∉ [some place] → e' ≠ e := by
    rintro e' hplace rfl
    simp [he] at hplace
  refine ⟨⟨added, hnames, hset.enumerators.trans hadds.enumerators, ?_,
    hadds.stores_sets hset hfound⟩, ?_, ?_⟩
  · exact fun he' hp => (hset.has_of_ne (hother he')).mpr (hadds.keeps hp)
  · intro n hn
    obtain ⟨v, hv⟩ := hholds n hn
    exact ⟨v, e, he, hset.has.mpr hv⟩
  · intro n hn
    obtain ⟨v, e', he', hp⟩ := hadds.reached n hn
    exact ⟨v, e', he', (hset.has_of_ne (hother (.inl he'))).mpr hp⟩

end Builder

section Declarations

variable {b b' b'' : Builder} {target : Target} {pack : Nat}

/-- A type that is an enum without a tag is an enum body, or a reference that carries nothing. -/
theorem TypeNode.carried_eq_nil {cx : Context} {values : List (String × Int64)} : (t : TypeNode) →
    (∀ es, t ≠ .enum none (some es)) →
    runFrom b (t.translate cx) = (.ok (.enum none values), b') → t.carried = []
  | .identifier _, _, _ | .aggregate _ _ none, _, _ | .enum _ none, _, _ | .other .., _, _ => rfl
  | .pointer _, _, h | .array _ none, _, h | .function none .., _, h => by
    rw [TypeNode.translate, runFrom_bind_eq_ok] at h
    obtain ⟨u, b₁, -, h⟩ := h
    exact nomatch h
  | .array _ (some dim), _, h => by
    rw [TypeNode.translate, runFrom_bind_eq_ok] at h
    obtain ⟨u, b₁, -, h⟩ := h
    rw [runFrom_bind_eq_ok] at h
    obtain ⟨n, b₂, -, h⟩ := h
    exact nomatch h
  | .function (some params) .., _, h => by
    rw [TypeNode.translate] at h
    split at h
    · rw [runFrom_bind_eq_ok] at h
      obtain ⟨members, b₁, -, h⟩ := h
      rw [runFrom_bind_eq_ok] at h
      obtain ⟨ret, b₂, -, h⟩ := h
      exact nomatch h
    · rw [runFrom_bind_eq_ok] at h
      obtain ⟨members, b₁, -, h⟩ := h
      rw [runFrom_bind_eq_ok] at h
      obtain ⟨ret, b₂, -, h⟩ := h
      exact nomatch h
  | .aggregate kind none (some fields), _, h => by
    rw [TypeNode.translate, runFrom_bind_eq_ok] at h
    obtain ⟨members, b₁, -, h⟩ := h
    exact nomatch h
  | .aggregate kind (some tag) (some fields), _, h => by
    rw [TypeNode.translate, runFrom_bind_eq_ok] at h
    obtain ⟨members, b₁, -, h⟩ := h
    exact nomatch (defineTag_eq_ok h).1
  | .enum none (some es), ht, _ => absurd rfl (ht es)
  | .enum (some tag) (some es), _, h => by
    rw [TypeNode.translate, runFrom_bind_eq_ok] at h
    obtain ⟨values', b₁, -, h⟩ := h
    exact nomatch (defineEnumTag_eq_ok h).1

theorem storeNameless_eq_ok {u : CType} (h : runFrom b (storeNameless u) = (.ok (), b')) :
    (∃ tag values, u = .enum none values ∧ b.defineEnum tag u = .ok b') ∨
      (∀ v values, u ≠ .enum none (v :: values)) ∧ b = b' := by
  unfold storeNameless at h
  split at h
  · exact .inl ⟨_, _, rfl, store_eq_ok h⟩
  · next hu =>
    cases h
    exact .inr ⟨fun v values => hu v.1 v.2 values, rfl⟩

/-- A declaration without a name stores what stands alone. -/
theorem storeNameless_contributes {t : TypeNode} {coord : Option Coord} {u : CType}
    (hu : runFrom b (t.translate ⟨target, pack, coord⟩) = (.ok u, b'))
    (h : runFrom b' (storeNameless u) = (.ok (), b'')) :
    b.Contributes t.enumBodies.flatten t.carried
      (Declarator.alone ⟨none, t, coord⟩ ++ t.anchored) (enumeratorsOf u) b'' := by
  have hcontributes := TypeNode.translate_contributes _ t hu
  by_cases hbody : ∃ es, t = .enum none (some es)
  · obtain ⟨es, rfl⟩ := hbody
    rcases storeNameless_eq_ok h with ⟨tag, values, -, hdefine⟩ | ⟨hempty, rfl⟩
    · exact hcontributes.tagSet (tagSet_defineEnum hdefine) rfl
    · -- nothing has been stored, because the body is empty
      rw [TypeNode.translate, runFrom_bind_eq_ok] at hu
      obtain ⟨values, b₁, -, hu⟩ := hu
      cases hu
      cases values with
      | nil =>
        have hnames : es.map (·.name) = [] := by
          refine List.eq_nil_iff_forall_not_mem.mpr fun n hn => ?_
          obtain ⟨v, hv⟩ := hcontributes.holds n hn
          exact nomatch hv
        rw [Declarator.alone, hnames]
        exact hcontributes
      | cons v values => exact absurd rfl (hempty v values)
  · have hnone : Declarator.alone ⟨none, t, coord⟩ = [] := by
      unfold Declarator.alone
      split
      · next es coord' heq =>
        cases heq
        exact absurd ⟨es, rfl⟩ hbody
      · rfl
    rw [hnone]
    rcases storeNameless_eq_ok h with ⟨tag, values, rfl, hdefine⟩ | ⟨-, rfl⟩
    · rw [TypeNode.carried_eq_nil t (fun es heq => hbody ⟨es, heq⟩) hu] at hcontributes ⊢
      exact hcontributes.tagSet (tagSet_defineEnum hdefine) rfl
    · exact hcontributes

theorem Declarator.translate_leaves {d : Declarator TypeNode}
    (h : runFrom b (d.translate target pack) = (.ok (), b')) :
    b.Leaves (d.name.map .ordinary) d.type.enumBodies.flatten d.carried
      (d.alone ++ d.type.anchored) b' := by
  unfold Declarator.translate at h
  rw [runFrom_bind_eq_ok] at h
  obtain ⟨u, b₁, hu, h⟩ := h
  have hcontributes := TypeNode.translate_contributes _ d.type hu
  obtain ⟨name, t, coord⟩ := d
  cases name with
  | none => exact (storeNameless_contributes hu h).leaves
  | some name =>
    have hset : ∃ e : Entry, e.place? = some (.ordinary name) ∧ b₁.Sets e u b' := by
      cases u with
      | func params ret variadic =>
        cases h
        exact ⟨.function name, rfl, sets_addFunction b₁ name _⟩
      | void | integral | floating | special | pointer | array | placeholder | aggregate | enum =>
        cases h
        exact ⟨.global name, rfl, sets_addVariable b₁ name _⟩
    obtain ⟨e, he, hset⟩ := hset
    exact hcontributes.leaves_named hset he

theorem Declaration.translate_leaves {d : Declaration}
    (h : runFrom b (d.translate target pack) = (.ok (), b')) :
    b.Leaves d.place? d.enumBodies.flatten d.carried d.anchored b' := by
  cases d with
  | decl d => exact Declarator.translate_leaves h
  | funcDef d => exact Declarator.translate_leaves h
  | typedef d =>
    obtain ⟨name, t, coord⟩ := d
    cases name with
    | none => exact nomatch h
    | some name =>
      unfold Declaration.translate at h
      dsimp only at h
      rw [runFrom_bind_eq_ok] at h
      obtain ⟨u, b₁, hu, h⟩ := h
      cases h
      exact (TypeNode.translate_contributes _ t hu).leaves_named (sets_addTypedef b₁ name u) rfl
  | pragma text =>
    cases h
    exact (Contributes.nothing (List.forall_mem_nil _)).leaves
  | other kind text => exact nomatch h

/-- **A file leaves nothing in the types but what it keeps**, and what lasts of that is found there
in the end. -/
theorem translateUnit_collects {unit : TranslationUnit}
    (h : runFrom b (translateUnit target pack unit) = (.ok (), b')) :
    (∃ added, (added.map (·.1)).Perm (unitEnumerators unit) ∧
      b.Collects (unit.map Declaration.place?) added (unitKept unit) b') ∧
    ∀ n ∈ unitLasting unit, ∃ v, b'.Stores (n, v) := by
  unfold translateUnit at h
  induction unit generalizing b with
  | nil =>
    cases h
    exact ⟨⟨[], .nil, .refl _⟩, nofun⟩
  | cons d ds ih =>
    rw [List.forM, runFrom_bind_eq_ok] at h
    obtain ⟨x, b₁, hd, h⟩ := h
    obtain ⟨⟨added, hnames, hfirst⟩, hcarries, hanchors⟩ := Declaration.translate_leaves hd
    obtain ⟨⟨added', hnames', hrest⟩, hlasting⟩ := ih h
    refine ⟨⟨added ++ added', ?_, ?_⟩, fun n hn => ?_⟩
    · rw [List.map_append, unitEnumerators, List.flatMap_cons, List.flatten_append]
      exact hnames.append hnames'
    · exact hfirst.trans hrest
    · rcases List.mem_append.mp hn with hn | hn
      · split at hn
        · obtain ⟨v, e, he, hp⟩ := hanchors n hn
          exact ⟨v, e, hrest.has (.inl he) hp⟩
        · next hplace =>
          rcases List.mem_append.mp hn with hn | hn
          · obtain ⟨v, e, he, hp⟩ := hcarries n hn
            exact ⟨v, e, hrest.has (.inr (he ▸ hplace)) hp⟩
          · obtain ⟨v, e, he, hp⟩ := hanchors n hn
            exact ⟨v, e, hrest.has (.inl he) hp⟩
      · exact hlasting n hn

end Declarations

/-! ## The header in the end -/

namespace Builder

variable {unit : TranslationUnit} {name : String} {b : Builder}

theorem not_stores_empty (name : String) (p : NamedValue) : ¬Stores ⟨name, {}, .empty⟩ p :=
  fun hp => List.not_mem_nil (stores_iff.mp hp)

/-- **The enumerators of a header are those that its types hold on to.** When a file has been
translated that declares no enumerator twice, every enumerator of the file is known. The header that
is made of it has no others, and those that it has are what they were. It has all that last, and
none but those that are kept; so it has all enumerators of a file that keeps and does not replace
them, and of no file that does not keep them. -/
theorem enumerators_of_frozen (target : Target) (pack : Nat)
    (hdistinct : (unitEnumerators unit).Nodup)
    (h : runFrom ⟨name, {}, .empty⟩ (translateUnit target pack unit) = (.ok (), b)) :
    (∀ n, (b.enumerator? n).isSome ↔ n ∈ unitEnumerators unit) ∧
    (∀ n v, b.freeze.enumValue? n = some v → b.enumerators.get? n = some v) ∧
    (∀ n ∈ unitLasting unit, ∃ v, b.freeze.enumValue? n = some v ∧
      b.enumerators.get? n = some v) ∧
    (∀ n, (b.freeze.enumValue? n).isSome → n ∈ unitKept unit) ∧
    (unitEnumerators unit ⊆ unitLasting unit →
      ∀ n, b.freeze.enumValue? n = b.enumerators.get? n) ∧
    ((∀ n, b.freeze.enumValue? n = b.enumerators.get? n) →
      unitEnumerators unit ⊆ unitKept unit) := by
  obtain ⟨⟨added, hnames, hcollects⟩, hlasting⟩ := translateUnit_collects h
  have hvalue : ∀ n v, b.enumerators.get? n = some v ↔ (n, v) ∈ added := by
    rw [hcollects.enumerators]
    exact Namespace.get?_ofList_eq_some_iff (hnames.nodup_iff.mpr hdistinct)
  have hknown : ∀ n, (b.enumerators.get? n).isSome ↔ n ∈ unitEnumerators unit := by
    intro n
    rw [Option.isSome_iff_exists, ← hnames.mem_iff]
    simp [hvalue]
  have hstores : ∀ n v, b.freeze.enumValue? n = some v → (n, v) ∈ added ∧ n ∈ unitKept unit := by
    intro n v hv
    have hp : b.Stores (n, v) := stores_iff.mpr (Namespace.mem_of_get?_ofList hv)
    exact (hcollects.stores hp).resolve_left (not_stores_empty name _)
  have hother : ∀ n v, b.freeze.enumValue? n = some v → b.enumerators.get? n = some v :=
    fun n v hv => (hvalue n v).mpr (hstores n v hv).1
  have hlast : ∀ n ∈ unitLasting unit, ∃ v, b.freeze.enumValue? n = some v ∧
      b.enumerators.get? n = some v := by
    intro n hn
    obtain ⟨v, hv⟩ := hlasting n hn
    obtain ⟨w, hw⟩ := Option.isSome_iff_exists.mp
      (Namespace.isSome_get?_ofList (stores_iff.mp hv))
    exact ⟨w, hw, hother n w hw⟩
  have hkept : ∀ n, (b.freeze.enumValue? n).isSome → n ∈ unitKept unit := by
    intro n hn
    obtain ⟨v, hv⟩ := Option.isSome_iff_exists.mp hn
    exact (hstores n v hv).2
  refine ⟨fun n => ?_, hother, hlast, hkept, fun hall n => ?_, fun hall n hn => ?_⟩
  · rw [enumerator?, Option.isSome_map, hknown]
  · by_cases hn : n ∈ unitEnumerators unit
    · obtain ⟨v, hfrozen, hv⟩ := hlast n (hall hn)
      rw [hfrozen, hv]
    · rw [← hknown, Option.not_isSome_iff_eq_none] at hn
      cases hv : b.freeze.enumValue? n with
      | none => exact hn.symm
      | some v => exact (hother n v hv).symm
  · exact hkept n (by rwa [hall n, hknown])

end Builder

/-- `enum { LIMIT = 64 }; typedef enum mode { OFF, ON } mode;` -/
def limitUnit : TranslationUnit := [
  .decl ⟨none, .enum none (some [⟨"LIMIT", some (.literal .int "64")⟩]), none⟩,
  .typedef ⟨some "mode", .enum (some "mode") (some [⟨"OFF", none⟩, ⟨"ON", none⟩]), none⟩]

/-- Nothing of this file gets lost. -/
theorem Builder.enumerators_of_limitUnit :
    ∃ b : Builder,
      (unitEnumerators limitUnit).Nodup ∧
      runFrom ⟨"limit.h", {}, .empty⟩ (translateUnit .lp64 8 limitUnit) = (.ok (), b) ∧
      b.freeze.enumValue? "LIMIT" = some ⟨64, none⟩ ∧
      ∀ n, b.freeze.enumValue? n = b.enumerators.get? n := by
  have hdistinct : (unitEnumerators limitUnit).Nodup := by decide
  have hrun : runFrom ⟨"limit.h", {}, .empty⟩ (translateUnit .lp64 8 limitUnit) =
      (.ok (), (runFrom ⟨"limit.h", {}, .empty⟩ (translateUnit .lp64 8 limitUnit)).2) :=
    Prod.ext (by decide +kernel) rfl
  refine ⟨_, hdistinct, hrun, by decide +kernel, ?_⟩
  exact (enumerators_of_frozen .lp64 8 hdistinct hrun).2.2.2.2.1 (by decide)

/-- `char buffer[sizeof(enum { A })];` -/
def bufferUnit : TranslationUnit := [
  .decl ⟨some "buffer", .array (.identifier ["char"])
    (some (.sizeofType (.enum none (some [⟨"A", none⟩])))), none⟩]

/-- An enumerator in an operand of `sizeof` is known, but the header does not have it. -/
theorem Builder.lost_in_sizeof :
    ∃ b : Builder,
      (unitEnumerators bufferUnit).Nodup ∧
      runFrom ⟨"buffer.h", {}, .empty⟩ (translateUnit .lp64 8 bufferUnit) = (.ok (), b) ∧
      b.enumerator? "A" = some 0 ∧ b.freeze.enumValue? "A" = none := by
  refine ⟨(runFrom ⟨"buffer.h", {}, .empty⟩ (translateUnit .lp64 8 bufferUnit)).2, by decide,
    Prod.ext ?_ rfl, ?_, ?_⟩
  · decide +kernel
  · decide +kernel
  · decide +kernel

end ForeignCall
