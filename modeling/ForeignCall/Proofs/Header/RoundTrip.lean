import ForeignCall.Header.Document
import ForeignCall.Proofs.CType.RoundTrip
import ForeignCall.Proofs.Header.Coherence

/-!
# ForeignCall.Proofs.Header.RoundTrip

Which headers read back from their documents. The names and the macros always do. A type does
unless an enum in it repeats an enumerator: the enumerators are the members of an object, and of two
with one name an object keeps one. A header of declarations has no other type that is lost.

* `Header.ofDocument_toDocument_iff` — a header reads back when its types do;
* `Header.lossless_iff_distinct_enumerators` — the headers that are made of declarations.
-/

namespace ForeignCall

/-! ## Lists -/

theorem mapM_eq_ok_iff {α β ε : Type} {f : α → Except ε β} {as : List α} {bs : List β} :
    as.mapM f = .ok bs ↔ List.Forall₂ (fun a b => f a = .ok b) as bs := by
  induction as generalizing bs with
  | nil => cases bs <;> simp [pure, Except.pure]
  | cons a as ih =>
    rw [List.mapM_cons, except_bind_eq_ok, List.forall₂_cons_left_iff]
    constructor
    · rintro ⟨b, hb, h⟩
      obtain ⟨bs', hbs', h⟩ := except_bind_eq_ok.mp h
      obtain rfl := Except.ok.inj h
      exact ⟨b, bs', hb, ih.mp hbs', rfl⟩
    · rintro ⟨b, bs', hb, hbs', rfl⟩
      exact ⟨b, hb, except_bind_eq_ok.mpr ⟨bs', ih.mpr hbs', rfl⟩⟩

/-- Items that are read one by one are read in a row. -/
theorem mapM_map_eq_some {α β γ : Type} {read : β → Option γ} {write : α → β} {value : α → γ}
    {as : List α} (h : ∀ a ∈ as, read (write a) = some (value a)) :
    (as.map write).mapM read = some (as.map value) := by
  induction as with
  | nil => rfl
  | cons a as ih =>
    rw [List.forall_mem_cons] at h
    rw [List.map_cons, List.mapM_cons, h.1, ih h.2]
    rfl

/-! ## Macros -/

theorem Macro.ofJson?_toJson (d : Macro) : Macro.ofJson? d.name d.toJson = some d := by
  obtain ⟨name, params, replacement⟩ := d
  have hparams : readParams (some (.opt (fun ps => .arr (ps.map .str)) params)) = some params := by
    cases params with
    | none => rfl
    | some ps =>
      have hps : (ps.map Json.str).mapM Json.str? = some ps :=
        (@mapM_map_eq_some _ _ _ Json.str? Json.str id ps fun _ _ => rfl).trans
          (congrArg some ps.map_id)
      rw [Json.opt, readParams, hps]
      rfl
  have hrecord : recordMembers ["as", "v"] (Macro.toJson ⟨name, params, replacement⟩) =
      some [some (.opt (fun ps => .arr (ps.map .str)) params), some (.str replacement)] := rfl
  simp only [Macro.ofJson?, hrecord, bind, Option.bind, hparams]

/-! ## Maps of types -/

/-- The maps of types with the document of each type. -/
def documents (ns : Namespace CType) : Namespace Json := ns.map fun _ t => t.encode

/-- What is read of entries has their names. -/
theorem decodeEntries_eq_ok_iff {space : String} {es : List (String × Json)}
    {es' : List (String × CType)} :
    decodeEntries space es = .ok es' ↔
      List.Forall₂ (fun e e' => e'.1 = e.1 ∧ CType.decode e.2 = .ok e'.2) es es' := by
  induction es generalizing es' with
  | nil => cases es' <;> simp [decodeEntries]
  | cons e es ih =>
    obtain ⟨name, j⟩ := e
    rw [List.forall₂_cons_left_iff, decodeEntries]
    split
    · next error herror => simp [herror]
    · next t ht =>
      rw [except_map_eq_ok]
      constructor
      · rintro ⟨es', hes', rfl⟩
        exact ⟨(name, t), es', ⟨rfl, ht⟩, ih.mp hes', rfl⟩
      · rintro ⟨⟨name', t'⟩, es', ⟨rfl, ht'⟩, hes', rfl⟩
        rw [ht] at ht'
        obtain rfl := Except.ok.inj ht'
        exact ⟨es', ih.mpr hes', rfl⟩

theorem names_of_decodeEntries {space : String} {es : List (String × Json)}
    {es' : List (String × CType)} (h : decodeEntries space es = .ok es') :
    es'.map (·.1) = es.map (·.1) := by
  have hentries := decodeEntries_eq_ok_iff.mp h
  clear h
  induction hentries with
  | nil => rfl
  | cons hentry _ ih => rw [List.map_cons, List.map_cons, hentry.1, ih]

/-- A map reads back when its types do. -/
theorem decodeSpace_documents_iff (space : String) (ns : Namespace CType) :
    decodeSpace space (documents ns) = .ok ns ↔ ∀ t ∈ ns.values, ∀ u ∈ t.parts, u.Plain := by
  have hback : decodeEntries space (documents ns).entries = .ok ns.entries ↔
      ∀ t ∈ ns.values, ∀ u ∈ t.parts, u.Plain := by
    rw [decodeEntries_eq_ok_iff, documents, Namespace.map, List.forall₂_map_left_iff,
      List.forall₂_same, Namespace.values, List.forall_mem_map]
    simp [CType.decode_encode_iff]
  rw [← hback, decodeSpace, except_map_eq_ok]
  constructor
  · rintro ⟨es, hes, hns⟩
    -- what is read has the names of the entries, so it is as sorted as they are
    have hascending : Ascending es := by
      have hnames := names_of_decodeEntries hes
      have hsorted := (documents ns).ascending
      unfold Ascending at hsorted ⊢
      rw [← List.pairwise_map] at hsorted ⊢
      rwa [hnames]
    rw [← hns, Namespace.entries_ofList hascending]
    rwa [hns]
  · exact fun h => ⟨ns.entries, h, ns.ofList_entries⟩

/-! ## Headers -/

namespace Header

theorem macros_toDocument {macros : Namespace Macro}
    (h : ∀ name d, macros.get? name = some d → d.name = name) :
    (macros.entries.map fun (n, d) => (n, d.toJson)).mapM
      (fun (n, d) => (Macro.ofJson? n d).map fun d => (n, d)) = some macros.entries := by
  refine (mapM_map_eq_some fun e he => ?_).trans (congrArg some macros.entries.map_id)
  obtain ⟨name, d⟩ := e
  obtain rfl := h name d ((macros.get?_eq_some_iff name d).mpr he)
  simp [Macro.ofJson?_toJson]

theorem parts_toDocument {h : Header}
    (hmacros : ∀ name d, h.spaces.macros.get? name = some d → d.name = name) :
    HeaderParts.ofJson? h.toDocument =
      some ⟨h.name, h.spaces.macros, typeSpaces.zip (h.spaces.maps.map documents)⟩ := by
  have hrecord : recordMembers (["name", "macros"] ++ typeSpaces) h.toDocument =
      some (some (.str h.name) ::
        some (.obj (h.spaces.macros.entries.map fun (n, d) => (n, d.toJson))) ::
          h.spaces.maps.map (some ∘ typesJson)) := rfl
  have hmaps : (h.spaces.maps.map (some ∘ typesJson)).mapM
      (fun s => (readMembers s).map Namespace.ofList) = some (h.spaces.maps.map documents) :=
    mapM_map_eq_some fun ns _ => congrArg some (documents ns).ofList_entries
  have hread (members : List (String × Json)) : readMembers (some (.obj members)) = some members :=
    rfl
  have hds := macros_toDocument hmacros
  rw [HeaderParts.ofJson?, hrecord]
  simp only [Option.bind_eq_bind, Option.bind_some, hread, hds, hmaps, Namespace.ofList_entries]

/-- **A header whose macros are under their names reads back exactly when its types do.** -/
theorem ofDocument_toDocument_iff {h : Header}
    (hmacros : ∀ name d, h.spaces.macros.get? name = some d → d.name = name) :
    ofDocument h.toDocument = .ok h ↔ ∀ t ∈ h.spaces.allTypes, ∀ u ∈ t.parts, u.Plain := by
  have hspaces : (typeSpaces.zip (h.spaces.maps.map documents)).mapM
      (fun p => decodeSpace p.1 p.2) = .ok h.spaces.maps ↔
        ∀ t ∈ h.spaces.allTypes, ∀ u ∈ t.parts, u.Plain := by
    simp only [mapM_eq_ok_iff, Namespaces.mem_allTypes, Namespaces.maps, typeSpaces, List.map_cons,
      List.map_nil, List.zip_cons_cons, List.zip_nil_left, List.forall₂_cons,
      List.forall₂_nil_right_iff, decodeSpace_documents_iff]
    simp [or_imp, forall_and]
  rw [← hspaces, ofDocument, parts_toDocument hmacros]
  dsimp only
  rw [except_bind_eq_ok]
  constructor
  · rintro ⟨maps, hmaps, hheader⟩
    change (typeSpaces.zip (h.spaces.maps.map documents)).mapM
      (fun p => decodeSpace p.1 p.2) = _ at hmaps
    split at hheader
    · rw [hmaps, ← Except.ok.inj hheader]
      rfl
    · cases hheader
  · exact fun hmaps => ⟨_, hmaps, rfl⟩

end Header

/-! ## Headers of declarations -/

namespace Builder

variable {allowed : List String → Prop} {b : Builder}

/-- Macros are under their names. -/
theorem name_of_macro {name : String} {ds : List Macro} {key : String} {d : Macro}
    (h : ((⟨name, {}, .empty⟩ : Builder).addMacros ds).spaces.macros.get? key = some d) :
    d.name = key := by
  unfold addMacros at h
  induction ds using List.reverseRecOn with
  | nil => cases h
  | append_singleton ds d' ih =>
    rw [List.foldl_concat, addMacro] at h
    dsimp only at h
    rw [Namespace.get?_insert] at h
    split at h
    · next heq =>
      obtain rfl := Option.some.inj h
      exact heq.symm
    · exact ih h

theorem Sound.addMacros (hb : b.Sound allowed) (ds : List Macro) :
    (b.addMacros ds).Sound allowed := by
  rw [addMacros_eq]
  exact ⟨hb.knows, hb.entries⟩

/-- A known type is plain if it is no enum with a repeated enumerator. -/
theorem Knows.plain {t : CType} (h : b.Knows allowed t)
    (henum : ∀ tag values, t = .enum tag values → (values.map (·.1)).Nodup) : t.Plain := by
  cases t with
  | integral kind signed => exact h
  | enum tag values => exact henum tag values rfl
  | void | special | floating | pointer | array | aggregate | placeholder | func => trivial

/-- The header that macros and then declarations make up. -/
def collect (name : String) (ds : List Macro) (batches : List Batch) : Header :=
  (((⟨name, {}, .empty⟩ : Builder).addMacros ds).after batches).freeze

theorem sound_collect (name : String) (ds : List Macro) {batches : List Batch}
    (h : ∀ batch ∈ batches, ∀ d ∈ batch.unit, ∀ body ∈ d.enumBodies, allowed body) :
    (((⟨name, {}, .empty⟩ : Builder).addMacros ds).after batches).Sound allowed :=
  (after_becomes h _).sound ((sound_empty name).addMacros ds)

theorem ofDocument_collect_iff (name : String) (ds : List Macro) (batches : List Batch) :
    Header.ofDocument (collect name ds batches).toDocument = .ok (collect name ds batches) ↔
      ∀ t ∈ (collect name ds batches).spaces.allTypes, ∀ u ∈ t.parts, u.Plain := by
  have hgrows := ((⟨name, {}, .empty⟩ : Builder).addMacros ds).after_grows batches
  refine Header.ofDocument_toDocument_iff fun key d hd => ?_
  rw [collect, freeze, hgrows.macros_eq] at hd
  exact name_of_macro hd

end Builder

/-- **A header of macros and declarations reads back from its document exactly when no enum in its
types repeats an enumerator**, so it does when no enum body in the declarations does. -/
theorem Header.lossless_iff_distinct_enumerators (name : String) (ds : List Macro)
    (batches : List Batch) :
    (Header.ofDocument (Builder.collect name ds batches).toDocument =
        .ok (Builder.collect name ds batches) ↔
      ∀ t ∈ (Builder.collect name ds batches).spaces.allTypes, ∀ tag values,
        .enum tag values ∈ t.parts → (values.map (·.1)).Nodup) ∧
      ((∀ batch ∈ batches, ∀ d ∈ batch.unit, ∀ body ∈ d.enumBodies, body.Nodup) →
        Header.ofDocument (Builder.collect name ds batches).toDocument =
          .ok (Builder.collect name ds batches)) := by
  rw [Builder.ofDocument_collect_iff]
  refine ⟨⟨fun h t ht tag values hu => h t ht _ hu, fun h t ht u hu => ?_⟩, fun h t ht u hu => ?_⟩
  · have hsound := @Builder.sound_collect (fun _ => True) name ds batches
      fun _ _ _ _ _ _ => trivial
    exact (hsound.knows t ht u hu).plain fun tag values heq => h t ht tag values (heq ▸ hu)
  · have hknows := (Builder.sound_collect name ds h).knows t ht u hu
    refine hknows.plain fun tag values heq => ?_
    subst heq
    exact hknows.1

/-- `typedef struct node { enum { RED, BLACK = 4 } color; struct node *next; } node;` -/
def Batch.node : Batch where
  target := .lp64
  pack := 8
  unit :=
    [.typedef ⟨some "node", .aggregate .struct (some "node") (some
      [⟨some "color", .enum none (some
          [⟨"RED", none⟩, ⟨"BLACK", some (.literal .int "4")⟩]), none⟩,
        ⟨some "next", .pointer (.aggregate .struct (some "node") none), none⟩]), none⟩]

theorem Header.lossless_node :
    (∀ batch ∈ [Batch.node], ∀ d ∈ batch.unit, ∀ body ∈ d.enumBodies, body.Nodup) ∧
      Header.ofDocument (Builder.collect "node.h" [⟨"N", none, "1"⟩] [Batch.node]).toDocument =
        .ok (Builder.collect "node.h" [⟨"N", none, "1"⟩] [Batch.node]) := by
  have hbodies : ∀ batch ∈ [Batch.node], ∀ d ∈ batch.unit, ∀ body ∈ d.enumBodies, body.Nodup := by
    simp [Batch.node, Declaration.enumBodies, TypeNode.enumBodies, memberBodies, valueBodies,
      exprBodies]
  exact ⟨hbodies, (lossless_iff_distinct_enumerators "node.h" _ _).2 hbodies⟩

/-- `enum E { A, A };` -/
def Batch.repeated : Batch where
  target := .lp64
  pack := 8
  unit := [.decl ⟨none, .enum (some "E") (some [⟨"A", none⟩, ⟨"A", none⟩]), none⟩]

/-- A repeated enumerator is translated, but its first value is lost in the document. -/
theorem Header.lossy_repeated :
    (runFrom ⟨"e.h", {}, .empty⟩ (translateUnit .lp64 8 Batch.repeated.unit)).1 = .ok () ∧
      (Builder.collect "e.h" [] [Batch.repeated]).spaces.enums.get? "E" =
        some (.enum (some "E") [("A", 0), ("A", 1)]) ∧
      Header.ofDocument (Builder.collect "e.h" [] [Batch.repeated]).toDocument ≠
        .ok (Builder.collect "e.h" [] [Batch.repeated]) := by
  have hstored : (Builder.collect "e.h" [] [Batch.repeated]).spaces.enums.get? "E" =
      some (.enum (some "E") [("A", 0), ("A", 1)]) := by decide +kernel
  refine ⟨by decide +kernel, hstored, fun hread => ?_⟩
  rw [Builder.ofDocument_collect_iff] at hread
  have hplain := hread _ (Namespaces.mem_allTypes_of_get? (by simp [Namespaces.maps]) hstored) _
    (CType.self_mem_parts _)
  exact absurd hplain (by decide)

end ForeignCall
