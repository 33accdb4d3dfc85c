import ForeignCall.Proofs.CType.Termination

/-!
# ForeignCall.Proofs.CType.Residue

What a completion leaves open. A tag that still stands by value in a completed type has no
definition, or its definition contains the tag itself: such a type has no finite completion. Over a
store without definitions of this kind a type is completed once and for all.

* `CType.Expands` — one type is another one with definitions in the place of tags;
* `CType.Contains`, `CType.RefersTo` — the tags that stand by value in a definition, and those that
  a type refers to, directly or through definitions;
* `CType.blames_of_layout` — a layout is missing for want of a definition only where a tag is open;
* **`CType.completion_residue`** — what changes in a completion, and what stays open.
-/

namespace ForeignCall.CType

variable {defs : Definitions} {stack stack' : List Tag} {tag : Tag} {t t' : CType}

/-! ## Definitions that contain tags -/

/-- A tag has a definition: an entry in the store other than the placeholder of the tag itself. -/
def IsDefined (defs : Definitions) (tag : Tag) : Prop :=
  ∃ t, defs.get? tag = some t ∧ t ≠ .placeholder tag.kind tag.name

/-- In the definition of one tag another one stands by value. -/
def Contains (defs : Definitions) (outer inner : Tag) : Prop :=
  ∃ t, defs.get? outer = some t ∧ t ≠ .placeholder outer.kind outer.name ∧ inner ∈ t.openTags

/-- The definition of a tag contains the tag by value, directly or through other definitions. -/
def ContainsItself (defs : Definitions) (tag : Tag) : Prop :=
  Relation.TransGen (Contains defs) tag tag

/-- A type refers to a tag by value, directly or through definitions. -/
def RefersTo (defs : Definitions) (t : CType) (tag : Tag) : Prop :=
  ∃ first ∈ t.openTags, Relation.ReflTransGen (Contains defs) first tag

/-- A tag stays open in every completion. -/
def Residual (defs : Definitions) (tag : Tag) : Prop :=
  ¬IsDefined defs tag ∨ ContainsItself defs tag

/-! ## Expansions -/

/-- The second type is the first one, but where a tag stands by value its definition may stand, in
which tags are replaced in turn. Nothing else is different; what stands behind a pointer or in the
signature of a function is the same. -/
inductive Expands (defs : Definitions) : CType → CType → Prop
  | same {t : CType} (ht : t.entered = false) : Expands defs t t
  | array {base base' : CType} {dim : Option UInt64} (hbase : Expands defs base base') :
    Expands defs (.array base dim) (.array base' dim)
  | noMembers {kind : TagKind} {tag : Option String} :
    Expands defs (.aggregate kind tag []) (.aggregate kind tag [])
  | member {kind : TagKind} {tag name : Option String} {t t' : CType} {ms ms' : List (Member CType)}
    (first : Expands defs t t')
    (rest : Expands defs (.aggregate kind tag ms) (.aggregate kind tag ms')) :
    Expands defs (.aggregate kind tag (⟨name, t⟩ :: ms)) (.aggregate kind tag (⟨name, t'⟩ :: ms'))
  | kept {kind : TagKind} {name : String} :
    Expands defs (.placeholder kind name) (.placeholder kind name)
  | replaced {kind : TagKind} {name : String} {u u' : CType}
    (hget : defs.get? ⟨kind, name⟩ = some u) (hu : Expands defs u u') :
    Expands defs (.placeholder kind name) u'

theorem Completes.expands (h : Completes defs stack t t' stack') : Expands defs t t' := by
  induction h with
  | plain ht => exact .same ht
  | array hbase ih => exact .array ih
  | noMembers => exact .noMembers
  | member first rest ih ih' => exact .member ih ih'
  | kept hkept => exact .kept
  | opened hstack hget ht hbody ih => exact .replaced hget ih

/-! ## Tags that stay open -/

theorem openTags_eq_nil_of_not_entered (ht : t.entered = false) : t.openTags = [] := by
  cases t with
  | placeholder | array | aggregate => cases ht
  | void | special | integral | floating | pointer | enum | func => rfl

/-- While tags are open that contain those of the type, a completion leaves only tags without a
definition and tags that contain themselves. The type refers to each of them. -/
theorem Completes.residual (h : Completes defs stack t t' stack')
    (hstack : ∀ outer ∈ stack, ∀ inner ∈ t.openTags, Relation.TransGen (Contains defs) outer inner) :
    ∀ tag ∈ t'.openTags, RefersTo defs t tag ∧ Residual defs tag := by
  induction h with
  | plain ht =>
    rw [openTags_eq_nil_of_not_entered ht]
    exact nofun
  | array hbase ih => exact ih hstack
  | noMembers => exact nofun
  | @member stack stack₁ stack₂ kind aggregateTag name t t' ms ms' first rest ih ih' =>
    obtain rfl := first.stack_eq
    rw [openTags, memberTags] at hstack
    intro tag htag
    rw [openTags, memberTags, List.mem_append] at htag
    rcases htag with htag | htag
    · have hfirst := ih (fun outer ho inner hi => hstack outer ho inner (List.mem_append_left _ hi))
      obtain ⟨⟨o, ho, hreach⟩, hresidual⟩ := hfirst tag htag
      exact ⟨⟨o, List.mem_append_left _ ho, hreach⟩, hresidual⟩
    · have hrest := ih' (fun outer ho inner hi => hstack outer ho inner (List.mem_append_right _ hi))
      obtain ⟨⟨o, ho, hreach⟩, hresidual⟩ := hrest tag htag
      exact ⟨⟨o, List.mem_append_right _ ho, hreach⟩, hresidual⟩
  | @kept stack kind name hkept =>
    intro tag htag
    obtain rfl := List.mem_singleton.mp htag
    refine ⟨⟨_, List.mem_singleton_self _, .refl⟩, ?_⟩
    rcases hkept with hopen | hnone
    · -- the tag is being completed, so what is being completed contains it
      exact .inr (hstack _ hopen _ (List.mem_singleton_self _))
    · exact .inl fun ⟨t, hget, ht⟩ => ht (hnone t hget)
  | @opened stack stack' kind name t t' hnot hget ht hbody ih =>
    have hcontains : ∀ inner ∈ t.openTags, Contains defs ⟨kind, name⟩ inner :=
      fun inner hi => ⟨t, hget, ht, hi⟩
    intro tag htag
    have hbelow := ih (fun outer ho inner hi => by
      rcases List.mem_cons.mp ho with rfl | ho
      · exact .single (hcontains inner hi)
      · exact (hstack outer ho _ (List.mem_singleton_self _)).tail (hcontains inner hi))
    obtain ⟨⟨o, ho, hreach⟩, hresidual⟩ := hbelow tag htag
    exact ⟨⟨_, List.mem_singleton_self _, .head (hcontains o ho) hreach⟩, hresidual⟩

/-- The completion of a type starts and ends with no tag open. -/
theorem completes_complete (defs : Definitions) (t : CType) :
    Completes defs [] t (complete defs t) [] :=
  completes_substitute fun tag _ =>
    completes_completeTag (Nat.lt_succ_of_le (remaining_le defs [])) tag

theorem residual_of_mem_complete (htag : tag ∈ (complete defs t).openTags) :
    RefersTo defs t tag ∧ Residual defs tag :=
  (completes_complete defs t).residual nofun tag htag

/-! ## Types that are complete -/

theorem completeTag_of_not_isDefined (htag : ¬IsDefined defs tag) (fuel : Nat)
    (visiting : List Tag) : completeTag defs fuel visiting tag = .placeholder tag.kind tag.name := by
  cases fuel with
  | zero => rfl
  | succ fuel =>
    rw [completeTag]
    split
    · rfl
    · split
      · rfl
      · next t hget =>
        split
        · next ht => exact ht
        · next ht => exact absurd ⟨t, hget, ht⟩ htag

theorem substitute_placeholder (t : CType) :
    substitute (fun tag => .placeholder tag.kind tag.name) t = t := by
  induction t with
  | array base dim ih => rw [substitute, ih]
  | aggregate kind tag members ih =>
    rw [substitute, substituteMembers_eq_map]
    congr 1
    have hmembers : ∀ m ∈ members, Member.mk m.name
        (substitute (fun tag => .placeholder tag.kind tag.name) m.type) = id m :=
      fun m hm => by rw [ih m hm, id]
    exact (List.map_congr_left hmembers).trans (List.map_id members)
  | placeholder | void | special | integral | floating | pointer | enum | func => rfl

/-- A type whose open tags have no definitions is its own completion. -/
theorem complete_eq_self (h : ∀ tag ∈ t.openTags, ¬IsDefined defs tag) : complete defs t = t :=
  (substitute_congr fun tag htag => completeTag_of_not_isDefined (h tag htag) ..).trans
    (substitute_placeholder t)

/-! ## Layouts that are missing -/

section Layouts

variable {target : Target} {pack : Nat} {ms : List (Member CType)} {u : CType}

/-- The type that is blamed for a missing layout is a tag that stands by value. -/
def Blames (u : CType) (tags : List Tag) : Prop := ∃ tag ∈ tags, u = .placeholder tag.kind tag.name

theorem Blames.mono {tags tags' : List Tag} (h : Blames u tags) (hsub : tags ⊆ tags') :
    Blames u tags' := by
  obtain ⟨tag, htag, hu⟩ := h
  exact ⟨tag, hsub htag, hu⟩

theorem blames_of_placeMembers {α : Type}
    {join : α → Member CType → Placement → Except LayoutError α}
    (hjoin : ∀ a m p, join a m p ≠ .error (.unknownBody u))
    (hplace : ∀ m ∈ ms, place target pack m.type = .error (.unknownBody u) →
      Blames u m.type.openTags)
    {a : α} (h : placeMembers target pack join a ms = .error (.unknownBody u)) :
    Blames u (memberTags ms) := by
  rcases placeMembers_error_cases h with ⟨m, hm, hmissing⟩ | ⟨m, -, a', p, -, hjoined⟩
  · exact (hplace m hm hmissing).mono fun tag htag => mem_memberTags.mpr ⟨m, hm, htag⟩
  · exact absurd hjoined (hjoin a' m p)

/-- A layout is missing for want of a definition only where a tag stands by value. -/
theorem blames_of_place (h : place target pack t = .error (.unknownBody u)) :
    Blames u t.openTags := by
  induction t with
  | placeholder kind name =>
    cases h
    exact ⟨_, List.mem_singleton_self _, rfl⟩
  | array base dim ih =>
    cases dim with
    | none => cases h
    | some dim =>
      simp only [place_array, except_bind_eq_error] at h
      rcases h with hbase | ⟨element, -, harray⟩
      · exact ih hbase
      · rcases arrayOf_error_cases harray with ⟨-, h⟩ | h | h <;> cases h
  | aggregate kind tag members ih =>
    cases kind with
    | struct =>
      simp only [place_struct, except_bind_eq_error] at h
      rcases h with hmembers | ⟨s, -, hfinish⟩
      · refine blames_of_placeMembers (fun s m p hjoin => ?_) ih hmembers
        rcases joinStruct_error_cases hjoin with ⟨-, h⟩ | h | h <;> cases h
      · rcases alignUp_error_cases (except_map_eq_error.mp hfinish) with ⟨-, h⟩ | h <;> cases h
    | union =>
      simp only [place_union, except_bind_eq_error] at h
      rcases h with hmembers | ⟨v, -, hfinish⟩
      · exact blames_of_placeMembers (fun _ _ _ hjoin => nomatch eq_of_joinUnion_eq_error hjoin) ih
          hmembers
      · exact nomatch eq_of_unionFinish_eq_error hfinish
  | void | special | integral | floating | pointer | enum | func => cases h

theorem blames_of_layout (h : layout target pack t = .error (.unknownBody u)) :
    Blames u t.openTags := by
  unfold layout at h
  split at h
  · exact blames_of_place (except_map_eq_error.mp h)
  · cases h

end Layouts

/-! ## Completions -/

/-- **What a completion leaves open cannot be completed.** A completion puts definitions in the
place of tags that stand by value, and changes nothing else. A tag that still stands by value
afterwards has no definition or contains itself. If no tag contains itself, a completed type is
complete for good, and it lacks a size for want of a definition only if the type refers to a tag
without one. -/
theorem completion_residue (defs : Definitions) (t : CType) :
    Expands defs t (complete defs t) ∧
      (∀ tag ∈ (complete defs t).openTags, ¬IsDefined defs tag ∨ ContainsItself defs tag) ∧
        ((∀ tag, ¬ContainsItself defs tag) →
          complete defs (complete defs t) = complete defs t ∧
            ((∀ tag, RefersTo defs t tag → IsDefined defs tag) →
              ∀ target pack u, layout target pack (complete defs t) ≠ .error (.unknownBody u))) := by
  refine ⟨(completes_complete defs t).expands, fun tag htag => (residual_of_mem_complete htag).2,
    fun hacyclic => ?_⟩
  have hundefined : ∀ tag ∈ (complete defs t).openTags, ¬IsDefined defs tag :=
    fun tag htag => (residual_of_mem_complete htag).2.resolve_right (hacyclic tag)
  refine ⟨complete_eq_self hundefined, fun hdefined target pack u hlayout => ?_⟩
  obtain ⟨tag, htag, -⟩ := blames_of_layout hlayout
  exact hundefined tag htag (hdefined tag (residual_of_mem_complete htag).1)

/-! ### A line between points -/

/-- The members of a line: its ends, and a pointer to another line. -/
def lineMembers : List (Member CType) :=
  [⟨some "ends", .array (.placeholder .struct "point") (some 2)⟩,
   ⟨some "next", .pointer (.placeholder .struct "line")⟩]

/-- A store with lines and points. -/
def lines : Definitions :=
  [(⟨.struct, "line"⟩, .aggregate .struct (some "line") lineMembers),
   (⟨.struct, "point"⟩, .aggregate .struct (some "point") [⟨some "x", int⟩, ⟨some "y", int⟩])]

theorem contains_lines {outer inner : Tag} (h : Contains lines outer inner) :
    outer = ⟨.struct, "line"⟩ ∧ inner = ⟨.struct, "point"⟩ := by
  obtain ⟨t, hget, -, hinner⟩ := h
  simp only [Definitions.get?, lines, List.lookup_cons, List.lookup_nil] at hget
  split at hget
  · next houter =>
    cases hget
    exact ⟨eq_of_beq houter, by simpa [lineMembers] using hinner⟩
  · split at hget
    · cases hget
      simp [int] at hinner
    · cases hget

theorem not_containsItself_lines (tag : Tag) : ¬ContainsItself lines tag := by
  intro h
  obtain ⟨_, hfirst, -⟩ := Relation.TransGen.head'_iff.mp h
  obtain ⟨_, -, hlast⟩ := Relation.TransGen.tail'_iff.mp h
  exact absurd ((contains_lines hfirst).1.symm.trans (contains_lines hlast).2) (by decide)

theorem isDefined_of_refersTo_lines {tag : Tag}
    (h : RefersTo lines (.placeholder .struct "line") tag) : IsDefined lines tag := by
  obtain ⟨first, hfirst, hreach⟩ := h
  obtain rfl := List.mem_singleton.mp hfirst
  rcases Relation.ReflTransGen.cases_tail hreach with rfl | ⟨_, -, hlast⟩
  · exact ⟨_, rfl, nofun⟩
  · rw [(contains_lines hlast).2]
    exact ⟨_, rfl, nofun⟩

theorem completion_residue_lines :
    (∀ tag, ¬ContainsItself lines tag) ∧
      (∀ tag, RefersTo lines (.placeholder .struct "line") tag → IsDefined lines tag) ∧
        complete lines (complete lines (.placeholder .struct "line")) =
            complete lines (.placeholder .struct "line") ∧
          ∀ target pack u,
            layout target pack (complete lines (.placeholder .struct "line")) ≠
              .error (.unknownBody u) := by
  obtain ⟨-, -, h⟩ := completion_residue lines (.placeholder .struct "line")
  obtain ⟨hfinal, hlayout⟩ := h not_containsItself_lines
  exact ⟨not_containsItself_lines, fun _ => isDefined_of_refersTo_lines, hfinal,
    hlayout fun _ => isDefined_of_refersTo_lines⟩

end ForeignCall.CType
