import ForeignCall.Proofs.Header.EnumValues

/-!
# ForeignCall.Proofs.Header.Places

The places in the errors of a translation. An unsupported construct carries the place of the
declaration at hand, and so does every error inside a constant, which gets it on the way out. What
is left is the count of enumerators: an enum that is not part of a constant counts on outside of all
constants, and an overflow there has no place.

* `TranslationError.PlacedAt` — an error carries a place, if it is of a kind that does;
* `TypeNode.LeadsTo` — the enums that a translation comes to outside of constants;
* `TypeNode.places` — a type fails with the place, or at the count of such an enum;
* **`translateUnit_places`** — which errors of a file carry the place of their declaration.
-/

namespace ForeignCall

open Context

/-- An unsupported construct or an error of a constant carries a place. Other errors have none. -/
def TranslationError.PlacedAt (place : Option Coord) : TranslationError → Prop
  | .unsupported _ coord => coord = place
  | .constant _ coord => coord = place
  | .conflict _ | .layout _ | .abort _ => True

/-- An overflow without a place. -/
def TranslationError.IsLostOverflow (e : TranslationError) : Prop :=
  ∃ name, e = .constant (.overflow name) none

/-! ## The enums outside of constants -/

section Walk

variable (cx : Context)

/-- The members of a parameter list. -/
def parameters (params : List (Declarator TypeNode)) : Build (List (Member CType)) :=
  if isVoidList params then pure [] else translateMembers cx params

/-- A translation that starts in a header comes to an enum with a body outside of all constants,
when the header has become another one. -/
inductive TypeNode.LeadsTo (tag : Option String) (es : List (Enumerator (Expr TypeNode)))
    (c : Builder) : Builder → TypeNode → Prop where
  | enum : LeadsTo tag es c c (.enum tag (some es))
  | pointer {b base} : LeadsTo tag es c b base → LeadsTo tag es c b (.pointer base)
  | array {b base dim} : LeadsTo tag es c b base → LeadsTo tag es c b (.array base dim)
  | result {b ret variadic} : LeadsTo tag es c b ret →
      LeadsTo tag es c b (.function none ret variadic)
  | resultAfter {b b₁ params members ret variadic} :
      runFrom b (parameters cx params) = (.ok members, b₁) → LeadsTo tag es c b₁ ret →
      LeadsTo tag es c b (.function (some params) ret variadic)
  | parameter {b b₁ before members d behind ret variadic} :
      isVoidList (before ++ d :: behind) = false →
      runFrom b (translateMembers cx before) = (.ok members, b₁) → LeadsTo tag es c b₁ d.type →
      LeadsTo tag es c b (.function (some (before ++ d :: behind)) ret variadic)
  | field {b b₁ before members d behind kind name} :
      runFrom b (translateMembers cx before) = (.ok members, b₁) → LeadsTo tag es c b₁ d.type →
      LeadsTo tag es c b (.aggregate kind name (some (before ++ d :: behind)))

/-- A translation comes to an enum outside of all constants whose values lead to the greatest
word. -/
def TypeNode.CountsOut (b : Builder) (t : TypeNode) : Prop :=
  ∃ tag es c, t.LeadsTo cx tag es c b ∧ ReachesLimit cx tag 0 c es

/-- The translation of members comes to such an enum in one of them. -/
def MembersCountOut (b : Builder) (ds : List (Declarator TypeNode)) : Prop :=
  ∃ before d behind members b₁, ds = before ++ d :: behind ∧
    runFrom b (translateMembers cx before) = (.ok members, b₁) ∧ d.type.CountsOut cx b₁

end Walk

section Proofs

variable {cx : Context} {tag : Option String} {b b' c : Builder} {e : TranslationError}

theorem translate_function (params : List (Declarator TypeNode)) (ret : TypeNode)
    (variadic : Bool) :
    (TypeNode.function (some params) ret variadic).translate cx =
      parameters cx params >>= fun members =>
        ret.translate cx >>= fun t => pure (.func members t variadic) := by
  rw [TypeNode.translate, parameters]
  split <;> rfl

/-! ## Counting out -/

/-- A member that overflows ends the members. -/
theorem overflows_translateMembers {before behind : List (Declarator TypeNode)}
    {d : Declarator TypeNode} {members : List (Member CType)}
    (hbefore : runFrom b (translateMembers cx before) = (.ok members, c))
    (h : Overflows c (d.type.translate cx)) :
    Overflows b (translateMembers cx (before ++ d :: behind)) := by
  induction before generalizing b members with
  | nil =>
    cases hbefore
    rw [List.nil_append, translateMembers]
    exact h.bind _
  | cons first before ih =>
    rw [translateMembers, runFrom_bind_eq_ok] at hbefore
    obtain ⟨u, b₁, hu, hbefore⟩ := hbefore
    rw [runFrom_bind_eq_ok] at hbefore
    obtain ⟨rest, b₂, hrest, hbefore⟩ := hbefore
    cases hbefore
    have hbehind : Overflows b₁ (translateMembers cx (before ++ d :: behind)) := ih hrest
    unfold Overflows
    rw [List.cons_append, translateMembers, runFrom_bind_ok hu]
    exact hbehind.bind _

/-- An enum outside of constants whose values lead to the greatest word overflows, and the whole
type with it. -/
theorem TypeNode.LeadsTo.overflows {es : List (Enumerator (Expr TypeNode))} {t : TypeNode}
    (h : t.LeadsTo cx tag es c b) (hlimit : ReachesLimit cx tag 0 c es) :
    Overflows b (t.translate cx) := by
  induction h with
  | enum =>
    obtain ⟨before, behind, vs, c', rfl, hbefore, hmax⟩ := hlimit
    rw [TypeNode.translate]
    exact (hbefore.overflows rfl hmax).bind _
  | pointer _ ih =>
    rw [TypeNode.translate]
    exact ih.bind _
  | array _ ih =>
    rename_i dim _
    cases dim with
    | none =>
      rw [TypeNode.translate]
      exact ih.bind _
    | some dim =>
      rw [TypeNode.translate]
      exact ih.bind _
  | result _ ih =>
    rw [TypeNode.translate]
    exact ih.bind _
  | resultAfter hparams _ ih =>
    unfold Overflows
    rw [translate_function, runFrom_bind_ok hparams]
    exact ih.bind _
  | parameter hvoid hbefore _ ih =>
    rw [translate_function, parameters, hvoid]
    exact (overflows_translateMembers hbefore ih).bind _
  | field hbefore _ ih =>
    rw [TypeNode.translate]
    exact (overflows_translateMembers hbefore ih).bind _

/-! ## Errors and their places -/

/-- An error of a constant is placed on the way out. -/
theorem placedAt_constant {e : Expr Operand} {error : TranslationError}
    (hplaced : ∀ e' b₁, runFrom b (e.evaluate cx.environment) = (.error e', b₁) →
      (cx.locate e').PlacedAt cx.coord)
    (h : runFrom b (cx.constant e) = (.error error, b')) : error.PlacedAt cx.coord := by
  rw [constant, runFrom_adapt] at h
  rcases hresult : runFrom b (e.evaluate cx.environment) with ⟨e' | v, b₁⟩
  · rw [hresult] at h
    obtain ⟨herror, rfl⟩ := Prod.mk.inj h
    obtain rfl := Except.error.inj herror
    exact hplaced e' b₁ hresult
  · rw [hresult] at h
    cases h

/-- The dimension of an array is a constant, or it is reported with the place. -/
theorem placedAt_dimension {text : String} {value : Expr Operand}
    (hplaced : ∀ e' b₁, runFrom b (value.evaluate cx.environment) = (.error e', b₁) →
      (cx.locate e').PlacedAt cx.coord)
    (h : runFrom b (cx.dimension text value) = (.error e, b')) : e.PlacedAt cx.coord := by
  rw [dimension, runFrom_bind_eq_error] at h
  rcases h with h | ⟨v, b₁, _, h⟩
  · exact placedAt_constant hplaced h
  · split at h
    · cases h
      rfl
    · cases h

/-- What has its place, or has none yet, is placed on the way out. -/
theorem locate_placedAt (h : e.PlacedAt cx.coord ∨ e.IsLostOverflow) :
    (cx.locate e).PlacedAt cx.coord := by
  rcases h with h | ⟨name, rfl⟩
  · cases e with
    | constant error coord =>
      obtain rfl : coord = cx.coord := h
      unfold locate
      split <;> trivial
    | unsupported | conflict | layout | abort => exact h
  · rfl

theorem placedAt_wordsType {words : List String}
    (h : runFrom b (cx.wordsType words) = (.error e, b')) : e.PlacedAt cx.coord := by
  rw [wordsType, runFrom_bind_ok (runFrom_get b)] at h
  dsimp only at h
  split at h
  · cases h
  · split at h
    · cases h
      trivial
    · cases h
    · cases h
      rfl

theorem placedAt_declareTag {kind : TagKind}
    (h : runFrom b (cx.declareTag kind tag) = (.error e, b')) : e.PlacedAt cx.coord := by
  cases tag with
  | none =>
    cases h
    rfl
  | some tag => cases h

theorem placedAt_enumOf (h : runFrom b (cx.enumOf tag) = (.error e, b')) : e.PlacedAt cx.coord := by
  rw [enumOf, runFrom_bind_ok (runFrom_get b)] at h
  split at h
  · cases h
  · cases h
    rfl

theorem placedAt_store {place : Option Coord} {change : Builder → Except Conflict Builder}
    (h : runFrom b (store change) = (.error e, b')) : e.PlacedAt place := by
  rw [store, runFrom_bind_ok (runFrom_get b)] at h
  split at h
  · cases h
  · cases h
    trivial

theorem placedAt_defineTag {kind : TagKind} {members : List (Member CType)} {place : Option Coord}
    (h : runFrom b (defineTag kind tag members) = (.error e, b')) : e.PlacedAt place := by
  cases tag with
  | none => cases h
  | some name =>
    rw [defineTag, runFrom_bind_eq_error] at h
    rcases h with h | ⟨_, _, _, h⟩
    · exact placedAt_store h
    · cases h

theorem placedAt_defineEnumTag {values : List (String × Int64)} {place : Option Coord}
    (h : runFrom b (defineEnumTag tag values) = (.error e, b')) : e.PlacedAt place := by
  cases tag with
  | none => cases h
  | some name =>
    rw [defineEnumTag, runFrom_bind_eq_error] at h
    rcases h with h | ⟨_, _, _, h⟩
    · exact placedAt_store h
    · cases h

/-- What follows the layout of an operand fails with an error that is placed on the way out,
whichever sizes `fits` lets through. -/
theorem locate_sizeOf_layout {fits : Int → Option Int64} {x : Except LayoutError Layout}
    {error : ConstError}
    (h : runFrom b (match x with
      | .error e => throw (.layout e)
      | .ok l =>
        match fits l.size with
        | some n => pure n
        | none => raise error) = (.error e, b')) : (cx.locate e).PlacedAt cx.coord := by
  cases x with
  | error e =>
    cases h
    trivial
  | ok l =>
    dsimp only at h
    split at h
    · cases h
    · cases h
      rfl

theorem locate_sizeOf {operand : Operand}
    (hplaced : ∀ {e' b₁}, runFrom b operand.translate = (.error e', b₁) →
      e'.PlacedAt cx.coord ∨ e'.IsLostOverflow)
    (h : runFrom b (cx.sizeOf operand) = (.error e, b')) : (cx.locate e).PlacedAt cx.coord := by
  unfold Context.sizeOf at h
  rw [runFrom_bind_eq_error] at h
  rcases h with h | ⟨t, b₁, _, h⟩
  · exact locate_placedAt (hplaced h)
  · rw [runFrom_bind_ok (runFrom_get b₁)] at h
    -- comparing a size with the bound of a word by definition would count down from the bound
    generalize fit = fits at h
    exact locate_sizeOf_layout h

theorem locate_castTo {operand : Operand} {value : Int64}
    (hplaced : ∀ {e' b₁}, runFrom b operand.translate = (.error e', b₁) →
      e'.PlacedAt cx.coord ∨ e'.IsLostOverflow)
    (h : runFrom b (cx.castTo operand value) = (.error e, b')) :
    (cx.locate e).PlacedAt cx.coord := by
  rw [castTo, runFrom_bind_eq_error] at h
  rcases h with h | ⟨t, b₁, _, h⟩
  · exact locate_placedAt (hplaced h)
  · split at h
    · cases h
      trivial
    · cases h
      rfl
    · split at h
      · cases h
      · cases h
        rfl

theorem locate_orRaise {error : ConstError} {found : Option Int64}
    (h : runFrom b (orRaise cx.environment error found) = (.error e, b')) :
    (cx.locate e).PlacedAt cx.coord := by
  cases found with
  | none =>
    cases h
    rfl
  | some v => cases h

/-- Where a translation goes through a part of a type, it counts out where the part does. -/
theorem TypeNode.CountsOut.lift {t whole : TypeNode}
    (step : ∀ {tag es c}, t.LeadsTo cx tag es c b → whole.LeadsTo cx tag es c b')
    (h : t.CountsOut cx b) : whole.CountsOut cx b' := by
  obtain ⟨tag, es, c, hleads, hlimit⟩ := h
  exact ⟨tag, es, c, step hleads, hlimit⟩

theorem MembersCountOut.field {kind : TagKind} {fields : List (Declarator TypeNode)}
    (h : MembersCountOut cx b fields) :
    (TypeNode.aggregate kind tag (some fields)).CountsOut cx b := by
  obtain ⟨before, d, behind, members, b₁, rfl, hbefore, hcounts⟩ := h
  exact hcounts.lift (.field hbefore)

theorem MembersCountOut.parameter {params : List (Declarator TypeNode)} {ret : TypeNode}
    {variadic : Bool} (h : MembersCountOut cx b params) (hvoid : isVoidList params = false) :
    (TypeNode.function (some params) ret variadic).CountsOut cx b := by
  obtain ⟨before, d, behind, members, b₁, rfl, hbefore, hcounts⟩ := h
  exact hcounts.lift (.parameter hvoid hbefore)

/-- Enumerators behind one whose value is known fail with the place, or where the values have led to
the greatest word, unless it is this value. -/
theorem translateFrom_places {name : String} {v : Int64} {es : List (Enumerator (Expr TypeNode))}
    (hrest : ∀ next : Int64, next.toInt = v.toInt + 1 →
      runFrom (b.addEnumerator name v tag) (translateValues cx tag next es) = (.error e, b') →
      e.PlacedAt cx.coord ∨ e.IsLostOverflow ∧
        ReachesLimit cx tag next.toInt (b.addEnumerator name v tag) es)
    (h : runFrom b (translateFrom cx tag name v es) = (.error e, b')) :
    e.PlacedAt cx.coord ∨ e.IsLostOverflow ∧ (v = Int64.maxValue ∨
      ReachesLimit cx tag (v.toInt + 1) (b.addEnumerator name v tag) es) := by
  by_cases hmax : v = Int64.maxValue
  · subst hmax
    rw [translateFrom, runFrom_bind_error runFrom_addEnumerator_maxValue] at h
    cases h
    exact .inr ⟨⟨name, rfl⟩, .inl rfl⟩
  · obtain ⟨next, hnext⟩ := exists_toInt_succ hmax
    rw [translateFrom, runFrom_bind_ok (runFrom_addEnumerator hnext), runFrom_bind_eq_error] at h
    rcases h with h | ⟨_, _, _, h⟩
    · rw [← hnext]
      exact (hrest next hnext h).imp_right (And.imp_right .inr)
    · cases h

mutual

/-- **A type fails with the place** of the declaration at hand, or at the count of an enum outside
of constants. -/
theorem TypeNode.places (cx : Context) : (t : TypeNode) →
    ∀ {b b' : Builder} {e : TranslationError}, runFrom b (t.translate cx) = (.error e, b') →
      e.PlacedAt cx.coord ∨ e.IsLostOverflow ∧ t.CountsOut cx b
  | .identifier words, _, _, _, h => .inl (placedAt_wordsType h)
  | .pointer base, b, b', e, h => by
    rw [TypeNode.translate, runFrom_bind_eq_error] at h
    rcases h with h | ⟨t, b₁, _, h⟩
    · exact (TypeNode.places cx base h).imp_right (And.imp_right (.lift .pointer))
    · cases h
  | .array base none, b, b', e, h => by
    rw [TypeNode.translate, runFrom_bind_eq_error] at h
    rcases h with h | ⟨t, b₁, _, h⟩
    · exact (TypeNode.places cx base h).imp_right (And.imp_right (.lift .array))
    · cases h
  | .array base (some dim), b, b', e, h => by
    rw [TypeNode.translate, runFrom_bind_eq_error] at h
    rcases h with h | ⟨t, b₁, _, h⟩
    · exact (TypeNode.places cx base h).imp_right (And.imp_right (.lift .array))
    · rw [runFrom_bind_eq_error] at h
      rcases h with h | ⟨n, b₂, _, h⟩
      · exact .inl (placedAt_dimension (fun _ _ => evaluate_places cx dim) h)
      · cases h
  | .function none ret variadic, b, b', e, h => by
    rw [TypeNode.translate, runFrom_bind_eq_error] at h
    rcases h with h | ⟨t, b₁, _, h⟩
    · exact (TypeNode.places cx ret h).imp_right (And.imp_right (.lift .result))
    · cases h
  | .function (some params) ret variadic, b, b', e, h => by
    rw [translate_function, runFrom_bind_eq_error] at h
    rcases h with h | ⟨members, b₁, hmembers, h⟩
    · unfold parameters at h
      split at h
      · cases h
      · next hvoid =>
        rw [Bool.not_eq_true] at hvoid
        exact (translateMembers_places cx params h).imp_right (And.imp_right (·.parameter hvoid))
    · rw [runFrom_bind_eq_error] at h
      rcases h with h | ⟨t, b₂, _, h⟩
      · exact (TypeNode.places cx ret h).imp_right (And.imp_right (.lift (.resultAfter hmembers)))
      · cases h
  | .aggregate kind tag none, _, _, _, h => .inl (placedAt_declareTag h)
  | .aggregate kind tag (some fields), b, b', e, h => by
    rw [TypeNode.translate, runFrom_bind_eq_error] at h
    rcases h with h | ⟨members, b₁, _, h⟩
    · exact (translateMembers_places cx fields h).imp_right (And.imp_right (·.field))
    · exact .inl (placedAt_defineTag h)
  | .enum tag none, _, _, _, h => .inl (placedAt_enumOf h)
  | .enum tag (some es), b, b', e, h => by
    rw [TypeNode.translate, runFrom_bind_eq_error] at h
    rcases h with h | ⟨values, b₁, _, h⟩
    · refine (translateValues_places cx tag 0 es h).imp_right (And.imp_right fun hlimit => ?_)
      exact ⟨tag, es, b, .enum, hlimit⟩
    · exact .inl (placedAt_defineEnumTag h)
  | .other kind text, _, _, _, h => by
    cases h
    exact .inl rfl

/-- Members fail with the place, or at the count of an enum in one of them. -/
theorem translateMembers_places (cx : Context) : (ds : List (Declarator TypeNode)) →
    ∀ {b b' : Builder} {e : TranslationError},
      runFrom b (translateMembers cx ds) = (.error e, b') →
      e.PlacedAt cx.coord ∨ e.IsLostOverflow ∧ MembersCountOut cx b ds
  | [], _, _, _, h => nomatch h
  | ⟨name, t, coord⟩ :: ds, b, b', e, h => by
    rw [translateMembers, runFrom_bind_eq_error] at h
    rcases h with h | ⟨u, b₁, hu, h⟩
    · refine (TypeNode.places cx t h).imp_right (And.imp_right fun hcounts => ?_)
      exact ⟨[], ⟨name, t, coord⟩, ds, [], b, rfl, rfl, hcounts⟩
    · rw [runFrom_bind_eq_error] at h
      rcases h with h | ⟨members, b₂, _, h⟩
      · refine (translateMembers_places cx ds h).imp_right (And.imp_right ?_)
        rintro ⟨before, d, behind, members, b₂, rfl, hbefore, hcounts⟩
        refine ⟨⟨name, t, coord⟩ :: before, d, behind, ⟨name, u⟩ :: members, b₂, rfl, ?_, hcounts⟩
        rw [translateMembers, runFrom_bind_ok hu, runFrom_bind_ok hbefore]
        rfl
      · cases h

/-- Enumerators fail with the place, or where their values have led to the greatest word. -/
theorem translateValues_places (cx : Context) (tag : Option String) (next : Int64) :
    (es : List (Enumerator (Expr TypeNode))) →
    ∀ {b b' : Builder} {e : TranslationError},
      runFrom b (translateValues cx tag next es) = (.error e, b') →
      e.PlacedAt cx.coord ∨ e.IsLostOverflow ∧ ReachesLimit cx tag next.toInt b es
  | [], _, _, _, h => nomatch h
  | ⟨name, none⟩ :: es, b, b', e, h => by
    rw [translateValues_counted] at h
    have hbehind := translateFrom_places (fun after _ => translateValues_places cx tag after es) h
    exact hbehind.imp_right (And.imp_right .counted)
  | ⟨name, some value⟩ :: es, b, b', e, h => by
    rw [translateValues_given, runFrom_bind_eq_error] at h
    rcases h with h | ⟨v, b₁, hv, h⟩
    · exact .inl (placedAt_constant (fun _ _ => evaluate_places cx value) h)
    · have hbehind := translateFrom_places (fun after _ => translateValues_places cx tag after es) h
      exact hbehind.imp_right (And.imp_right (.given hv))

/-- The error of an expression is placed on the way out. -/
theorem evaluate_places (cx : Context) : (value : Expr TypeNode) →
    ∀ {b b' : Builder} {e : TranslationError},
      runFrom b ((lower cx value).evaluate cx.environment) = (.error e, b') →
      (cx.locate e).PlacedAt cx.coord
  | .literal kind text, b, b', e, h => by
    rw [lower] at h
    cases kind with
    | int => exact locate_orRaise h
    | char | float | string =>
      cases h
      rfl
  | .ident name, b, b', e, h => by
    rw [lower, Expr.evaluate, runFrom_bind_eq_error] at h
    rcases h with h | ⟨found, b₁, _, h⟩
    · cases h
    · exact locate_orRaise h
  | .unary op operand, b, b', e, h => by
    rw [lower, Expr.evaluate, runFrom_bind_eq_error] at h
    rcases h with h | ⟨v, b₁, _, h⟩
    · exact evaluate_places cx operand h
    · dsimp only at h
      split at h
      · exact locate_orRaise h
      · cases h
        rfl
  | .binary op lhs rhs, b, b', e, h => by
    rw [lower, Expr.evaluate] at h
    split at h
    · rw [runFrom_bind_eq_error] at h
      rcases h with h | ⟨l, b₁, _, h⟩
      · exact evaluate_places cx lhs h
      · rw [runFrom_bind_eq_error] at h
        rcases h with h | ⟨r, b₂, _, h⟩
        · exact evaluate_places cx rhs h
        · exact locate_orRaise h
    · cases h
      rfl
  | .sizeofType t, b, b', e, h => by
    rw [lower] at h
    exact locate_sizeOf (fun ht => (TypeNode.places cx t ht).imp_right (·.1)) h
  | .cast t operand, b, b', e, h => by
    rw [lower, Expr.evaluate, runFrom_bind_eq_error] at h
    rcases h with h | ⟨v, b₁, _, h⟩
    · exact evaluate_places cx operand h
    · exact locate_castTo (fun ht => (TypeNode.places cx t ht).imp_right (·.1)) h
  | .other kind text, _, _, _, h => by
    rw [lower] at h
    cases h
    rfl

end

end Proofs

/-! ## Declarations -/

/-- The place of a declaration. -/
def Declaration.coord? : Declaration → Option Coord
  | .decl d | .typedef d | .funcDef d => d.coord
  | .pragma _ | .other .. => none

/-- The type that the translation of a declaration goes through. A typedef without a name is refused
before. -/
def Declaration.type? : Declaration → Option TypeNode
  | .decl d | .funcDef d => some d.type
  | .typedef d => d.name.map fun _ => d.type
  | .pragma _ | .other .. => none

/-- The translation of a declaration comes to an enum outside of all constants whose values lead to
the greatest word. -/
def Declaration.CountsOut (target : Target) (pack : Nat) (b : Builder) (whole : Declaration) :
    Prop :=
  ∃ t, whole.type? = some t ∧ t.CountsOut ⟨target, pack, whole.coord?⟩ b

section Declarations

variable {target : Target} {pack : Nat} {b b' : Builder} {e : TranslationError}

theorem placedAt_storeNameless {t : CType} {place : Option Coord}
    (h : runFrom b (storeNameless t) = (.error e, b')) : e.PlacedAt place := by
  unfold storeNameless at h
  split at h
  · exact placedAt_store h
  · cases h

/-- A variable, a function or a tag fails with its place, or at the count of an enum. -/
theorem Declarator.places {d : Declarator TypeNode}
    (h : runFrom b (d.translate target pack) = (.error e, b')) :
    e.PlacedAt d.coord ∨ e.IsLostOverflow ∧ d.type.CountsOut ⟨target, pack, d.coord⟩ b := by
  rw [Declarator.translate, runFrom_bind_eq_error] at h
  rcases h with h | ⟨t, b₁, _, h⟩
  · exact TypeNode.places ⟨target, pack, d.coord⟩ d.type h
  · split at h
    · cases h
    · cases h
    · exact .inl (placedAt_storeNameless h)

/-- A declaration fails with its place, or at the count of an enum outside of constants. -/
theorem Declaration.places {whole : Declaration}
    (h : runFrom b (whole.translate target pack) = (.error e, b')) :
    e.PlacedAt whole.coord? ∨ e.IsLostOverflow ∧ whole.CountsOut target pack b := by
  cases whole with
  | decl d | funcDef d =>
    exact (Declarator.places h).imp_right (And.imp_right fun hcounts => ⟨d.type, rfl, hcounts⟩)
  | typedef d =>
    rw [Declaration.translate] at h
    split at h
    · cases h
      exact .inl rfl
    · next name hname =>
      rw [runFrom_bind_eq_error] at h
      rcases h with h | ⟨t, b₁, _, h⟩
      · refine (TypeNode.places ⟨target, pack, d.coord⟩ d.type h).imp_right
          (And.imp_right fun hcounts => ⟨d.type, ?_, hcounts⟩)
        rw [Declaration.type?, hname, Option.map_some]
      · cases h
  | pragma text => cases h
  | other kind text =>
    cases h
    exact .inl rfl

/-- At the count of an enum outside of constants a declaration fails without a place. -/
theorem Declaration.CountsOut.overflows {whole : Declaration} (h : whole.CountsOut target pack b) :
    Overflows b (whole.translate target pack) := by
  obtain ⟨t, htype, tag, es, c, hleads, hlimit⟩ := h
  have hover := hleads.overflows hlimit
  cases whole with
  | decl d | funcDef d =>
    cases htype
    exact hover.bind _
  | typedef d =>
    obtain ⟨name, hname, rfl⟩ := Option.map_eq_some_iff.mp htype
    rw [Declaration.translate]
    rw [hname]
    exact hover.bind _
  | pragma text => cases htype
  | other kind text => cases htype

/-- A file fails at the first of its declarations that does. -/
theorem exists_of_translateUnit_error {unit : TranslationUnit}
    (h : runFrom b (translateUnit target pack unit) = (.error e, b')) :
    ∃ before whole behind c, unit = before ++ whole :: behind ∧
      runFrom b (translateUnit target pack before) = (.ok (), c) ∧
      runFrom c (whole.translate target pack) = (.error e, b') := by
  induction unit generalizing b with
  | nil => cases h
  | cons first unit ih =>
    have hcons : ∀ unit, translateUnit target pack (first :: unit) =
        first.translate target pack >>= fun _ => translateUnit target pack unit := fun _ => rfl
    rw [hcons, runFrom_bind_eq_error] at h
    rcases h with h | ⟨x, b₁, hfirst, h⟩
    · exact ⟨[], first, unit, b, rfl, rfl, h⟩
    · obtain ⟨before, whole, behind, c, rfl, hbefore, hwhole⟩ := ih h
      refine ⟨first :: before, whole, behind, c, rfl, ?_, hwhole⟩
      rw [hcons, runFrom_bind_ok hfirst, hbefore]

/-- **Errors and the places of declarations.** A file fails at its first declaration that does. If
the place of this declaration is known, the error carries the place, unless the translation of the
declaration comes to an enum outside of all constants whose values lead to the greatest word; then
the error is the overflow of the count, and has no place. -/
theorem translateUnit_places {unit : TranslationUnit}
    (h : runFrom b (translateUnit target pack unit) = (.error e, b')) :
    ∃ before whole behind c, unit = before ++ whole :: behind ∧
      runFrom b (translateUnit target pack before) = (.ok (), c) ∧
      runFrom c (whole.translate target pack) = (.error e, b') ∧
      ∀ place, whole.coord? = some place →
        (e.PlacedAt (some place) ↔ ¬ whole.CountsOut target pack c) ∧
          (whole.CountsOut target pack c → e.IsLostOverflow) := by
  obtain ⟨before, whole, behind, c, rfl, hbefore, hwhole⟩ := exists_of_translateUnit_error h
  refine ⟨before, whole, behind, c, rfl, hbefore, hwhole, fun place hplace => ?_⟩
  have hlost : whole.CountsOut target pack c → e.IsLostOverflow := by
    intro hcounts
    obtain ⟨name, hover⟩ := hcounts.overflows
    rw [hwhole] at hover
    exact ⟨name, Except.error.inj hover⟩
  refine ⟨⟨fun hplaced hcounts => ?_, fun hcounts => ?_⟩, hlost⟩
  · obtain ⟨name, rfl⟩ := hlost hcounts
    cases hplaced
  · rcases Declaration.places hwhole with hplaced | ⟨_, hcounts'⟩
    · rwa [hplace] at hplaced
    · exact absurd hcounts' hcounts

end Declarations

/-! ### An enum inside and outside of a constant -/

/-- `enum { A = 9223372036854775807, B }` -/
def beyondWords : TypeNode :=
  .enum none (some [⟨"A", some (.literal .int "9223372036854775807")⟩, ⟨"B", none⟩])

/-- A place in a file. -/
def thirdLine : Coord := ⟨"e.h", 3, 1⟩

/-- `char buffer[sizeof(enum { A = 9223372036854775807, B })];` -/
def beyondWordsBuffer : Declaration :=
  .decl ⟨some "buffer", .array (.identifier ["char"]) (some (.sizeofType beyondWords)),
    some thirdLine⟩

/-- In the dimension of an array the overflow of the count gets the place. -/
theorem translateUnit_places_buffer :
    (runFrom noDeclarations (translateUnit .lp64 8 [beyondWordsBuffer])).1 =
        .error (.constant (.overflow "A") (some thirdLine)) ∧
      ¬ beyondWordsBuffer.CountsOut .lp64 8 noDeclarations := by
  have hresult : (runFrom noDeclarations (translateUnit .lp64 8 [beyondWordsBuffer])).1 =
      .error (.constant (.overflow "A") (some thirdLine)) := by
    decide +kernel
  obtain ⟨before, whole, behind, c, hunit, hbefore, -, hplaces⟩ :=
    translateUnit_places (Prod.ext hresult rfl)
  obtain ⟨rfl, rfl, rfl⟩ : before = [] ∧ whole = beyondWordsBuffer ∧ behind = [] := by
    cases before with
    | nil =>
      obtain ⟨rfl, rfl⟩ := List.cons.inj hunit
      exact ⟨rfl, rfl, rfl⟩
    | cons first before => simp at hunit
  cases hbefore
  exact ⟨hresult, (hplaces thirdLine rfl).1.mp rfl⟩

/-- Outside of constants the same overflow has no place. -/
theorem translateUnit_loses_place :
    (runFrom noDeclarations (translateUnit .lp64 8 [.decl ⟨none, beyondWords, some thirdLine⟩])).1 =
        .error (.constant (.overflow "A") none) ∧
      ¬ (TranslationError.constant (.overflow "A") none).PlacedAt (some thirdLine) :=
  ⟨by decide +kernel, nofun⟩

end ForeignCall
