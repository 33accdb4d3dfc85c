import ForeignCall.Proofs.CType.Spelling
import ForeignCall.Proofs.Header.Additions
import ForeignCall.Proofs.Results

/-!
# ForeignCall.Proofs.Header.Contributions

What the translation of a type adds to a header when it succeeds.

* `Context.dimension_eq_ok`, `Context.sizeOf_eq_ok` — steps that succeed, and the steps in them;
* **`TypeNode.translate_contributes`** — a type adds the enumerators of its enum bodies; it holds on
  to those that it carries, and tags hold on to those that are anchored.
-/

namespace ForeignCall

open Namespaces (enumeratorsOf enumeratorsOfMembers)

/-! ## Steps that succeed -/

namespace Context

variable {b b' : Builder} {cx : Context}

theorem constant_eq_ok {e : Expr Operand} {v : Int64}
    (h : runFrom b (cx.constant e) = (.ok v, b')) :
    runFrom b (e.evaluate cx.environment) = (.ok v, b') := by
  rw [constant, runFrom_adapt] at h
  generalize runFrom b (e.evaluate cx.environment) = p at h ⊢
  obtain ⟨e | v', b₁⟩ := p
  · exact nomatch h
  · exact h

theorem dimension_eq_ok {text : String} {e : Expr Operand} {n : UInt64}
    (h : runFrom b (cx.dimension text e) = (.ok n, b')) :
    ∃ v, runFrom b (e.evaluate cx.environment) = (.ok v, b') := by
  rw [dimension, runFrom_bind_eq_ok] at h
  obtain ⟨v, b₁, hv, h⟩ := h
  split at h
  · exact nomatch h
  · cases h
    exact ⟨v, constant_eq_ok hv⟩

theorem orRaise_eq_ok {error : ConstError} {found : Option Int64} {v : Int64}
    (h : runFrom b (orRaise cx.environment error found) = (.ok v, b')) : b = b' := by
  cases found with
  | none => exact nomatch h
  | some w =>
    cases h
    rfl

/-- What follows the layout of an operand changes nothing, whichever sizes `fits` lets through. -/
theorem sizeOf_layout_eq_ok {fits : Int → Option Int64} {x : Except LayoutError Layout}
    {error : ConstError} {v : Int64}
    (h : runFrom b (match x with
      | .error e => throw (.layout e)
      | .ok l =>
        match fits l.size with
        | some n => pure n
        | none => raise error) = (.ok v, b')) : b = b' := by
  cases x with
  | error e => exact nomatch h
  | ok l =>
    dsimp only at h
    split at h
    · exact congrArg Prod.snd h
    · exact nomatch h

theorem sizeOf_eq_ok {operand : Operand} {v : Int64}
    (h : runFrom b (cx.sizeOf operand) = (.ok v, b')) :
    ∃ t, runFrom b operand.translate = (.ok t, b') := by
  rw [sizeOf, runFrom_bind_eq_ok] at h
  obtain ⟨t, b₁, ht, h⟩ := h
  rw [runFrom_bind_ok (runFrom_get b₁)] at h
  -- comparing a size with the bound of a word by definition would count down from the bound
  generalize fit = fits at h
  obtain rfl := sizeOf_layout_eq_ok h
  exact ⟨t, ht⟩

theorem castTo_eq_ok {operand : Operand} {value v : Int64}
    (h : runFrom b (cx.castTo operand value) = (.ok v, b')) :
    ∃ t, runFrom b operand.translate = (.ok t, b') := by
  rw [castTo, runFrom_bind_eq_ok] at h
  obtain ⟨t, b₁, ht, h⟩ := h
  refine ⟨t, ?_⟩
  split at h
  · exact nomatch h
  · exact nomatch h
  · split at h
    · cases h
      exact ht
    · exact nomatch h

theorem store_eq_ok {change : Builder → Except Conflict Builder} {x : Unit}
    (h : runFrom b (store change) = (.ok x, b')) : change b = .ok b' := by
  rw [store, runFrom_bind_ok (runFrom_get b)] at h
  split at h
  · next b₁ heq =>
    cases h
    exact heq
  · exact nomatch h

theorem addEnumerator_eq_ok {tag : Option String} {name : String} {value after : Int64}
    (h : runFrom b (addEnumerator tag name value) = (.ok after, b')) :
    b.addEnumerator name value tag = b' := by
  rw [addEnumerator, runFrom_bind_eq_ok] at h
  obtain ⟨x, b₁, hx, h⟩ := h
  cases hx
  split at h
  · cases h
    rfl
  · exact nomatch h

theorem defineTag_eq_ok {kind : TagKind} {tag : String} {members : List (Member CType)} {u : CType}
    (h : runFrom b (defineTag kind (some tag) members) = (.ok u, b')) :
    u = .aggregate kind (some tag) members ∧ b.define kind tag u = .ok b' := by
  rw [defineTag, runFrom_bind_eq_ok] at h
  obtain ⟨x, b₁, hx, h⟩ := h
  cases h
  exact ⟨rfl, store_eq_ok hx⟩

theorem defineEnumTag_eq_ok {tag : String} {values : List (String × Int64)} {u : CType}
    (h : runFrom b (defineEnumTag (some tag) values) = (.ok u, b')) :
    u = .enum (some tag) values ∧ b.defineEnum tag u = .ok b' := by
  rw [defineEnumTag, runFrom_bind_eq_ok] at h
  obtain ⟨x, b₁, hx, h⟩ := h
  cases h
  exact ⟨rfl, store_eq_ok hx⟩

theorem eq_of_isVoidList {params : List (Declarator TypeNode)} (h : isVoidList params) :
    ∃ coord, params = [⟨none, .identifier ["void"], coord⟩] := by
  unfold isVoidList at h
  split at h
  · exact ⟨_, rfl⟩
  · exact nomatch h

/-- Keywords spell types without enumerators. -/
theorem enumeratorsOf_spelling {words : List String} {t : CType}
    (h : CType.ofSpelling words = .ok (some t)) (p : NamedValue) : p ∉ enumeratorsOf t := by
  cases CType.elementary_of_spelling h with
  | vaList => simp [CType.vaList, enumeratorsOf]
  | void | floating | integral => simp [enumeratorsOf]

/-- Words refer to a typedef, or they spell a type without enumerators. -/
theorem contributes_wordsType {words : List String} {u : CType}
    (h : runFrom b (cx.wordsType words) = (.ok u, b')) :
    b.Contributes [] [] [] (enumeratorsOf u) b' := by
  rw [wordsType, runFrom_bind_ok (runFrom_get b)] at h
  dsimp only at h
  split at h
  · next t hnamed =>
    cases h
    refine .nothing fun p hp => ?_
    split at hnamed
    · next word => exact ⟨.typedef word, u, hnamed, hp⟩
    · cases hnamed
  · split at h
    · cases h
    · next t hspelled =>
      cases h
      exact .nothing fun p hp => absurd hp (enumeratorsOf_spelling hspelled p)
    · cases h

theorem contributes_declareTag {kind : TagKind} {tag : Option String} {u : CType}
    (h : runFrom b (cx.declareTag kind tag) = (.ok u, b')) :
    b.Contributes [] [] [] (enumeratorsOf u) b' := by
  cases tag with
  | none => cases h
  | some tag =>
    cases h
    simpa [enumeratorsOf] using Builder.Contributes.declare b kind tag

theorem contributes_enumOf {tag : Option String} {u : CType}
    (h : runFrom b (cx.enumOf tag) = (.ok u, b')) :
    b.Contributes [] [] [] (enumeratorsOf u) b' := by
  rw [enumOf, runFrom_bind_ok (runFrom_get b)] at h
  split at h
  · next t ht =>
    cases h
    obtain ⟨name, rfl, hname⟩ := Option.bind_eq_some_iff.mp ht
    exact .nothing fun p hp => ⟨.enum name, u, hname, hp⟩
  · cases h

end Context

/-! ## Types -/

open Context Builder

mutual

/-- **The translation of a type** adds the enumerators of its enum bodies, and holds on to those
that it carries; tags hold on to those that are anchored. -/
theorem TypeNode.translate_contributes (cx : Context) : (t : TypeNode) →
    ∀ {b b' : Builder} {u : CType}, runFrom b (t.translate cx) = (.ok u, b') →
      b.Contributes t.enumBodies.flatten t.carried t.anchored (enumeratorsOf u) b'
  | .identifier words, _, _, _, h => contributes_wordsType h
  | .pointer base, b, b', u, h => by
    rw [TypeNode.translate, runFrom_bind_eq_ok] at h
    obtain ⟨t, b₁, ht, h⟩ := h
    cases h
    rw [enumeratorsOf]
    exact TypeNode.translate_contributes cx base ht
  | .array base none, b, b', u, h => by
    rw [TypeNode.translate, runFrom_bind_eq_ok] at h
    obtain ⟨t, b₁, ht, h⟩ := h
    cases h
    rw [enumeratorsOf]
    exact TypeNode.translate_contributes cx base ht
  | .array base (some dim), b, b', u, h => by
    rw [TypeNode.translate, runFrom_bind_eq_ok] at h
    obtain ⟨t, b₁, ht, h⟩ := h
    rw [runFrom_bind_eq_ok] at h
    obtain ⟨n, b₂, hn, h⟩ := h
    cases h
    obtain ⟨v, hv⟩ := dimension_eq_ok hn
    rw [TypeNode.enumBodies, List.flatten_append, TypeNode.carried, TypeNode.anchored, enumeratorsOf]
    simpa using (TypeNode.translate_contributes cx base ht).append (evaluate_contributes cx dim hv)
  | .function none ret variadic, b, b', u, h => by
    rw [TypeNode.translate, runFrom_bind_eq_ok] at h
    obtain ⟨t, b₁, ht, h⟩ := h
    cases h
    rw [enumeratorsOf, enumeratorsOfMembers, List.nil_append]
    exact TypeNode.translate_contributes cx ret ht
  | .function (some params) ret variadic, b, b', u, h => by
    rw [TypeNode.translate] at h
    split at h
    · next hvoid =>
      obtain ⟨coord, rfl⟩ := eq_of_isVoidList hvoid
      rw [runFrom_bind_eq_ok] at h
      obtain ⟨members, b₁, hmembers, h⟩ := h
      cases hmembers
      rw [runFrom_bind_eq_ok] at h
      obtain ⟨t, b₂, ht, h⟩ := h
      cases h
      rw [enumeratorsOf]
      exact TypeNode.translate_contributes cx ret ht
    · rw [runFrom_bind_eq_ok] at h
      obtain ⟨members, b₁, hmembers, h⟩ := h
      rw [runFrom_bind_eq_ok] at h
      obtain ⟨t, b₂, ht, h⟩ := h
      cases h
      rw [TypeNode.enumBodies, List.flatten_append, enumeratorsOf]
      exact (translateMembers_contributes cx params hmembers).append
        (TypeNode.translate_contributes cx ret ht)
  | .aggregate kind tag none, _, _, _, h => contributes_declareTag h
  | .aggregate kind none (some fields), b, b', u, h => by
    rw [TypeNode.translate, runFrom_bind_eq_ok] at h
    obtain ⟨members, b₁, hmembers, h⟩ := h
    cases h
    rw [enumeratorsOf]
    exact translateMembers_contributes cx fields hmembers
  | .aggregate kind (some tag) (some fields), b, b', u, h => by
    rw [TypeNode.translate, runFrom_bind_eq_ok] at h
    obtain ⟨members, b₁, hmembers, h⟩ := h
    obtain ⟨rfl, hdefine⟩ := defineTag_eq_ok h
    rw [enumeratorsOf]
    exact (translateMembers_contributes cx fields hmembers).tagSet (tagSet_define hdefine)
      (by rw [enumeratorsOf])
  | .enum tag none, _, _, _, h => contributes_enumOf h
  | .enum none (some es), b, b', u, h => by
    rw [TypeNode.translate, runFrom_bind_eq_ok] at h
    obtain ⟨values, b₁, hvalues, h⟩ := h
    cases h
    exact translateValues_contributes cx none 0 es hvalues
  | .enum (some tag) (some es), b, b', u, h => by
    rw [TypeNode.translate, runFrom_bind_eq_ok] at h
    obtain ⟨values, b₁, hvalues, h⟩ := h
    obtain ⟨rfl, hdefine⟩ := defineEnumTag_eq_ok h
    exact (translateValues_contributes cx (some tag) 0 es hvalues).tagSet
      (tagSet_defineEnum hdefine) rfl
  | .other kind text, _, _, _, h => nomatch h

theorem translateMembers_contributes (cx : Context) : (ds : List (Declarator TypeNode)) →
    ∀ {b b' : Builder} {members : List (Member CType)},
      runFrom b (translateMembers cx ds) = (.ok members, b') →
      b.Contributes (memberBodies ds).flatten (memberCarried ds) (memberAnchored ds)
        (enumeratorsOfMembers members) b'
  | [], b, b', members, h => by
    cases h
    exact .nothing nofun
  | ⟨name, t, coord⟩ :: ds, b, b', members, h => by
    rw [translateMembers, runFrom_bind_eq_ok] at h
    obtain ⟨u, b₁, hu, h⟩ := h
    rw [runFrom_bind_eq_ok] at h
    obtain ⟨rest, b₂, hrest, h⟩ := h
    cases h
    rw [memberBodies, List.flatten_append, enumeratorsOfMembers]
    exact (TypeNode.translate_contributes cx t hu).append (translateMembers_contributes cx ds hrest)

theorem translateValues_contributes (cx : Context) (tag : Option String) (next : Int64) :
    (es : List (Enumerator (Expr TypeNode))) →
    ∀ {b b' : Builder} {values : List (String × Int64)},
      runFrom b (translateValues cx tag next es) = (.ok values, b') →
      b.Contributes (es.map (·.name) ++ (valueBodies es).flatten) (es.map (·.name))
        (valueAnchored es) (enumeratorsOf (.enum tag values)) b'
  | [], b, b', values, h => by
    cases h
    exact .nothing nofun
  | ⟨name, none⟩ :: es, b, b', values, h => by
    rw [translateValues, runFrom_bind_eq_ok] at h
    obtain ⟨after, b₁, hafter, h⟩ := h
    obtain rfl := addEnumerator_eq_ok hafter
    rw [runFrom_bind_eq_ok] at h
    obtain ⟨rest, b₂, hrest, h⟩ := h
    cases h
    exact (Contributes.enumerator b name next tag).append
      (translateValues_contributes cx tag after es hrest)
  | ⟨name, some e⟩ :: es, b, b', values, h => by
    rw [translateValues, runFrom_bind_eq_ok] at h
    obtain ⟨value, b₁, hvalue, h⟩ := h
    rw [runFrom_bind_eq_ok] at h
    obtain ⟨after, b₂, hafter, h⟩ := h
    obtain rfl := addEnumerator_eq_ok hafter
    rw [runFrom_bind_eq_ok] at h
    obtain ⟨rest, b₃, hrest, h⟩ := h
    cases h
    have hall := (evaluate_contributes cx e (constant_eq_ok hvalue)).append
      ((Contributes.enumerator b₁ name value tag).append
        (translateValues_contributes cx tag after es hrest))
    rw [List.map_cons, valueBodies, List.flatten_append]
    refine hall.perm ?_ (.refl _)
    rw [← List.append_assoc [name]]
    exact List.perm_append_comm_assoc ..

/-- The evaluation of an expression adds the enumerators of the types in it. -/
theorem evaluate_contributes (cx : Context) : (e : Expr TypeNode) →
    ∀ {b b' : Builder} {v : Int64},
      runFrom b ((lower cx e).evaluate cx.environment) = (.ok v, b') →
      b.Contributes (exprBodies e).flatten [] (exprAnchored e) [] b'
  | .literal kind text, b, b', v, h => by
    rw [lower] at h
    cases kind with
    | int =>
      obtain rfl := orRaise_eq_ok h
      exact .nothing nofun
    | char | float | string => exact nomatch h
  | .ident name, b, b', v, h => by
    rw [lower, Expr.evaluate, runFrom_bind_eq_ok] at h
    obtain ⟨found, b₁, hfound, h⟩ := h
    cases hfound
    obtain rfl := orRaise_eq_ok h
    exact .nothing nofun
  | .unary op operand, b, b', v, h => by
    rw [lower, Expr.evaluate, runFrom_bind_eq_ok] at h
    obtain ⟨w, b₁, hw, h⟩ := h
    split at h
    · obtain rfl := orRaise_eq_ok h
      exact evaluate_contributes cx operand hw
    · exact nomatch h
  | .binary op lhs rhs, b, b', v, h => by
    rw [lower, Expr.evaluate] at h
    split at h
    · rw [runFrom_bind_eq_ok] at h
      obtain ⟨l, b₁, hl, h⟩ := h
      rw [runFrom_bind_eq_ok] at h
      obtain ⟨r, b₂, hr, h⟩ := h
      obtain rfl := orRaise_eq_ok h
      rw [exprBodies, List.flatten_append, exprAnchored]
      exact (evaluate_contributes cx lhs hl).append (evaluate_contributes cx rhs hr)
    · exact nomatch h
  | .sizeofType t, b, b', v, h => by
    rw [lower] at h
    obtain ⟨u, hu⟩ := sizeOf_eq_ok h
    exact (TypeNode.translate_contributes cx t hu).forget
  | .cast t operand, b, b', v, h => by
    rw [lower, Expr.evaluate, runFrom_bind_eq_ok] at h
    obtain ⟨w, b₁, hw, h⟩ := h
    obtain ⟨u, hu⟩ := castTo_eq_ok h
    have hall := (evaluate_contributes cx operand hw).append
      (TypeNode.translate_contributes cx t hu).forget
    rw [exprBodies, List.flatten_append, exprAnchored]
    exact hall.perm List.perm_append_comm List.perm_append_comm
  | .other kind text, _, _, _, h => by
    rw [lower] at h
    exact nomatch h

end

end ForeignCall
