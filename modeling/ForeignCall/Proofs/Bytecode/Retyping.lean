import ForeignCall.Proofs.Bytecode.Resemblance
import ForeignCall.Proofs.Program.WellFormed

/-!
# ForeignCall.Proofs.Bytecode.Retyping

One program under two resolutions that give the same functions with other types. As long as the
types of its calls are alike, both compilations take the same way: they end with bytecode that
differs in the types of the functions only, or with the same error.

* `Resolution.Retypes` — resolutions that differ in the types of functions;
* `Program.TypedAlike` — the types of all calls are alike;
* `Program.bytecode_agree` — the two compilations agree.
-/

namespace ForeignCall

/-! ## Functions with other types -/

/-- The same function with other types. -/
structure Function.Retypes (f g : Function) : Prop where
  name : g.name = f.name
  header : g.header = f.header
  library : g.library = f.library
  variadic : g.variadic = f.variadic
  arity : g.arity = f.arity

namespace Function.Retypes

variable {f g : Function}

protected theorem refl (f : Function) : f.Retypes f := ⟨rfl, rfl, rfl, rfl, rfl⟩

theorem key_eq (h : f.Retypes g) : g.key = f.key := by
  rw [key, key, h.header, h.name]

theorem checkArity_eq (h : f.Retypes g) (n : Nat) : checkArity g n = checkArity f n := by
  rw [checkArity, checkArity, h.arity, h.name, h.variadic]

theorem checkLiteral_eq (h : f.Retypes g) (m : Machine) (position : Nat) (param : CType)
    (arg : Term) : checkLiteral m g position param arg = checkLiteral m f position param arg := by
  cases arg with
  | int text => rw [checkLiteral, checkLiteral, h.name]
  | str | name | call | other => rfl

/-- A position is behind all parameters of both functions, or of none. -/
theorem params (h : f.Retypes g) (position : Nat) :
    f.params[position]? = none ∧ g.params[position]? = none ∨
      ∃ param param', f.params[position]? = some param ∧ g.params[position]? = some param' := by
  have hlength : g.params.length = f.params.length := h.arity
  by_cases hlt : position < f.params.length
  · exact .inr ⟨_, _, List.getElem?_eq_getElem hlt, List.getElem?_eq_getElem (hlength ▸ hlt)⟩
  · rw [List.getElem?_eq_none_iff, List.getElem?_eq_none_iff]
    omega

end Function.Retypes

/-- A text of functions that does not show their types. -/
theorem map_eq_of_retypes {α : Type} {fs gs : List Function}
    (h : List.Forall₂ Function.Retypes fs gs) {text : Function → α}
    (htext : ∀ f g : Function, f.Retypes g → text g = text f) : gs.map text = fs.map text := by
  have hmap : List.Forall₂ (· = ·) (fs.map text) (gs.map text) := by
    rw [List.forall₂_map_left_iff, List.forall₂_map_right_iff]
    exact h.imp fun f g hfg => (htext f g hfg).symm
  rw [List.forall₂_eq_eq_eq] at hmap
  exact hmap.symm

/-- Resolutions that find the same functions with other types, and fail alike. -/
def Resolution.Retypes (r r' : Resolution) : Prop :=
  ∀ header name, Agree (· = ·) Function.Retypes (r header name) (r' header name)

/-- A name means nothing under both resolutions, or the same function. -/
theorem Resolution.Retypes.meaning {r r' : Resolution} (hr : r.Retypes r')
    (around : List (List Import)) (key : String) :
    meaning? r around key = none ∧ meaning? r' around key = none ∨
      ∃ f g, meaning? r around key = some f ∧ meaning? r' around key = some g ∧ f.Retypes g := by
  unfold meaning?
  cases headerOf? around key with
  | none => exact .inl ⟨rfl, rfl⟩
  | some header =>
    have h := hr header key
    cases hf : r header key with
    | error e =>
      cases hg : r' header key with
      | error e' => simp [hf, hg, Except.toOption]
      | ok g => rw [hf, hg] at h; exact h.elim
    | ok f =>
      cases hg : r' header key with
      | error e' => rw [hf, hg] at h; exact h.elim
      | ok g =>
        rw [hf, hg] at h
        exact .inr ⟨f, g, by simp [hf, Except.toOption], by simp [hg, Except.toOption], h⟩

/-! ## Errors and tables -/

/-- Errors that say the same, if about types that are akin. -/
inductive CompileError.Like : CompileError → CompileError → Prop where
  | refl (e : CompileError) : Like e e
  | typeMismatch (function : String) (position : Nat) {expected expected' found found' : CType} :
    expected.Akin expected' → found.Akin found' →
    Like (.typeMismatch function position expected found)
      (.typeMismatch function position expected' found')

theorem CompileError.message_typeMismatch (function : String) (position : Nat)
    (expected found : CType) :
    (CompileError.typeMismatch function position expected found).message =
      "argument " ++ toString position ++ " of '" ++ function ++ "': expected '" ++
        expected.display ++ "', found '" ++ found.display ++ "'" := rfl

/-- Errors that say the same have the same text. -/
theorem CompileError.Like.message_eq {e e' : CompileError} (h : e.Like e') :
    e'.message = e.message := by
  cases h with
  | refl => rfl
  | typeMismatch function position hexpected hfound =>
    rw [message_typeMismatch, message_typeMismatch, hexpected.display_eq, hfound.display_eq]

/-- Tables that differ in the types of functions only. -/
structure Tables.Retypes (t t' : Tables) : Prop where
  constants : t'.constants = t.constants
  functions : List.Forall₂ Function.Retypes t.functions t'.functions

namespace Tables.Retypes

variable {t t' : Tables} {f g : Function}

theorem internConstant_agree (h : t.Retypes t') (c : Constant) :
    Agree CompileError.Like (fun x x' => x'.1 = x.1 ∧ x.2.Retypes x'.2)
      (t.internConstant c) (t'.internConstant c) := by
  unfold internConstant
  rw [h.constants]
  cases t.constants.findIdx? (· = c) with
  | some i => exact ⟨rfl, h⟩
  | none =>
    refine (Agree.refl (R := Eq) .refl (fun _ => rfl) _).map ?_
    rintro i _ rfl
    exact ⟨rfl, rfl, h.functions⟩

theorem internFunction_agree (h : t.Retypes t') (hfg : f.Retypes g) :
    Agree CompileError.Like (fun x x' => x'.1 = x.1 ∧ x.2.Retypes x'.2)
      (t.internFunction f) (t'.internFunction g) := by
  have hfind : t'.functions.findIdx? (·.key = g.key) = t.functions.findIdx? (·.key = f.key) := by
    have hkeys := congrArg (List.findIdx? (· = f.key))
      (map_eq_of_retypes h.functions fun _ _ hfg => hfg.key_eq)
    rw [List.findIdx?_map, List.findIdx?_map] at hkeys
    rw [hfg.key_eq]
    exact hkeys
  unfold internFunction
  rw [hfind, ← h.functions.length_eq]
  cases t.functions.findIdx? (·.key = f.key) with
  | some i => exact ⟨rfl, h⟩
  | none =>
    refine (Agree.refl (R := Eq) .refl (fun _ => rfl) _).map ?_
    rintro i _ rfl
    exact ⟨rfl, h.constants, List.rel_append h.functions (.cons hfg .nil)⟩

end Tables.Retypes

/-! ## The types of a call -/

section Types

variable (r r' : Resolution) (m : Machine) (around : List (List Import))

/-- The types of a parameter are akin, and the argument has the type of the parameter under both
resolutions or under none. -/
def ArgumentTypedAlike (f g : Function) (position : Nat) (arg : Term) : Prop :=
  ∀ param param' found found', f.params[position]? = some param →
    g.params[position]? = some param' → arg.type? r m around = some found →
    arg.type? r' m around = some found' →
      param.type.Akin param'.type ∧ (param'.type = found' ↔ param.type = found)

/-- The types of a call, apart from the calls among its arguments, are alike under both resolutions:
the results are passed alike, and every argument fits under both or under none. -/
def Term.TypedAlike : Term → Prop
  | .call (.name key) args =>
    ∀ f g, meaning? r around key = some f → meaning? r' around key = some g →
      f.ret.Resembles g.ret ∧
        ∀ position arg, args[position]? = some arg →
          ArgumentTypedAlike r r' m around f g position arg
  | _ => True

end Types

/-- The types of a part of a program are alike under both resolutions. -/
def Construct.TypedAlike (r r' : Resolution) (m : Machine) : Construct → Prop
  | .expression around term => term.TypedAlike r r' m around
  | _ => True

/-- The types of all calls of a program are alike under both resolutions. -/
def Program.TypedAlike (r r' : Resolution) (m : Machine) (p : Program) : Prop :=
  ∀ c ∈ p.constructs, c.TypedAlike r r' m

/-! ## Expressions -/

/-- Code that differs in its result only, by a type that resembles the other. -/
structure Code.Retypes (c c' : Code) : Prop where
  instructions : c'.instructions = c.instructions
  depth : c'.depth = c.depth
  result : Option.Rel CType.Resembles c.result c'.result

section Terms

variable {r r' : Resolution} {m : Machine} {around : List (List Import)}
  {scope scope' : Scopes Function}

/-- The type of what has been compiled is the one that the source tells. -/
theorem Term.result_of_compile (hscope : ScopeOf r around scope) {term : Term} {t t' : Tables}
    {code : Code} (h : term.compile m scope t = .ok (code, t')) :
    code.result = term.type? r m around := by
  refine (Term.compile_induction (T := fun _ term code _ => code.result = term.type? r m around)
    (A := fun _ _ _ _ _ _ _ => True) ?_ ?_ (fun _ _ _ => trivial)
    (by intros; trivial)).1 term t code t' h
  · intro t term c type i t' hc htype _
    rw [Term.type?_literal hc, htype]
  · intro t name args f index entered moves depth last t' hname _ _ _ _ _ _
    rw [hscope name] at hname
    rw [Term.type?, hname, Option.bind_some]

theorem callInstruction_eq {f g : Function} (hfg : f.Retypes g) (hret : f.ret.Resembles g.ret)
    (argc fixed : UInt8) : callInstruction m g argc fixed = callInstruction m f argc fixed := by
  rw [callInstruction, callInstruction, hfg.variadic, hret.isVoid_eq, hret.tag_eq]

theorem Function.Retypes.result {f g : Function} (hret : f.ret.Resembles g.ret) :
    Option.Rel CType.Resembles f.result g.result := by
  unfold Function.result
  rw [hret.isVoid_eq]
  split
  · exact .none
  · exact .some hret

/-- An argument is passed as types with one tag, or refused for the same reason. -/
theorem passedType_agree {f g : Function} (hfg : f.Retypes g) {position : Nat} {arg : Term}
    {found found' : CType} (halike : ArgumentTypedAlike r r' m around f g position arg)
    (hfound : arg.type? r m around = some found) (hfound' : arg.type? r' m around = some found')
    (hresembles : found.Resembles found') :
    Agree CompileError.Like (fun passed passed' => m.tag passed' = m.tag passed)
      (passedType m f position arg found) (passedType m g position arg found') := by
  unfold passedType
  obtain ⟨hparam, hparam'⟩ | ⟨param, param', hparam, hparam'⟩ := hfg.params position
  · rw [hparam, hparam']
    exact hresembles.promoted.tag_eq m
  · obtain ⟨htypes, hequal⟩ := halike param param' found found' hparam hparam' hfound hfound'
    rw [hparam, hparam']
    dsimp only
    rw [htypes.compatible_eq hresembles.akin hequal, hfg.checkLiteral_eq, htypes.checkLiteral_eq]
    split
    · next hcompatible =>
      have htag : m.tag param'.type.decayed = m.tag param.type.decayed := by
        obtain hsame | ⟨hkind, _⟩ := eq_or_tagKind_of_compatible hcompatible
        · rw [hequal.mpr hsame, hsame]
          exact hresembles.decayed.tag_eq m
        · rw [htypes.eq_of_tagKind hkind]
      exact (Agree.refl (R := Eq) .refl (fun _ => rfl) _).map fun _ _ _ => htag
    · rw [hfg.name]
      exact .typeMismatch f.name position htypes hresembles.akin

theorem argumentInstruction_agree {f g : Function} (hfg : f.Retypes g) {position : Nat}
    {arg : Term} {code code' : Code}
    (halike : ArgumentTypedAlike r r' m around f g position arg)
    (hcode : code.result = arg.type? r m around) (hcode' : code'.result = arg.type? r' m around)
    (hresult : Option.Rel CType.Resembles code.result code'.result) :
    Agree CompileError.Like (· = ·) (argumentInstruction m f position arg code)
      (argumentInstruction m g position arg code') := by
  unfold argumentInstruction
  rw [hcode, hcode'] at hresult ⊢
  cases hfound : arg.type? r m around with
  | none =>
    cases hfound' : arg.type? r' m around with
    | none => exact CompileError.Like.refl _
    | some found' => rw [hfound, hfound'] at hresult; cases hresult
  | some found =>
    cases hfound' : arg.type? r' m around with
    | none => rw [hfound, hfound'] at hresult; cases hresult
    | some found' =>
      have hresembles : found.Resembles found' := by
        rw [hfound, hfound'] at hresult
        cases hresult
        assumption
      refine (passedType_agree hfg halike hfound hfound' hresembles).bind ?_
      intro passed passed' _ _ htag
      rw [htag]
      exact Agree.refl .refl (fun _ => rfl) _

/-- The arguments of a call from `position` on have types that are alike. -/
def ArgumentsTypedAlike (r r' : Resolution) (m : Machine) (around : List (List Import))
    (f g : Function) (position : Nat) (args : List Term) : Prop :=
  ∀ i arg, args[i]? = some arg → ArgumentTypedAlike r r' m around f g (position + i) arg

theorem argumentsTypedAlike_cons {f g : Function} {position : Nat} {arg : Term} {args : List Term}
    (h : ArgumentsTypedAlike r r' m around f g position (arg :: args)) :
    ArgumentTypedAlike r r' m around f g position arg ∧
      ArgumentsTypedAlike r r' m around f g (position + 1) args := by
  refine ⟨h 0 arg rfl, fun i a ha => ?_⟩
  rw [Nat.add_assoc, Nat.add_comm 1 i]
  exact h (i + 1) a ha

/-- A literal is loaded alike. -/
theorem loadCode_agree {t t' : Tables} (ht : t.Retypes t') (c : Constant) (type : CType) :
    Agree CompileError.Like (fun x x' => x.1.Retypes x'.1 ∧ x.2.Retypes x'.2)
      (loadCode t c type) (loadCode t' c type) := by
  refine (ht.internConstant_agree c).map ?_
  rintro ⟨i, t⟩ ⟨_, t'⟩ ⟨rfl, ht⟩
  exact ⟨⟨rfl, rfl, .some (.refl type)⟩, ht⟩

mutual

/-- An expression is compiled alike under both resolutions. -/
theorem Term.compile_agree (hr : r.Retypes r') (hscope : ScopeOf r around scope)
    (hscope' : ScopeOf r' around scope') : (term : Term) → {t t' : Tables} → t.Retypes t' →
    (∀ c ∈ term.constructs around, c.TypedAlike r r' m) →
    Agree CompileError.Like (fun x x' => x.1.Retypes x'.1 ∧ x.2.Retypes x'.2)
      (term.compile m scope t) (term.compile m scope' t')
  | .str raw, t, t', ht, _ => by
    rw [Term.compile, Term.compile]
    cases decodeString raw with
    | error e => exact CompileError.Like.refl _
    | ok s => exact loadCode_agree ht (.str s) .stringPointer
  | .int text, t, t', ht, _ => by
    rw [Term.compile, Term.compile]
    cases decodeInt text with
    | error e => exact CompileError.Like.refl _
    | ok v =>
      dsimp only
      cases intLiteralType m.target text v with
      | error e => exact CompileError.Like.refl _
      | ok type => exact loadCode_agree ht (.int v) type
  | .name name, t, t', _, _ => by
    rw [Term.compile, Term.compile, hscope name, hscope' name]
    obtain ⟨hf, hg⟩ | ⟨f, g, hf, hg, _⟩ := hr.meaning around name
    · rw [hf, hg]
      exact CompileError.Like.refl _
    · rw [hf, hg]
      exact CompileError.Like.refl _
  | .call (.name name) args, t, t', ht, halike => by
    rw [Term.constructs, List.forall_mem_cons] at halike
    rw [Term.compile, Term.compile, hscope name, hscope' name]
    obtain ⟨hf, hg⟩ | ⟨f, g, hf, hg, hfg⟩ := hr.meaning around name
    · rw [hf, hg]
      exact CompileError.Like.refl _
    · rw [hf, hg]
      obtain ⟨hret, hargs⟩ := halike.1 f g hf hg
      have hargs : ArgumentsTypedAlike r r' m around f g 0 args := by
        simpa [ArgumentsTypedAlike] using hargs
      dsimp only
      rw [hfg.checkArity_eq, hfg.arity]
      refine .after .refl fun _ _ => .after .refl fun argc _ => .after .refl fun fixed _ => ?_
      refine (ht.internFunction_agree hfg).bind ?_
      rintro ⟨index, entered⟩ ⟨_, entered'⟩ _ _ ⟨rfl, hentered⟩
      refine (compileArgs_agree hr hscope hscope' hfg args hentered halike.2 hargs).bind ?_
      rintro ⟨moves, depth, after⟩ ⟨_, _, after'⟩ _ _ ⟨rfl, rfl, hafter⟩
      rw [callInstruction_eq hfg hret]
      refine .after .refl fun call _ => ?_
      exact ⟨⟨rfl, rfl, Function.Retypes.result hret⟩, hafter⟩
  | .call (.str _) _, _, _, _, _ | .call (.int _) _, _, _, _, _ | .call (.call _ _) _, _, _, _, _
  | .call (.other _ _) _, _, _, _, _ | .other _ _, _, _, _, _ => by
    simp only [Term.compile]
    exact CompileError.Like.refl _

/-- Arguments are compiled alike under both resolutions. -/
theorem compileArgs_agree (hr : r.Retypes r') (hscope : ScopeOf r around scope)
    (hscope' : ScopeOf r' around scope') {f g : Function} (hfg : f.Retypes g) :
    (args : List Term) → {position : Nat} → {t t' : Tables} → t.Retypes t' →
    (∀ c ∈ argsConstructs around args, c.TypedAlike r r' m) →
    ArgumentsTypedAlike r r' m around f g position args →
    Agree CompileError.Like (fun x x' => x'.1 = x.1 ∧ x'.2.1 = x.2.1 ∧ x.2.2.Retypes x'.2.2)
      (compileArgs m scope f position t args) (compileArgs m scope' g position t' args)
  | [], _, t, t', ht, _, _ => by
    rw [compileArgs, compileArgs]
    exact ⟨rfl, rfl, ht⟩
  | arg :: args, position, t, t', ht, halike, htyped => by
    rw [argsConstructs, List.forall_mem_append] at halike
    obtain ⟨hfirst, hrest⟩ := argumentsTypedAlike_cons htyped
    rw [compileArgs, compileArgs]
    refine (Term.compile_agree hr hscope hscope' arg ht halike.1).bind ?_
    rintro ⟨code, between⟩ ⟨code', between'⟩ harg harg' ⟨hcode, hbetween⟩
    refine (argumentInstruction_agree hfg hfirst (Term.result_of_compile hscope harg)
      (Term.result_of_compile hscope' harg') hcode.result).bind ?_
    rintro move _ _ _ rfl
    refine (compileArgs_agree hr hscope hscope' hfg args hbetween halike.2 hrest).bind ?_
    rintro ⟨moves, depth, after⟩ ⟨_, _, after'⟩ _ _ ⟨rfl, rfl, hafter⟩
    rw [hcode.instructions, hcode.depth]
    exact ⟨rfl, rfl, hafter⟩

end

end Terms

/-! ## Statements and programs -/

section Statements

variable {r r' : Resolution} {m : Machine}

/-- Names are bound under both resolutions, or the same name cannot be. -/
theorem bindNames_agree (hr : r.Retypes r') (header : String) (names : List String)
    (scope scope' : Scopes Function) :
    Agree CompileError.Like (fun _ _ => True) (outcome (bindNames r.resolver header scope names))
      (outcome (bindNames r'.resolver header scope' names)) := by
  induction names generalizing scope scope' with
  | nil => exact trivial
  | cons name names ih =>
    have hname : Agree CompileError.Like (fun _ _ => True)
        (outcome (resolveName r.resolver header name))
        (outcome (resolveName r'.resolver header name)) := by
      have h := hr header name
      unfold outcome resolveName Resolution.resolver
      cases hf : r header name with
      | error e =>
        cases hg : r' header name with
        | error e' =>
          rw [hf, hg] at h
          obtain rfl : e = e' := h
          exact CompileError.Like.refl _
        | ok g => rw [hf, hg] at h; exact h.elim
      | ok f =>
        cases hg : r' header name with
        | error e' => rw [hf, hg] at h; exact h.elim
        | ok g => exact trivial
    simp only [bindNames, outcome_bind_eq]
    exact hname.bind fun f g _ _ _ => ih _ _

/-- Imports are bound under both resolutions, or the same name cannot be. -/
theorem bindImports_agree (hr : r.Retypes r') (imports : List Import)
    (scope scope' : Scopes Function) :
    Agree CompileError.Like (fun _ _ => True) (outcome (bindImports r.resolver scope imports))
      (outcome (bindImports r'.resolver scope' imports)) := by
  induction imports generalizing scope scope' with
  | nil => exact trivial
  | cons i imports ih =>
    simp only [bindImports, outcome_bind_eq]
    exact (bindNames_agree hr i.header i.names scope scope').bind fun _ _ _ _ _ => ih _ _

/-- Code whose value is discarded differs in nothing. -/
theorem Code.Retypes.discarded {c c' : Code} (h : c.Retypes c') :
    c.discarded.Retypes c'.discarded := by
  obtain ⟨result, instructions, depth⟩ := c
  obtain ⟨result', instructions', depth'⟩ := c'
  obtain ⟨rfl, rfl, hresult⟩ := h
  cases hresult with
  | none => exact ⟨rfl, rfl, .none⟩
  | some => exact ⟨rfl, rfl, .none⟩

mutual

/-- A statement is compiled alike under both resolutions. -/
theorem Statement.compile_agree (hr : r.Retypes r') : (s : Statement) →
    {around : List (List Import)} → {scope scope' : Scopes Function} → {t t' : Tables} →
    ScopeOf r around scope → ScopeOf r' around scope' → t.Retypes t' →
    (∀ c ∈ s.constructs around, c.TypedAlike r r' m) →
    Agree CompileError.Like (fun x x' => x.1.Retypes x'.1 ∧ x.2.Retypes x'.2)
      (outcome (s.compile r.resolver m scope t)) (outcome (s.compile r'.resolver m scope' t'))
  | .expr term, _, _, _, _, _, hscope, hscope', ht, halike => by
    simp only [Statement.compile, outcome_bind_eq, outcome_withoutEffects]
    refine (Term.compile_agree hr hscope hscope' term ht halike).bind ?_
    rintro ⟨code, between⟩ ⟨code', between'⟩ _ _ ⟨hcode, hbetween⟩
    exact ⟨hcode.discarded, hbetween⟩
  | .block imports body, _, scope, scope', _, _, hscope, hscope', ht, halike => by
    rw [Statement.constructs, List.forall_mem_cons] at halike
    simp only [Statement.compile, outcome_bind_eq]
    refine (bindImports_agree hr imports scope.push scope'.push).bind ?_
    intro inner inner' hinner hinner' _
    exact compileBody_agree hr body (hscope.push.bindImports hinner)
      (hscope'.push.bindImports hinner') ht halike.2
  | .other _ _, _, _, _, _, _, _, _, _, _ => by
    rw [Statement.compile, Statement.compile]
    exact CompileError.Like.refl _

/-- Statements in a row are compiled alike under both resolutions. -/
theorem compileBody_agree (hr : r.Retypes r') : (body : List Statement) →
    {around : List (List Import)} → {scope scope' : Scopes Function} → {t t' : Tables} →
    ScopeOf r around scope → ScopeOf r' around scope' → t.Retypes t' →
    (∀ c ∈ bodyConstructs around body, c.TypedAlike r r' m) →
    Agree CompileError.Like (fun x x' => x.1.Retypes x'.1 ∧ x.2.Retypes x'.2)
      (outcome (compileBody r.resolver m scope t body))
      (outcome (compileBody r'.resolver m scope' t' body))
  | [], _, _, _, _, _, _, _, ht, _ => by
    rw [compileBody, compileBody]
    exact ⟨⟨rfl, rfl, .none⟩, ht⟩
  | s :: body, _, _, _, _, _, hscope, hscope', ht, halike => by
    rw [bodyConstructs, List.forall_mem_append] at halike
    simp only [compileBody, outcome_bind_eq]
    refine (Statement.compile_agree hr s hscope hscope' ht halike.1).bind ?_
    rintro ⟨code, between⟩ ⟨code', between'⟩ _ _ ⟨hcode, hbetween⟩
    refine (compileBody_agree hr body hscope hscope' hbetween halike.2).bind ?_
    rintro ⟨rest, after⟩ ⟨rest', after'⟩ _ _ ⟨hrest, hafter⟩
    refine ⟨⟨?_, ?_, .none⟩, hafter⟩
    · exact congrArg₂ (· ++ ·) hcode.instructions hrest.instructions
    · exact congrArg₂ max hcode.depth hrest.depth

end

/-- Bytecode that differs in the types of the functions only. -/
structure Bytecode.Retypes (b b' : Bytecode) : Prop where
  constants : b'.constants = b.constants
  functions : List.Forall₂ Function.Retypes b.functions b'.functions
  instructions : b'.instructions = b.instructions
  maxStack : b'.maxStack = b.maxStack

/-- The executor gets the same document. -/
theorem Bytecode.Retypes.toDocument_eq {b b' : Bytecode} (h : b.Retypes b') :
    b'.toDocument = b.toDocument := by
  rw [toDocument, toDocument, h.constants, h.maxStack, bytes, bytes, h.instructions,
    map_eq_of_retypes h.functions fun f g hfg => by rw [hfg.library, hfg.name]]

/-- The listing is the same. -/
theorem Bytecode.Retypes.display_eq {b b' : Bytecode} (h : b.Retypes b') :
    b'.display = b.display := by
  rw [display, display, h.constants, h.maxStack, h.instructions,
    map_eq_of_retypes h.functions fun f g hfg => hfg.name]

/-- **Two resolutions that differ in the types of functions compile a program alike**, if the types
of its calls are alike. -/
theorem Program.bytecode_agree (hr : r.Retypes r') {p : Program} (halike : p.TypedAlike r r' m) :
    Agree CompileError.Like Bytecode.Retypes (p.bytecode r m) (p.bytecode r' m) := by
  unfold TypedAlike at halike
  rw [constructs, List.forall_mem_cons] at halike
  simp only [bytecode, Program.compile, outcome_bind_eq]
  refine (bindImports_agree hr p.imports .empty .empty).bind ?_
  intro scope scope' hscope hscope' _
  have hempty : Tables.empty.Retypes .empty := ⟨rfl, .nil⟩
  refine (compileBody_agree hr p.body ((ScopeOf.empty r).bindImports hscope)
    ((ScopeOf.empty r').bindImports hscope') hempty halike.2).bind ?_
  rintro ⟨code, t⟩ ⟨code', t'⟩ _ _ ⟨hcode, ht⟩
  exact ⟨ht.constants, ht.functions, hcode.instructions, hcode.depth⟩

end Statements

end ForeignCall
