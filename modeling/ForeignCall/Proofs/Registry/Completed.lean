import ForeignCall.Proofs.Bytecode.Acceptance
import ForeignCall.Proofs.Bytecode.Retyping
import ForeignCall.Proofs.Namespace
import ForeignCall.Registry.Basic

/-!
# ForeignCall.Proofs.Registry.Completed

A struct or union in a prototype, by its tag or with its members. The functions of a header are
exported as they are declared, so a prototype that names a tag keeps a placeholder, even where the
header defines the tag. If the prototypes are completed first, every program that compiled before
compiles as before. A program can compile in addition, because a placeholder cannot be passed, and
is not compatible with what it stands for.

* `Exports.completed` — the functions of a header with completed prototypes;
* `Resolution.CompletedBy` — some functions have completed types;
* `Exports.resolver_register` — how a registry finds functions in exports;
* `Term.typedAlike_of_wellFormed` — a call that is right by both types is alike under both;
* `Exports.bytecode_completed` — how the compilations with both exports compare.
-/

namespace ForeignCall

/-! ## Completed prototypes -/

/-- The completion of the type of a value that is passed. An array is not passed by value. -/
def Header.passed (h : Header) : CType → CType
  | .array base dim => .array base dim
  | t => h.complete t

/-- The type of a function with completed types of its parameters and its result. -/
def Header.completePrototype (h : Header) : CType → CType
  | .func params ret variadic =>
    .func (params.map fun p => ⟨p.name, h.passed p.type⟩) (h.passed ret) variadic
  | t => t

/-- Exports whose prototypes are completed by a header. -/
def Exports.completed (h : Header) (e : Exports) : Exports :=
  { e with functions := e.functions.map fun _ => h.completePrototype }

/-- A function with completed types of its parameters and its result. -/
def Function.completed (h : Header) (f : Function) : Function :=
  { f with ret := h.passed f.ret, params := f.params.map fun p => ⟨p.name, h.passed p.type⟩ }

/-- A way to resolve imports that knows a header besides others. -/
def Exports.resolution (e : Exports) (others : Resolution) : Resolution := fun header name =>
  if header = e.name then
    match e.function? name with
    | some f => .ok f
    | none => .error (.notFound e.name name)
  else others header name

/-- The way to resolve imports that knows the functions that every program has at hand. -/
def Resolution.builtin : Resolution :=
  Exports.stdio.resolution fun header _ => .error (.unknownHeader header)

/-- All functions have completed types. -/
def Resolution.completed (h : Header) (r : Resolution) : Resolution := fun header name =>
  (r header name).map (Function.completed h)

/-- Some functions have completed types. -/
def Resolution.CompletedBy (h : Header) (r r' : Resolution) : Prop :=
  ∀ header name, r' header name = r header name ∨
    r' header name = (r header name).map (Function.completed h)

section

variable (h : Header)

theorem Exports.function?_completed (e : Exports) (symbol : String) :
    (e.completed h).function? symbol = (e.function? symbol).map (Function.completed h) := by
  unfold function? completed
  dsimp only
  rw [Namespace.get?_map]
  cases e.functions.get? symbol with
  | none => rfl
  | some t => cases t <;> rfl

theorem Exports.completedBy_resolution (e : Exports) (others : Resolution) :
    (e.resolution others).CompletedBy h ((e.completed h).resolution others) := by
  intro header name
  have hname : (e.completed h).name = e.name := rfl
  unfold resolution
  rw [hname]
  split
  · refine .inr ?_
    rw [function?_completed]
    cases e.function? name <;> rfl
  · exact .inl rfl

theorem Exports.completed_resolution (e : Exports) (others : Resolution) :
    (e.resolution others).completed h = (e.completed h).resolution (others.completed h) := by
  funext header name
  have hname : (e.completed h).name = e.name := rfl
  unfold Resolution.completed resolution
  rw [hname]
  split
  · rw [function?_completed]
    cases e.function? name <;> rfl
  · rfl

/-- No function that every program has at hand has anything to complete. -/
theorem Resolution.completed_builtin : builtin.completed h = builtin := by
  have hstdio : Exports.stdio.completed h = .stdio := rfl
  unfold builtin
  rw [Exports.completed_resolution, hstdio]
  rfl

theorem Function.retypes_completed (f : Function) : f.Retypes (f.completed h) :=
  ⟨rfl, rfl, rfl, rfl, List.length_map _⟩

end

/-! ## The registry -/

/-- Without an extraction a header is known or it is not. -/
theorem HeaderSource.runFrom_header_of_none (r : Registry) (name : String) :
    runFrom r (HeaderSource.header (μ := Id) ⟨none, []⟩ name) =
      match r.probe name with
      | some known => (.ok known, r)
      | none => (.error (.unknownHeader name), r) := by
  simp only [runFrom, HeaderSource.header, ExceptT.run_mk, StateT.run]
  cases r.probe name <;> rfl

/-- Without an extraction a function is looked up in the header that has the name. -/
theorem HeaderSource.resolver_of_none (r : Registry) (name symbol : String) :
    ((resolver (μ := Id) ⟨none, []⟩ name symbol).run r).run.1 =
      match r.probe name with
      | some known => (r.resolveIn known symbol).1.map Shared.value
      | none => .error (.unknownHeader name) := by
  have hresolver : ((resolver (μ := Id) ⟨none, []⟩ name symbol).run r).run.1 =
      (runFrom r (resolve ⟨none, []⟩ name symbol)).1.map Shared.value := rfl
  rw [hresolver, resolve, runFrom_bind, runFrom_header_of_none]
  cases r.probe name <;> rfl

/-- The registry that a session starts with, after exports have been registered, finds functions by
the resolution. -/
theorem Exports.resolver_register (e : Exports) (header symbol : String) :
    ((HeaderSource.resolver (μ := Id) ⟨none, []⟩ header symbol).run
      (Registry.builtin.register e).2).run.1 = e.resolution .builtin header symbol := by
  have hprobe : (Registry.builtin.register e).2.probe header =
      if header = e.name then some ⟨1, e⟩
      else if header = Exports.stdio.name then some ⟨0, .stdio⟩ else none :=
    (Namespace.get?_insert _ e.name header _).trans
      (congrArg _ (Namespace.get?_insert .empty "stdio.h" header _))
  have hresolve : ∀ known : Shared Exports,
      ((Registry.builtin.register e).2.resolveIn known symbol).1.map Shared.value =
        match known.value.function? symbol with
        | some f => .ok f
        | none => .error (.notFound known.value.name symbol) := by
    intro known
    have hnone : (Registry.builtin.register e).2.resolved.lookup (known.id, symbol) = none := rfl
    rw [Registry.resolveIn, hnone]
    cases known.value.function? symbol <;> rfl
  rw [HeaderSource.resolver_of_none, hprobe, resolution, Resolution.builtin, resolution]
  by_cases hname : header = e.name
  · rw [if_pos hname, if_pos hname]
    exact hresolve ⟨1, e⟩
  · rw [if_neg hname, if_neg hname]
    by_cases hstdio : header = stdio.name
    · rw [if_pos hstdio, if_pos hstdio]
      exact hresolve ⟨0, .stdio⟩
    · rw [if_neg hstdio, if_neg hstdio]

/-! ## Types -/

section Types

variable {h : Header} {m : Machine} {t : CType}

/-- A type that can be passed is not just a tag. -/
theorem Machine.Passes.ne_placeholder (ht : m.Passes t) (kind : TagKind) (name : String) :
    t ≠ .placeholder kind name := by
  rintro rfl
  obtain ⟨tag, htag⟩ := ht
  cases htag

/-- The completion of a type is passed like the type, unless the type is just a tag. -/
theorem Header.resembles_passed (ht : ∀ kind name, t ≠ .placeholder kind name) :
    t.Resembles (h.passed t) := by
  cases t with
  | placeholder kind name => exact absurd rfl (ht kind name)
  | aggregate => exact .aggregate ..
  | void | special | integral | floating | pointer | array | enum | func => exact .refl _

/-- Only structs and unions are completed. -/
theorem Header.passed_of_tagKind (ht : t.tagKind = none) : h.passed t = t := by
  refine (resembles_passed fun kind name heq => ?_).akin.eq_of_tagKind ht
  rw [heq] at ht
  cases ht

/-- A result that is void or can be passed is passed like its completion. -/
theorem Function.resembles_completed {f : Function} (hret : f.ret.isVoid = false → m.Passes f.ret) :
    f.ret.Resembles (f.completed h).ret := by
  refine Header.resembles_passed fun kind name heq => ?_
  rw [heq] at hret
  exact (hret rfl).ne_placeholder kind name rfl

/-- A parameter that can be passed is passed like its completion. -/
theorem Header.akin_passed_of_decayed (ht : m.Passes t.decayed) : t.Akin (h.passed t) := by
  refine (resembles_passed fun kind name heq => ?_).akin
  rw [heq] at ht
  exact ht.ne_placeholder kind name rfl

/-- What is compatible with a parameter that can be passed is akin to its completion. -/
theorem Header.akin_passed_of_compatible {u : CType} (ht : m.Passes t.decayed)
    (hcompatible : compatible t u = true) : u.Akin (h.passed u) := by
  obtain rfl | ⟨_, hkind⟩ := eq_or_tagKind_of_compatible hcompatible
  · exact akin_passed_of_decayed ht
  · rw [passed_of_tagKind hkind]
    exact .refl u

/-- No literal is a struct or union. -/
theorem Term.tagKind_of_literalType? {term : Term} (ht : term.literalType? m = some t) :
    t.tagKind = none := by
  cases term with
  | str raw =>
    obtain rfl := Option.some.inj ht
    rfl
  | int text =>
    obtain ⟨v, _, ht⟩ := Option.bind_eq_some_iff.mp ht
    have ht := toOption_eq_some.mp ht
    unfold intLiteralType at ht
    dsimp only at ht
    split at ht
    · cases ht
    · obtain rfl := Except.ok.inj ht
      rfl
    · cases ht
  | name | call | other => cases ht

/-- The value of a call has the type that the function returns. -/
theorem Function.eq_ret_of_result {f : Function} (hresult : f.result = some t) : t = f.ret := by
  unfold result at hresult
  split at hresult
  · cases hresult
  · exact (Option.some.inj hresult).symm

end Types

/-! ## Calls -/

section Calls

variable {h : Header} {r r' : Resolution} {m : Machine} {around : List (List Import)}

/-- What a name means under two resolutions is taken from one header. -/
theorem exists_resolve_of_meanings {key : String} {f g : Function}
    (hf : meaning? r around key = some f) (hg : meaning? r' around key = some g) :
    ∃ header, r header key = .ok f ∧ r' header key = .ok g := by
  obtain ⟨header, hheader, hf⟩ := exists_resolve_of_meaning? hf
  obtain ⟨header', hheader', hg⟩ := exists_resolve_of_meaning? hg
  obtain rfl : header = header' := Option.some.inj (hheader.symm.trans hheader')
  exact ⟨header, hf, hg⟩

/-- An expression with a type under two resolutions is a literal or the call of a function. -/
theorem Term.literal_or_returned {term : Term} {t t' : CType}
    (ht : term.type? r m around = some t) (ht' : term.type? r' m around = some t') :
    (term.literalType? m = some t ∧ t' = t) ∨
      ∃ key f g, meaning? r around key = some f ∧ meaning? r' around key = some g ∧
        t = f.ret ∧ t' = g.ret := by
  cases term with
  | str | int | name | other => exact .inl ⟨ht, Option.some.inj (ht'.symm.trans ht)⟩
  | call callee args =>
    cases callee with
    | str | int | call | other => cases ht
    | name key =>
      obtain ⟨f, hf, ht⟩ := Option.bind_eq_some_iff.mp ht
      obtain ⟨g, hg, ht'⟩ := Option.bind_eq_some_iff.mp ht'
      exact .inr ⟨key, f, g, hf, hg, Function.eq_ret_of_result ht, Function.eq_ret_of_result ht'⟩

namespace Resolution.CompletedBy

theorem retypes (hr : r.CompletedBy h r') : r.Retypes r' := by
  intro header name
  obtain hsame | hcompleted := hr header name
  · rw [hsame]
    exact Agree.refl (fun _ => rfl) .refl _
  · rw [hcompleted]
    cases r header name with
    | error e => exact rfl
    | ok f => exact f.retypes_completed h

/-- A name means the same function under both resolutions, or the completed one. -/
theorem meaning (hr : r.CompletedBy h r') {key : String} {f g : Function}
    (hf : meaning? r around key = some f) (hg : meaning? r' around key = some g) :
    g = f ∨ g = f.completed h := by
  obtain ⟨header, hf, hg⟩ := exists_resolve_of_meanings hf hg
  obtain hsame | hcompleted := hr header key
  · rw [hsame, hf] at hg
    exact .inl (Except.ok.inj hg).symm
  · rw [hcompleted, hf] at hg
    exact .inr (Except.ok.inj hg).symm

/-- An expression has the same type under both resolutions, or the completed one. -/
theorem type (hr : r.CompletedBy h r') {term : Term} {t t' : CType}
    (ht : term.type? r m around = some t) (ht' : term.type? r' m around = some t') :
    t' = t ∨ t' = h.passed t := by
  obtain ⟨_, hsame⟩ | ⟨key, f, g, hf, hg, rfl, rfl⟩ := Term.literal_or_returned ht ht'
  · exact .inl hsame
  · obtain rfl | rfl := hr.meaning hf hg
    · exact .inl rfl
    · exact .inr rfl

/-- A parameter has the same type under both resolutions, or the completed one. -/
theorem param (hr : r.CompletedBy h r') {key : String} {f g : Function}
    (hf : meaning? r around key = some f) (hg : meaning? r' around key = some g) {position : Nat}
    {param param' : Member CType} (hparam : f.params[position]? = some param)
    (hparam' : g.params[position]? = some param') :
    param'.type = param.type ∨ param'.type = h.passed param.type := by
  obtain rfl | rfl := hr.meaning hf hg
  · rw [hparam] at hparam'
    obtain rfl := Option.some.inj hparam'
    exact .inl rfl
  · rw [Function.completed, List.getElem?_map, hparam] at hparam'
    obtain rfl := Option.some.inj hparam'
    exact .inr rfl

/-- The types of a parameter are akin, and so are those of an argument that fits it. -/
theorem akin (hr : r.CompletedBy h r') {key : String} {f g : Function}
    (hf : meaning? r around key = some f) (hg : meaning? r' around key = some g) {position : Nat}
    {param param' : Member CType} (hparam : f.params[position]? = some param)
    (hparam' : g.params[position]? = some param') {arg : Term} {found found' : CType}
    (hfound : arg.type? r m around = some found) (hfound' : arg.type? r' m around = some found')
    (hpasses : m.Passes param.type.decayed) (hcompatible : compatible param.type found = true) :
    param.type.Akin param'.type ∧ found.Akin found' := by
  constructor
  · obtain hsame | hcompleted := hr.param hf hg hparam hparam'
    · exact hsame ▸ .refl _
    · exact hcompleted ▸ Header.akin_passed_of_decayed hpasses
  · obtain rfl | rfl := hr.type hfound hfound'
    · exact .refl _
    · exact Header.akin_passed_of_compatible hpasses hcompatible

end Resolution.CompletedBy

/-- The result of a function of a resolution and of the other one are passed alike if the first can
be passed. -/
theorem Term.ret_resembles (hr : r.CompletedBy h r') {key : String} {args : List Term}
    (hw : Term.WellFormed r m around (.call (.name key) args)) {f g : Function}
    (hf : meaning? r around key = some f) (hg : meaning? r' around key = some g) :
    f.ret.Resembles g.ret := by
  obtain ⟨f', hf', _, _, hret, _⟩ := hw
  obtain rfl : f' = f := Option.some.inj (hf'.symm.trans hf)
  obtain rfl | rfl := hr.meaning hf hg
  · exact .refl _
  · exact Function.resembles_completed hret

/-- What a call that is right asks of an argument in a fixed position. -/
theorem Term.WellFormed.argument {key : String} {args : List Term}
    (hw : Term.WellFormed r m around (.call (.name key) args)) {f : Function}
    (hf : meaning? r around key = some f) {position : Nat} {arg : Term} {param : Member CType}
    {found : CType} (harg : args[position]? = some arg) (hparam : f.params[position]? = some param)
    (hfound : arg.type? r m around = some found) :
    compatible param.type found = true ∧ m.Passes param.type.decayed := by
  obtain ⟨f', hf', _, _, _, hargs⟩ := hw
  obtain rfl : f' = f := Option.some.inj (hf'.symm.trans hf)
  obtain ⟨found', hfound', hfits⟩ := hargs position arg harg
  obtain rfl : found' = found := Option.some.inj (hfound'.symm.trans hfound)
  unfold ArgumentFits at hfits
  rw [hparam] at hfits
  exact ⟨hfits.1, hfits.2.2⟩

theorem Resolution.completedBy_completed (r : Resolution) : r.CompletedBy h (r.completed h) :=
  fun _ _ => .inr rfl

/-- A name means the completed function if all functions are completed. -/
theorem meaning_completed {key : String} {f g : Function} (hf : meaning? r around key = some f)
    (hg : meaning? (r.completed h) around key = some g) : g = f.completed h := by
  obtain ⟨header, hf, hg⟩ := exists_resolve_of_meanings hf hg
  rw [Resolution.completed, hf] at hg
  exact (Except.ok.inj hg).symm

/-- **A call that is right by both types is alike under both resolutions.** -/
theorem Term.typedAlike_of_wellFormed (hr : r.CompletedBy h r') {term : Term}
    (hw : term.WellFormed r m around) (hw' : term.WellFormed r' m around) :
    term.TypedAlike r r' m around := by
  cases term with
  | str | int | name | other => trivial
  | call callee args =>
    cases callee with
    | str | int | call | other => trivial
    | name key =>
      intro f g hf hg
      refine ⟨Term.ret_resembles hr hw hf hg, ?_⟩
      intro position arg harg param param' found found' hparam hparam' hfound hfound'
      obtain ⟨hcompatible, hpasses⟩ := hw.argument hf harg hparam hfound
      obtain ⟨hcompatible', _⟩ := hw'.argument hg harg hparam' hfound'
      obtain ⟨hakin, hakin'⟩ := hr.akin hf hg hparam hparam' hfound hfound' hpasses hcompatible
      exact ⟨hakin, hakin.eq_iff_of_compatible hakin' hcompatible hcompatible'⟩

/-- An expression has the completed type if all functions have. -/
theorem Term.type_completed {term : Term} {t t' : CType} (ht : term.type? r m around = some t)
    (ht' : term.type? (r.completed h) m around = some t') : t' = h.passed t := by
  obtain ⟨hliteral, rfl⟩ | ⟨key, f, g, hf, hg, rfl, rfl⟩ := Term.literal_or_returned ht ht'
  · exact (Header.passed_of_tagKind (Term.tagKind_of_literalType? hliteral)).symm
  · obtain rfl := meaning_completed hf hg
    rfl

/-- A call that is right as declared is alike if all types are completed. -/
theorem Term.typedAlike_completed {term : Term} (hw : term.WellFormed r m around) :
    term.TypedAlike r (r.completed h) m around := by
  have hr : r.CompletedBy h (r.completed h) := r.completedBy_completed
  cases term with
  | str | int | name | other => trivial
  | call callee args =>
    cases callee with
    | str | int | call | other => trivial
    | name key =>
      intro f g hf hg
      refine ⟨Term.ret_resembles hr hw hf hg, ?_⟩
      intro position arg harg param param' found found' hparam hparam' hfound hfound'
      obtain ⟨hcompatible, hpasses⟩ := hw.argument hf harg hparam hfound
      obtain ⟨hakin, hakin'⟩ := hr.akin hf hg hparam hparam' hfound hfound' hpasses hcompatible
      refine ⟨hakin, ?_⟩
      obtain hsame | ⟨hkind, hkind'⟩ := eq_or_tagKind_of_compatible hcompatible
      · obtain rfl := meaning_completed hf hg
        obtain rfl := Term.type_completed hfound hfound'
        rw [Function.completed, List.getElem?_map, hparam] at hparam'
        obtain rfl := Option.some.inj hparam'
        simp [hsame]
      · rw [hakin.eq_of_tagKind hkind, hakin'.eq_of_tagKind hkind']

end Calls

/-! ## Programs -/

section Programs

variable {h : Header} {r r' : Resolution} {m : Machine} {p : Program}

/-- Every part of a program that compiles is right. -/
theorem Program.wellFormed_of_bytecode {b : Bytecode} (hb : p.bytecode r m = .ok b) :
    ∀ c ∈ p.constructs, c.WellFormed r m := by
  obtain ⟨scope, code, t, hscope, hbody, rfl⟩ := Program.bytecode_ok_iff.mp hb
  have haccepted := Statement.accepted_of_compile.2 p.body scope .empty code t hbody [p.imports]
    ((ScopeOf.empty r).bindImports hscope) (Tables.sound_empty r.Gives).fits
  exact List.forall_mem_cons.mpr ⟨bindImports_ok_iff.mp ⟨scope, hscope⟩, haccepted.wellFormed⟩

/-- A program that compiles under both resolutions is alike under both. -/
theorem Program.typedAlike_of_bytecode (hr : r.CompletedBy h r') {b b' : Bytecode}
    (hb : p.bytecode r m = .ok b) (hb' : p.bytecode r' m = .ok b') : p.TypedAlike r r' m := by
  intro c hc
  have hw := Program.wellFormed_of_bytecode hb c hc
  have hw' := Program.wellFormed_of_bytecode hb' c hc
  cases c with
  | imports | other => trivial
  | expression around term => exact Term.typedAlike_of_wellFormed hr hw hw'

/-- A program that compiles is alike if all types are completed. -/
theorem Program.typedAlike_completed {b : Bytecode} (hb : p.bytecode r m = .ok b) :
    p.TypedAlike r (r.completed h) m := by
  intro c hc
  have hw := Program.wellFormed_of_bytecode hb c hc
  cases c with
  | imports | other => trivial
  | expression around term => exact Term.typedAlike_completed hw

/-- **When a prototype compiles like its completion.** A program compiles to the same, or fails with
the same error, if no function that it calls returns a tag that the header defines, and every
argument equals its parameter already as declared if it does so completed. If the completed
prototypes compile at all, the declared ones compile only then. A program that compiles with the
declared prototypes compiles to the same with the completed ones, unless functions of other headers
have to be completed too. -/
theorem Exports.bytecode_completed (h : Header) (library : Option String) (others : Resolution)
    (m : Machine) (p : Program) :
    let declared := (ofHeader h library).resolution others
    let completed := ((ofHeader h library).completed h).resolution others
    (p.TypedAlike declared completed m →
      Agree CompileError.Like Bytecode.Retypes (p.bytecode declared m) (p.bytecode completed m)) ∧
    ((∃ b, p.bytecode completed m = .ok b) →
      ((∃ b, p.bytecode declared m = .ok b) ↔ p.TypedAlike declared completed m)) ∧
    (others.completed h = others → (∃ b, p.bytecode declared m = .ok b) →
      Agree CompileError.Like Bytecode.Retypes (p.bytecode declared m)
        (p.bytecode completed m)) := by
  intro declared completed
  have hr : declared.CompletedBy h completed := completedBy_resolution h (ofHeader h library) others
  have hagree : p.TypedAlike declared completed m →
      Agree CompileError.Like Bytecode.Retypes (p.bytecode declared m)
        (p.bytecode completed m) := Program.bytecode_agree hr.retypes
  refine ⟨hagree, fun ⟨b', hb'⟩ => ⟨fun ⟨b, hb⟩ => ?_, fun halike => ?_⟩, fun hothers ⟨b, hb⟩ => ?_⟩
  · exact Program.typedAlike_of_bytecode hr hb hb'
  · have hsame := hagree halike
    rw [hb'] at hsame
    cases hb : p.bytecode declared m with
    | error e => rw [hb] at hsame; exact hsame.elim
    | ok b => exact ⟨b, rfl⟩
  · refine hagree ?_
    have hcompleted : completed = declared.completed h := by
      rw [completed_resolution, hothers]
    rw [hcompleted]
    exact Program.typedAlike_completed hb

end Programs

/-! ## A struct by its tag and by the name of a typedef -/

namespace Points

/-- `struct point {int x;}`. -/
def body : TypeNode :=
  .aggregate .struct (some "point") (some [⟨some "x", .identifier ["int"], none⟩])

/-- The declaration of a function `origin` without parameters. -/
def origin (ret : TypeNode) : Declaration :=
  .decl ⟨some "origin", .function (some [⟨none, .identifier ["void"], none⟩]) ret false, none⟩

/-- `struct point {int x;}; struct point origin(void);` -/
def tagged : TranslationUnit :=
  [.decl ⟨none, body, none⟩, origin (.aggregate .struct (some "point") none)]

/-- `typedef struct point {int x;} point; point origin(void);` -/
def named : TranslationUnit :=
  [.typedef ⟨some "point", body, none⟩, origin (.identifier ["point"])]

def header (unit : TranslationUnit) : Header :=
  (runFrom ⟨"point.h", {}, .empty⟩ (translateUnit .lp64 8 unit)).2.freeze

/-- `origin(); puts("o");` -/
def program : Program where
  imports := [⟨"point.h", ["origin"]⟩, ⟨"stdio.h", ["puts"]⟩]
  body := [.expr (.call (.name "origin") []), .expr (.call (.name "puts") [.str "o"])]

def machine : Machine := ⟨.lp64, .standard⟩

/-- The bytecode of the program when `origin` returns a struct with its members. -/
def bytecode : Bytecode where
  constants := [.str "o"]
  functions :=
    [⟨"origin", "point.h", none, .aggregate .struct (some "point") [⟨some "x", .int⟩], [], false⟩,
     ⟨"puts", "stdio.h", some "%crt%", .int, [⟨some "s", .stringPointer⟩], false⟩]
  instructions :=
    [.startCall 0 0, .callFunction 0 13, .discard 1, .startCall 1 1, .loadConstant 0,
     .argument 0 14, .callFunction 1 10, .discard 1]
  maxStack := 2

end Points

/-- A function that returns a struct by the name of a typedef. -/
theorem Exports.bytecode_completed_named :
    let h := Points.header Points.named
    let declared := (ofHeader h none).resolution .builtin
    let completed := ((ofHeader h none).completed h).resolution .builtin
    Resolution.builtin.completed h = .builtin ∧
      Points.program.bytecode declared Points.machine = .ok Points.bytecode ∧
      Agree CompileError.Like Bytecode.Retypes (Points.program.bytecode declared Points.machine)
        (Points.program.bytecode completed Points.machine) := by
  intro h declared completed
  have hbuiltin : Resolution.builtin.completed h = .builtin := Resolution.completed_builtin h
  have hb : Points.program.bytecode declared Points.machine = .ok Points.bytecode := by
    decide +kernel
  exact ⟨hbuiltin, hb, (bytecode_completed h none .builtin Points.machine Points.program).2.2
    hbuiltin ⟨_, hb⟩⟩

/-- A function that returns the same struct by its tag cannot be called as it is declared. -/
theorem Exports.tagged_result_refused :
    let h := Points.header Points.tagged
    let declared := (ofHeader h none).resolution .builtin
    let completed := ((ofHeader h none).completed h).resolution .builtin
    Points.program.bytecode declared Points.machine =
        .error (.unsupported "passing 'struct point' by value") ∧
      Points.program.bytecode completed Points.machine = .ok Points.bytecode ∧
      ¬Agree CompileError.Like Bytecode.Retypes (Points.program.bytecode declared Points.machine)
        (Points.program.bytecode completed Points.machine) := by
  intro h declared completed
  have hdeclared : Points.program.bytecode declared Points.machine =
      .error (.unsupported "passing 'struct point' by value") := by
    decide +kernel
  have hcompleted : Points.program.bytecode completed Points.machine = .ok Points.bytecode := by
    decide +kernel
  refine ⟨hdeclared, hcompleted, ?_⟩
  rw [hdeclared, hcompleted]
  exact id

end ForeignCall
