import ForeignCall.Proofs.Bytecode.Tables
import ForeignCall.Proofs.Program.Induction

/-!
# ForeignCall.Proofs.Bytecode.Derivation

How a compilation succeeds. The checks of the compiler are taken apart once, one lemma for each, and
an induction principle leaves the cases in which they all pass: a literal that is loaded, a call
whose arguments are compiled one after the other, and the statements around them.

* `Term.compile_induction` — for expressions and arguments;
* `Statement.compile_induction` — for statements and blocks;
* `Program.bytecode_ok_iff` — for programs.
-/

namespace ForeignCall

/-! ## Literals -/

/-- The constant that a literal stands for. -/
def Term.constant? : Term → Option Constant
  | .str raw => (decodeString raw).toOption.map .str
  | .int text => (decodeInt text).toOption.map .int
  | _ => none

/-- The type of a literal. -/
def Term.literalType? (m : Machine) : Term → Option CType
  | .str _ => some .stringPointer
  | .int text => (decodeInt text).toOption.bind fun v => (intLiteralType m.target text v).toOption
  | _ => none

/-- A literal with a value and a type is loaded. -/
theorem Term.compile_literal {m : Machine} {scope : Scopes Function} {t : Tables} {term : Term}
    {c : Constant} {type : CType} (hc : term.constant? = some c)
    (htype : term.literalType? m = some type) :
    term.compile m scope t = loadCode t c type := by
  cases term with
  | str raw =>
    obtain ⟨s, hs, rfl⟩ := Option.map_eq_some_iff.1 hc
    obtain rfl : CType.stringPointer = type := by simpa [literalType?] using htype
    simp [Term.compile, toOption_eq_some.1 hs]
  | int text =>
    obtain ⟨v, hv, rfl⟩ := Option.map_eq_some_iff.1 hc
    obtain ⟨v', hv', ht⟩ := Option.bind_eq_some_iff.1 htype
    obtain rfl : v = v' := by rw [hv] at hv'; exact Option.some.inj hv'
    simp [Term.compile, toOption_eq_some.1 hv, toOption_eq_some.1 ht]
  | name name => simp [constant?] at hc
  | call callee args => simp [constant?] at hc
  | other kind text => simp [constant?] at hc

/-! ## The checks of a call -/

/-- A function takes at least its parameters, and more arguments only if it is variadic. -/
theorem checkArity_ok_iff {f : Function} {n : Nat} :
    checkArity f n = .ok () ↔ f.arity ≤ n ∧ (n = f.arity ∨ f.variadic = true) := by
  unfold checkArity
  split
  · next h =>
    simp only [reduceCtorEq, false_iff, not_and_or, not_or]
    rcases h with h | ⟨h, hv⟩
    · exact .inl (by omega)
    · exact .inr ⟨by omega, by simpa using hv⟩
  · next h =>
    simp only [not_or, not_and, not_lt] at h
    simp only [true_iff]
    refine ⟨h.1, ?_⟩
    by_cases hn : n = f.arity
    · exact .inl hn
    · exact .inr (by simpa using h.2 (by omega))

/-- An instruction that ends a call of a function with a number of arguments. -/
def Instruction.Ends (f : Function) (argc : Nat) : Instruction → Prop
  | .callFunction n _ => n.toNat = argc ∧ f.variadic = false ∧ f.ret.isVoid = false
  | .callVoidFunction n => n.toNat = argc ∧ f.variadic = false ∧ f.ret.isVoid = true
  | .callVar n fixed _ =>
    n.toNat = argc ∧ fixed.toNat = f.arity ∧ f.variadic = true ∧ f.ret.isVoid = false
  | .callVoidVar n fixed =>
    n.toNat = argc ∧ fixed.toNat = f.arity ∧ f.variadic = true ∧ f.ret.isVoid = true
  | _ => False

/-- The tag of a type is found exactly when there is one. -/
theorem Machine.tag_ok_iff {m : Machine} {t : CType} {n : UInt8} :
    m.tag t = .ok n ↔ m.tags.tagOf m.target t = some n := by
  unfold Machine.tag
  cases m.tags.tagOf m.target t <;> simp

/-- The instruction that ends a call is the one for the function. -/
theorem callInstruction_ends {m : Machine} {f : Function} {argc fixed : UInt8} {i : Instruction}
    (h : callInstruction m f argc fixed = .ok i) (hfixed : fixed.toNat = f.arity) :
    i.Ends f argc.toNat := by
  unfold callInstruction at h
  split at h
  · next hv hr => obtain rfl := Except.ok.inj h; exact ⟨rfl, hv, hr⟩
  · next hv hr => obtain rfl := Except.ok.inj h; exact ⟨rfl, hfixed, hv, hr⟩
  · next hv hr =>
    obtain ⟨t, _, rfl⟩ := except_map_eq_ok.1 h
    exact ⟨rfl, hv, hr⟩
  · next hv hr =>
    obtain ⟨t, _, rfl⟩ := except_map_eq_ok.1 h
    exact ⟨rfl, hfixed, hv, hr⟩

/-- A call can be ended when its result, if there is one, has a tag. -/
theorem callInstruction_ok_iff {m : Machine} {f : Function} {argc fixed : UInt8} :
    (∃ i, callInstruction m f argc fixed = .ok i) ↔
      (f.ret.isVoid = false → ∃ n, m.tags.tagOf m.target f.ret = some n) := by
  unfold callInstruction
  split <;> next hv hr => simp [hr, except_map_eq_ok, Machine.tag_ok_iff]

/-- What moving an argument into the frame takes: one value, a type as which it is passed, a tag of
this type, and a position that is a byte. -/
theorem argumentInstruction_ok_iff {m : Machine} {f : Function} {position : Nat} {arg : Term}
    {code : Code} {i : Instruction} :
    argumentInstruction m f position arg code = .ok i ↔
      ∃ found passed tag, code.result = some found ∧
        passedType m f position arg found = .ok passed ∧ m.tag passed = .ok tag ∧
        position ≤ 255 ∧ i = .argument (UInt8.ofNat position) tag := by
  unfold argumentInstruction
  cases code.result with
  | none => simp
  | some found =>
    simp only [except_bind_eq_ok, operandByte_ok_iff]
    constructor
    · rintro ⟨passed, hpassed, tag, htag, _, ⟨hle, rfl⟩, h⟩
      exact ⟨found, passed, tag, rfl, hpassed, htag, hle, (Except.ok.inj h).symm⟩
    · rintro ⟨_, passed, tag, hfound, hpassed, htag, hle, rfl⟩
      obtain rfl := Option.some.inj hfound
      exact ⟨passed, hpassed, tag, htag, _, ⟨hle, rfl⟩, rfl⟩

/-! ## Expressions -/

section Terms

variable {m : Machine} {scope : Scopes Function}

/-- What compiling a call takes. -/
theorem Term.compile_call_ok_iff {t t' : Tables} {name : String} {args : List Term} {code : Code} :
    (Term.call (.name name) args).compile m scope t = .ok (code, t') ↔
      ∃ f index entered moves depth last, scope.lookup name = some f ∧
        checkArity f args.length = .ok () ∧ args.length ≤ 255 ∧
        t.internFunction f = .ok (index, entered) ∧
        compileArgs m scope f 0 entered args = .ok (moves, depth, t') ∧
        callInstruction m f (UInt8.ofNat args.length) (UInt8.ofNat f.arity) = .ok last ∧
        code = ⟨f.result, .startCall index (UInt8.ofNat args.length) :: moves ++ [last], depth⟩ := by
  rw [Term.compile]
  cases scope.lookup name with
  | none => simp
  | some f =>
    simp only [except_bind_eq_ok, operandByte_ok_iff, Prod.exists]
    constructor
    · rintro ⟨_, harity, _, ⟨hle, rfl⟩, _, ⟨_, rfl⟩, index, entered, hf, moves, depth, _, hargs,
        last, hlast, h⟩
      obtain ⟨rfl, rfl⟩ := Prod.mk.inj (Except.ok.inj h)
      exact ⟨f, index, entered, moves, depth, last, rfl, harity, hle, hf, hargs, hlast, rfl⟩
    · rintro ⟨_, index, entered, moves, depth, last, hname, harity, hle, hf, hargs, hlast, rfl⟩
      obtain rfl := Option.some.inj hname
      have hfixed : f.arity ≤ 255 := (checkArity_ok_iff.1 harity).1.trans hle
      exact ⟨(), harity, _, ⟨hle, rfl⟩, _, ⟨hfixed, rfl⟩, index, entered, hf, moves, depth, t',
        hargs, last, hlast, rfl⟩

/-- What compiling arguments takes. -/
theorem compileArgs_cons_ok_iff {f : Function} {position : Nat} {t t' : Tables} {arg : Term}
    {args : List Term} {moves : List Instruction} {depth : Nat} :
    compileArgs m scope f position t (arg :: args) = .ok (moves, depth, t') ↔
      ∃ code between move rest needed, arg.compile m scope t = .ok (code, between) ∧
        argumentInstruction m f position arg code = .ok move ∧
        compileArgs m scope f (position + 1) between args = .ok (rest, needed, t') ∧
        moves = code.instructions ++ move :: rest ∧ depth = max (1 + code.depth) needed := by
  rw [compileArgs]
  simp only [except_bind_eq_ok, Prod.exists]
  constructor
  · rintro ⟨code, between, harg, move, hmove, rest, needed, _, hargs, h⟩
    simp only [Except.ok.injEq, Prod.mk.injEq] at h
    obtain ⟨rfl, rfl, rfl⟩ := h
    exact ⟨code, between, move, rest, needed, harg, hmove, hargs, rfl, rfl⟩
  · rintro ⟨code, between, move, rest, needed, harg, hmove, hargs, rfl, rfl⟩
    exact ⟨code, between, harg, move, hmove, rest, needed, t', hargs, rfl⟩

/-- **Induction over a successful compilation** of an expression, and of arguments. -/
theorem Term.compile_induction {T : Tables → Term → Code → Tables → Prop}
    {A : Function → Nat → Tables → List Term → List Instruction → Nat → Tables → Prop}
    (literal : ∀ t term c type i t', term.constant? = some c → term.literalType? m = some type →
      t.internConstant c = .ok (i, t') → T t term ⟨some type, [.loadConstant i], 1⟩ t')
    (call : ∀ t name args f index entered moves depth last t', scope.lookup name = some f →
      checkArity f args.length = .ok () → args.length ≤ 255 →
      t.internFunction f = .ok (index, entered) →
      compileArgs m scope f 0 entered args = .ok (moves, depth, t') →
      A f 0 entered args moves depth t' →
      callInstruction m f (UInt8.ofNat args.length) (UInt8.ofNat f.arity) = .ok last →
      T t (.call (.name name) args)
        ⟨f.result, .startCall index (UInt8.ofNat args.length) :: moves ++ [last], depth⟩ t')
    (nil : ∀ f position t, A f position t [] [] 1 t)
    (cons : ∀ f position t arg args code between found passed tag rest needed t',
      arg.compile m scope t = .ok (code, between) → T t arg code between →
      code.result = some found → passedType m f position arg found = .ok passed →
      m.tag passed = .ok tag → position ≤ 255 →
      compileArgs m scope f (position + 1) between args = .ok (rest, needed, t') →
      A f (position + 1) between args rest needed t' →
      A f position t (arg :: args)
        (code.instructions ++ .argument (UInt8.ofNat position) tag :: rest)
        (max (1 + code.depth) needed) t') :
    (∀ term t code t', term.compile m scope t = .ok (code, t') → T t term code t') ∧
      ∀ args f position t moves depth t',
        compileArgs m scope f position t args = .ok (moves, depth, t') →
          A f position t args moves depth t' := by
  -- a literal, given what its decoding has found
  have loaded : ∀ t term c type code t', term.constant? = some c →
      term.literalType? m = some type → loadCode t c type = .ok (code, t') → T t term code t' := by
    intro t term c type code t' hc htype h
    obtain ⟨⟨i, _⟩, hi, h⟩ := except_map_eq_ok.1 h
    obtain ⟨rfl, rfl⟩ := Prod.mk.inj h
    exact literal t term c type i _ hc htype hi
  apply Term.induct
    (T := fun term => ∀ t code t', term.compile m scope t = .ok (code, t') → T t term code t')
    (A := fun args => ∀ f position t moves depth t',
      compileArgs m scope f position t args = .ok (moves, depth, t') →
        A f position t args moves depth t')
  case str =>
    intro raw t code t' h
    cases hs : decodeString raw with
    | error e => simp [Term.compile, hs] at h
    | ok s =>
      refine loaded t (.str raw) (.str s) .stringPointer code t' ?_ rfl ?_
      · simp [Term.constant?, hs, Except.toOption]
      · simpa [Term.compile, hs] using h
  case int =>
    intro text t code t' h
    cases hv : decodeInt text with
    | error e => simp [Term.compile, hv] at h
    | ok v =>
      cases htype : intLiteralType m.target text v with
      | error e => simp [Term.compile, hv, htype] at h
      | ok type =>
        refine loaded t (.int text) (.int v) type code t' ?_ ?_ ?_
        · simp [Term.constant?, hv, Except.toOption]
        · simp [Term.literalType?, hv, htype, Except.toOption]
        · simpa [Term.compile, hv, htype] using h
  case name =>
    intro name t code t' h
    cases hname : scope.lookup name <;> simp [Term.compile, hname] at h
  case call =>
    intro callee args _ hargs t code t' h
    cases callee with
    | name name =>
      obtain ⟨f, index, entered, moves, depth, last, hname, harity, hle, hf, hmoves, hlast, rfl⟩ :=
        Term.compile_call_ok_iff.1 h
      exact call t name args f index entered moves depth last t' hname harity hle hf
        hmoves (hargs f 0 entered moves depth t' hmoves) hlast
    | str raw => simp [Term.compile] at h
    | int text => simp [Term.compile] at h
    | call callee args => simp [Term.compile] at h
    | other kind text => simp [Term.compile] at h
  case other =>
    intro kind text t code t' h
    simp [Term.compile] at h
  case nil =>
    intro f position t moves depth t' h
    simp only [compileArgs, Except.ok.injEq, Prod.mk.injEq] at h
    obtain ⟨rfl, rfl, rfl⟩ := h
    exact nil f position t
  case cons =>
    intro arg args harg hargs f position t moves depth t' h
    obtain ⟨code, between, move, rest, needed, hcode, hmove, hrest, rfl, rfl⟩ :=
      compileArgs_cons_ok_iff.1 h
    obtain ⟨found, passed, tag, hfound, hpassed, htag, hle, rfl⟩ :=
      argumentInstruction_ok_iff.1 hmove
    exact cons f position t arg args code between found passed tag rest needed t' hcode
      (harg t code between hcode) hfound hpassed htag hle hrest
      (hargs f (position + 1) between rest needed t' hrest)

/-- A successful compilation only adds to the tables, and only functions that are in scope. -/
theorem Term.compile_growsTo {Q : Function → Prop}
    (hscope : ∀ name f, scope.lookup name = some f → Q f) :
    (∀ (term : Term) t code t', term.compile m scope t = .ok (code, t') → t.GrowsTo Q t') ∧
      ∀ args f position t moves depth t',
        compileArgs m scope f position t args = .ok (moves, depth, t') → t.GrowsTo Q t' := by
  apply Term.compile_induction (T := fun t _ _ t' => t.GrowsTo Q t')
    (A := fun _ _ t _ _ _ t' => t.GrowsTo Q t')
  case literal =>
    intro t term c type i t' _ _ hi
    exact Tables.growsTo_of_internConstant hi
  case call =>
    intro t name args f index entered moves depth last t' hname _ _ hf _ ih _
    exact (Tables.growsTo_of_internFunction hf (hscope name f hname)).trans ih
  case nil => exact fun _ _ t => .refl Q t
  case cons =>
    intro f position t arg args code between found passed tag rest needed t' _ iharg _ _ _ _ _
      ihargs
    exact iharg.trans ihargs

end Terms

/-! ## Statements -/

section Statements

variable {r : Resolution} {m : Machine}

/-- What compiling statements one after the other takes. -/
theorem compileBody_cons_ok_iff {scope : Scopes Function} {t t' : Tables} {s : Statement}
    {body : List Statement} {code : Code} :
    outcome (compileBody r.resolver m scope t (s :: body)) = .ok (code, t') ↔
      ∃ first between rest, outcome (s.compile r.resolver m scope t) = .ok (first, between) ∧
        outcome (compileBody r.resolver m scope between body) = .ok (rest, t') ∧
        code = ⟨none, first.instructions ++ rest.instructions, max first.depth rest.depth⟩ := by
  rw [compileBody]
  simp only [outcome_bind, Prod.exists, outcome_pure, Except.ok.injEq, Prod.mk.injEq]
  constructor
  · rintro ⟨first, between, hfirst, rest, _, hrest, rfl, rfl⟩
    exact ⟨first, between, rest, hfirst, hrest, rfl⟩
  · rintro ⟨first, between, rest, hfirst, hrest, rfl⟩
    exact ⟨first, between, hfirst, rest, t', hrest, rfl, rfl⟩

/-- The first of statements in a row are compiled to the first of their instructions. -/
theorem exists_compileBody_of_append {scope : Scopes Function} {t t' : Tables}
    {done rest : List Statement} {code : Code}
    (h : outcome (compileBody r.resolver m scope t (done ++ rest)) = .ok (code, t')) :
    ∃ first between, outcome (compileBody r.resolver m scope t done) = .ok (first, between) ∧
      first.instructions <+: code.instructions := by
  induction done generalizing t code with
  | nil => exact ⟨⟨none, [], 0⟩, t, rfl, List.nil_prefix⟩
  | cons s done ih =>
    obtain ⟨first, between, tail, hfirst, htail, rfl⟩ := compileBody_cons_ok_iff.1 h
    obtain ⟨inner, last, hinner, hpart⟩ := ih htail
    refine ⟨_, last, compileBody_cons_ok_iff.2 ⟨first, between, inner, hfirst, hinner, rfl⟩, ?_⟩
    exact (List.prefix_append_right_inj first.instructions).2 hpart

/-- **Induction over a successful compilation** of a statement, and of statements in a row. -/
theorem Statement.compile_induction
    {S : Scopes Function → Tables → Statement → Code → Tables → Prop}
    {B : Scopes Function → Tables → List Statement → Code → Tables → Prop}
    (expr : ∀ scope t term code t', term.compile m scope t = .ok (code, t') →
      S scope t (.expr term) code.discarded t')
    (block : ∀ scope t imports body inner code t',
      outcome (bindImports r.resolver scope.push imports) = .ok inner →
      B inner t body code t' → S scope t (.block imports body) code t')
    (nil : ∀ scope t, B scope t [] ⟨none, [], 0⟩ t)
    (cons : ∀ scope t s body first between rest t',
      outcome (s.compile r.resolver m scope t) = .ok (first, between) →
      S scope t s first between →
      outcome (compileBody r.resolver m scope between body) = .ok (rest, t') →
      B scope between body rest t' →
      B scope t (s :: body)
        ⟨none, first.instructions ++ rest.instructions, max first.depth rest.depth⟩ t') :
    (∀ s scope t code t', outcome (s.compile r.resolver m scope t) = .ok (code, t') →
      S scope t s code t') ∧
    ∀ body scope t code t', outcome (compileBody r.resolver m scope t body) = .ok (code, t') →
      B scope t body code t' := by
  apply Statement.induct
    (S := fun s => ∀ scope t code t', outcome (s.compile r.resolver m scope t) = .ok (code, t') →
      S scope t s code t')
    (B := fun body => ∀ scope t code t',
      outcome (compileBody r.resolver m scope t body) = .ok (code, t') → B scope t body code t')
  case expr =>
    intro term scope t code t' h
    simp only [Statement.compile, outcome_bind, outcome_withoutEffects, Prod.exists,
      outcome_pure, Except.ok.injEq, Prod.mk.injEq] at h
    obtain ⟨inner, _, hterm, rfl, rfl⟩ := h
    exact expr scope t term inner _ hterm
  case block =>
    intro imports body hbody scope t code t' h
    simp only [Statement.compile, outcome_bind] at h
    obtain ⟨inner, hinner, h⟩ := h
    exact block scope t imports body inner code t' hinner (hbody inner t code t' h)
  case other =>
    intro kind text scope t code t' h
    simp [Statement.compile] at h
  case nil =>
    intro scope t code t' h
    simp only [compileBody, outcome_pure, Except.ok.injEq, Prod.mk.injEq] at h
    obtain ⟨rfl, rfl⟩ := h
    exact nil scope t
  case cons =>
    intro s body hs hbody scope t code t' h
    obtain ⟨first, between, rest, hfirst, hrest, rfl⟩ := compileBody_cons_ok_iff.1 h
    exact cons scope t s body first between rest t' hfirst (hs scope t first between hfirst) hrest
      (hbody scope between rest t' hrest)

/-- A successful compilation only adds to the tables, and only functions that imports give. -/
theorem Statement.compile_growsTo {Q : Function → Prop}
    (hr : ∀ header name f, r header name = .ok f → Q f) :
    (∀ (s : Statement) scope t code t',
      outcome (s.compile r.resolver m scope t) = .ok (code, t') →
        (∀ name f, scope.lookup name = some f → Q f) → t.GrowsTo Q t') ∧
    ∀ body scope t code t',
      outcome (compileBody r.resolver m scope t body) = .ok (code, t') →
        (∀ name f, scope.lookup name = some f → Q f) → t.GrowsTo Q t' := by
  apply Statement.compile_induction
    (S := fun scope t _ _ t' => (∀ name f, scope.lookup name = some f → Q f) → t.GrowsTo Q t')
    (B := fun scope t _ _ t' => (∀ name f, scope.lookup name = some f → Q f) → t.GrowsTo Q t')
  case expr =>
    intro scope t term code t' h hscope
    exact (Term.compile_growsTo hscope).1 term t code t' h
  case block =>
    intro scope t imports body inner code t' hinner ih hscope
    refine ih fun name f hf => ?_
    rw [lookup_bindImports hinner, Scopes.lookup_push] at hf
    split at hf
    · exact hr _ name f (toOption_eq_some.1 hf)
    · exact hscope name f hf
  case nil => exact fun _ t _ => .refl Q t
  case cons =>
    intro scope t s body first between rest t' _ ihs _ ihbody hscope
    exact (ihs hscope).trans (ihbody hscope)

/-- What compiling a program takes. -/
theorem Program.bytecode_ok_iff {p : Program} {b : Bytecode} :
    p.bytecode r m = .ok b ↔
      ∃ scope code t, outcome (bindImports r.resolver .empty p.imports) = .ok scope ∧
        outcome (compileBody r.resolver m scope .empty p.body) = .ok (code, t) ∧
        b = ⟨t.constants, t.functions, code.instructions, code.depth⟩ := by
  unfold Program.bytecode Program.compile
  simp only [outcome_bind, Prod.exists, outcome_pure, Except.ok.injEq]
  constructor
  · rintro ⟨scope, hscope, code, t, hbody, rfl⟩
    exact ⟨scope, code, t, hscope, hbody, rfl⟩
  · rintro ⟨scope, code, t, hscope, hbody, rfl⟩
    exact ⟨scope, hscope, code, t, hbody, rfl⟩

end Statements

/-! ## A program and its bytecode -/

namespace Counting

/-- Two functions of one name, and a variadic one. -/
def functions : List Function :=
  [⟨"show", "count.h", none, .void, [⟨none, .stringPointer⟩], true⟩,
   ⟨"next", "count.h", none, .int, [⟨none, .int⟩], false⟩,
   ⟨"next", "skip.h", none, .int, [⟨none, .int⟩], false⟩]

/-- A program with nested calls, and with a block in which a name has another meaning. -/
def program : Program where
  imports := [⟨"count.h", ["next", "show"]⟩]
  body :=
    [.expr (.call (.name "show")
      [.str "%d", .call (.name "next") [.call (.name "next") [.int "1"]]]),
     .block [⟨"skip.h", ["next"]⟩] [.expr (.call (.name "next") [.int "1"]), .expr (.int "7")],
     .expr (.call (.name "next") [.int "2"])]

def bytecode : Bytecode where
  constants := [.str "%d", .int 1, .int 7, .int 2]
  functions := functions
  instructions :=
    [.startCall 0 2, .loadConstant 0, .argument 0 14, .startCall 1 1, .startCall 1 1,
     .loadConstant 1, .argument 0 10, .callFunction 1 10, .argument 0 10, .callFunction 1 10,
     .argument 1 10, .callVoidVar 2 1, .startCall 2 1, .loadConstant 1, .argument 0 10,
     .callFunction 1 10, .discard 1, .loadConstant 2, .discard 1, .startCall 1 1, .loadConstant 3,
     .argument 0 10, .callFunction 1 10, .discard 1]
  maxStack := 4

theorem program_bytecode :
    program.bytecode (.ofFunctions functions) ⟨.lp64, .standard⟩ = .ok bytecode := by
  decide +kernel

end Counting

end ForeignCall
