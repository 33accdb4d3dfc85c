import ForeignCall.Proofs.Bytecode.Derivation
import ForeignCall.Proofs.Bytecode.Promotion
import ForeignCall.Proofs.Bytecode.Runs

/-!
# ForeignCall.Proofs.Bytecode.Emission

The code of a program, told without the compiler: which type every expression has, and with which
tag every argument is moved into the frame of its call. An argument that a parameter describes has
the tag of the parameter. For the others, in the variadic tail, a rule says as which types they may
be passed.

* `Emits`, `EmitsArgs` — the code of expressions and arguments under a rule;
* `EmitsStatement`, `EmitsBody`, `Program.Emits` — the code of statements and programs;
* `Program.emits_promoted` — programs are compiled under the default argument promotions of C, as
  far as no unsigned type needs an `unsigned int`;
* `Port.program_tag` — an unsigned argument with the tag of an `int`.
-/

namespace ForeignCall

/-! ## Code under a rule -/

section Relations

variable (m : Machine) (rule : CType → CType → Prop)

mutual

/-- The type of the value that an expression leaves, and its code. -/
inductive Emits (scope : Scopes Function) : Term → Option CType → List Instruction → Prop where
  | literal {term : Term} {c : Constant} {type : CType} (index : UInt8)
    (hconstant : term.constant? = some c) (htype : term.literalType? m = some type) :
    Emits scope term (some type) [.loadConstant index]
  | call {name : String} {f : Function} {args : List Term} {moves : List Instruction}
    {last : Instruction} (index : UInt8) (hname : scope.lookup name = some f)
    (hargs : EmitsArgs scope f 0 args moves)
    (hlast : callInstruction m f (UInt8.ofNat args.length) (UInt8.ofNat f.arity) = .ok last) :
    Emits scope (.call (.name name) args) f.result
      (.startCall index (UInt8.ofNat args.length) :: moves ++ [last])

/-- The code of the arguments from a position on. -/
inductive EmitsArgs (scope : Scopes Function) :
    Function → Nat → List Term → List Instruction → Prop where
  | nil (f : Function) (position : Nat) : EmitsArgs scope f position [] []
  | fixed {f : Function} {position : Nat} {param : Member CType} {arg : Term} {args : List Term}
    {found : CType} {code rest : List Instruction} {tag : UInt8}
    (hparam : f.params[position]? = some param) (harg : Emits scope arg (some found) code)
    (htag : m.tags.tagOf m.target param.type.decayed = some tag)
    (hargs : EmitsArgs scope f (position + 1) args rest) :
    EmitsArgs scope f position (arg :: args)
      (code ++ .argument (UInt8.ofNat position) tag :: rest)
  | tail {f : Function} {position : Nat} {arg : Term} {args : List Term} {found passed : CType}
    {code rest : List Instruction} {tag : UInt8} (hvariadic : f.variadic = true)
    (hparam : f.params[position]? = none) (harg : Emits scope arg (some found) code)
    (hpassed : rule found passed) (htag : m.tags.tagOf m.target passed = some tag)
    (hargs : EmitsArgs scope f (position + 1) args rest) :
    EmitsArgs scope f position (arg :: args)
      (code ++ .argument (UInt8.ofNat position) tag :: rest)

end

variable {σ : Type} (resolve : Resolver (StateM σ))

mutual

/-- The code of a statement. Its imports may change the state in which names are resolved. -/
inductive EmitsStatement : σ → Scopes Function → Statement → List Instruction → σ → Prop where
  | expr {state : σ} {scope : Scopes Function} {term : Term} {result : Option CType}
    {code : List Instruction} (hterm : Emits m rule scope term result code) :
    EmitsStatement state scope (.expr term)
      (code ++ (result.map fun _ => Instruction.discard 1).toList) state
  | block {state entered after : σ} {scope inner : Scopes Function} {imports : List Import}
    {body : List Statement} {code : List Instruction}
    (himports : runFrom state (bindImports resolve scope.push imports) = (.ok inner, entered))
    (hbody : EmitsBody entered inner body code after) :
    EmitsStatement state scope (.block imports body) code after

/-- The code of statements in a row. -/
inductive EmitsBody : σ → Scopes Function → List Statement → List Instruction → σ → Prop where
  | nil (state : σ) (scope : Scopes Function) : EmitsBody state scope [] [] state
  | cons {state between after : σ} {scope : Scopes Function} {s : Statement}
    {body : List Statement} {first rest : List Instruction}
    (hs : EmitsStatement state scope s first between)
    (hbody : EmitsBody between scope body rest after) :
    EmitsBody state scope (s :: body) (first ++ rest) after

end

/-- The code of a program. -/
def Program.Emits (p : Program) (state : σ) (code : List Instruction) : Prop :=
  ∃ scope entered after,
    runFrom state (bindImports resolve .empty p.imports) = (.ok scope, entered) ∧
    EmitsBody m rule resolve entered scope p.body code after

end Relations

/-! ## The code of the compiler -/

section Compilation

variable {m : Machine} {rule : CType → CType → Prop}

/-- **The code of expressions** is that of a rule by which the promoted types may be passed. -/
theorem emits_of_compile (hrule : ∀ found, rule found (promoted found))
    {scope : Scopes Function} :
    (∀ (term : Term) t code t', term.compile m scope t = .ok (code, t') →
      Emits m rule scope term code.result code.instructions) ∧
    ∀ args f position t moves depth t',
      compileArgs m scope f position t args = .ok (moves, depth, t') →
        (position + args.length ≤ f.arity ∨ f.variadic = true) →
        EmitsArgs m rule scope f position args moves := by
  apply Term.compile_induction
    (T := fun _ term code _ => Emits m rule scope term code.result code.instructions)
    (A := fun f position _ args moves _ _ =>
      (position + args.length ≤ f.arity ∨ f.variadic = true) →
        EmitsArgs m rule scope f position args moves)
  case literal =>
    intro t term c type index t' hconstant htype _
    exact .literal index hconstant htype
  case call =>
    intro t name args f index entered moves depth last t' hname harity _ _ _ ih hlast
    refine .call index hname (ih ?_) hlast
    rw [Nat.zero_add]
    exact (checkArity_ok_iff.1 harity).2.imp_left Nat.le_of_eq
  case nil => exact fun f position t _ => .nil f position
  case cons =>
    intro f position t arg args code between found passed tag rest needed t' _ iharg hfound
      hpassed htag _ _ ihargs hlimit
    rw [hfound] at iharg
    rw [Machine.tag_ok_iff] at htag
    rw [List.length_cons] at hlimit
    have hrest := ihargs (hlimit.imp_left fun hle => by omega)
    unfold passedType at hpassed
    split at hpassed
    · next param hparam =>
      split at hpassed
      · obtain ⟨_, -, rfl⟩ := except_map_eq_ok.1 hpassed
        exact .fixed hparam iharg htag hrest
      · cases hpassed
    · next hparam =>
      obtain rfl := Except.ok.inj hpassed
      have hbehind : f.arity ≤ position := List.getElem?_eq_none_iff.1 hparam
      have hvariadic : f.variadic = true := hlimit.resolve_left (by omega)
      exact .tail hvariadic hparam iharg (hrule found) htag hrest

theorem instructions_discarded (code : Code) :
    code.discarded.instructions =
      code.instructions ++ (code.result.map fun _ => Instruction.discard 1).toList := by
  unfold Code.discarded
  cases h : code.result <;> simp

variable {σ : Type} {resolve : Resolver (StateM σ)}

/-- **The code of statements** is that of a rule by which the promoted types may be passed. -/
theorem emitsBody_of_compile (hrule : ∀ found, rule found (promoted found)) :
    (∀ (s : Statement) scope t (state : σ) code t' after,
      runFrom state (s.compile resolve m scope t) = (.ok (code, t'), after) →
        EmitsStatement m rule resolve state scope s code.instructions after) ∧
    ∀ body scope t (state : σ) code t' after,
      runFrom state (compileBody resolve m scope t body) = (.ok (code, t'), after) →
        EmitsBody m rule resolve state scope body code.instructions after := by
  apply Statement.induct
    (S := fun s => ∀ scope t (state : σ) code t' after,
      runFrom state (s.compile resolve m scope t) = (.ok (code, t'), after) →
        EmitsStatement m rule resolve state scope s code.instructions after)
    (B := fun body => ∀ scope t (state : σ) code t' after,
      runFrom state (compileBody resolve m scope t body) = (.ok (code, t'), after) →
        EmitsBody m rule resolve state scope body code.instructions after)
  case expr =>
    intro term scope t state code t' after h
    simp only [Statement.compile, runFrom_bind_eq_ok, runFrom_withoutEffects, runFrom_pure,
      Prod.mk.injEq, Except.ok.injEq] at h
    obtain ⟨⟨inner, entered⟩, _, ⟨hterm, rfl⟩, ⟨rfl, -⟩, rfl⟩ := h
    rw [instructions_discarded]
    exact .expr ((emits_of_compile hrule).1 term t inner entered hterm)
  case block =>
    intro imports body hbody scope t state code t' after h
    simp only [Statement.compile, runFrom_bind_eq_ok] at h
    obtain ⟨inner, entered, himports, hrest⟩ := h
    exact .block himports (hbody inner t entered code t' after hrest)
  case other =>
    intro kind text scope t state code t' after h
    rw [Statement.compile] at h
    cases h
  case nil =>
    intro scope t state code t' after h
    simp only [compileBody, runFrom_pure, Prod.mk.injEq, Except.ok.injEq] at h
    obtain ⟨⟨rfl, -⟩, rfl⟩ := h
    exact .nil state scope
  case cons =>
    intro s body hs hbody scope t state code t' after h
    simp only [compileBody, runFrom_bind_eq_ok, runFrom_pure, Prod.mk.injEq, Except.ok.injEq] at h
    obtain ⟨⟨first, entered⟩, between, hfirst, ⟨rest, last⟩, _, hrest, ⟨rfl, -⟩, rfl⟩ := h
    exact .cons (hs scope t state first entered between hfirst)
      (hbody scope entered between rest last _ hrest)

/-- **The code of a program** is that of a rule by which the promoted types may be passed. -/
theorem Program.emits_of_run (hrule : ∀ found, rule found (promoted found)) {p : Program}
    {state : σ} {b : Bytecode} (hb : (runFrom state (p.compile resolve m)).1 = .ok b) :
    p.Emits m rule resolve state b.instructions := by
  obtain ⟨scope, entered, code, t, himports, hbody, rfl⟩ := Program.run_eq_ok_iff.1 hb
  have hrun : runFrom entered (compileBody resolve m scope .empty p.body) = (.ok (code, t), _) :=
    Prod.ext hbody rfl
  exact ⟨scope, entered, _, himports,
    (emitsBody_of_compile hrule).2 p.body scope .empty entered code t _ hrun⟩

/-- The types as which the compiler passes arguments in the variadic tail: those of the promotions
of C, but an `int` where these ask for an `unsigned int`. -/
def Target.PassedAs (target : Target) (found passed : CType) : Prop :=
  if target.FillsInt found then passed = .int else target.Promotes found passed

theorem passedAs_promoted {target : Target} (h : target.Ordered) (found : CType) :
    target.PassedAs found (promoted found) := by
  unfold Target.PassedAs
  split
  · next hfills => exact (hfills.promotes h).2.1
  · next hfills => exact (promotes_promoted_iff h found).mpr hfills

/-- **The tags of the variadic tail.** However imports are resolved, in a program that is compiled
each argument in the tail of a call has the tag of the type that the promotions of C give to its
type, unless its type is unsigned, of a lower rank and as long as an `int`; then it has the tag of
`int`. So all are promoted as in C on a target whose `short` is shorter than its `int`. The
promotions of C change no value; for the types that are left out they give an `unsigned int`, and an
`int` has not all of the values. -/
theorem Program.emits_promoted (h : m.target.Ordered) {p : Program} {state : σ} {b : Bytecode}
    (hb : (runFrom state (p.compile resolve m)).1 = .ok b) :
    p.Emits m m.target.PassedAs resolve state b.instructions ∧
      (m.target.short.size < m.target.int.size →
        p.Emits m m.target.Promotes resolve state b.instructions) ∧
      (∀ found passed, m.target.Promotes found passed →
        ∀ v, m.target.Represents found v → m.target.Represents passed v) ∧
      ∀ found, m.target.FillsInt found → m.target.Promotes found .uint ∧
        ∃ v, m.target.Represents found v ∧ ¬m.target.Represents .int v := by
  refine ⟨?_, ?_, fun found passed hpromotes v hv => hpromotes.represents h hv, ?_⟩
  · exact emits_of_run (passedAs_promoted h) hb
  · intro hshort
    exact emits_of_run
      (fun found => (promotes_promoted_iff h found).mpr (h.not_fillsInt hshort found)) hb
  · intro found hfills
    obtain ⟨hpromotes, -, hholds⟩ := hfills.promotes h
    refine ⟨hpromotes, ?_⟩
    simpa only [Target.IntHolds, not_forall, exists_prop] using hholds

end Compilation

namespace Port

/-- A target whose `int` has 16 bits, as many as its `short`. -/
def target : Target := { Target.lp64 with int := ⟨2, 2⟩, long := ⟨4, 4⟩ }

theorem ordered : target.Ordered where
  sizes kind := by cases kind <;> decide
  bool_le := by decide
  char_le := by decide
  short_le := by decide
  int_le := by decide
  long_le := by decide

/-- The functions `unsigned short read(void)` and `void print(char *format, ...)`. -/
def functions : List Function :=
  [⟨"print", "port.h", none, .void, [⟨some "format", .stringPointer⟩], true⟩,
   ⟨"read", "port.h", none, .integral .short false, [], false⟩]

/-- The program `print("%u", read());`. -/
def program : Program where
  imports := [⟨"port.h", ["read", "print"]⟩]
  body := [.expr (.call (.name "print") [.str "%u", .call (.name "read") []])]

/-- The functions are resolved without a state. -/
def resolver : Resolver (StateM Unit) := fun header name =>
  pure (Resolution.ofFunctions functions header name)

def bytecode : Bytecode where
  constants := [.str "%u"]
  functions := functions
  instructions :=
    [.startCall 0 2, .loadConstant 0, .argument 0 14, .startCall 1 0, .callFunction 0 7,
     .argument 1 8, .callVoidVar 2 1]
  maxStack := 2

theorem program_compile :
    (runFrom () (program.compile resolver ⟨target, .standard⟩)).1 = .ok bytecode := by
  decide +kernel

theorem program_emits :
    target.Ordered ∧
      (runFrom () (program.compile resolver ⟨target, .standard⟩)).1 = .ok bytecode ∧
      program.Emits ⟨target, .standard⟩ target.PassedAs resolver () bytecode.instructions :=
  ⟨ordered, program_compile,
    (Program.emits_promoted (m := ⟨target, .standard⟩) ordered program_compile).1⟩

/-- C promotes what `read` gives to an `unsigned int`, whose tag is 7. It is passed with the tag 8
of an `int`, and so 65535 becomes another number. -/
theorem program_tag :
    target.Ordered ∧
      (runFrom () (program.compile resolver ⟨target, .standard⟩)).1 = .ok bytecode ∧
      (∀ passed, target.Promotes (.integral .short false) passed →
        TagTable.standard.tagOf target passed = some 7) ∧
      .argument 1 7 ∉ bytecode.instructions ∧ .argument 1 8 ∈ bytecode.instructions ∧
      target.Represents (.integral .short false) 65535 ∧ ¬target.Represents .int 65535 := by
  refine ⟨ordered, program_compile, ?_, by decide, by decide, ?_, ?_⟩
  · intro passed hpromotes
    cases hpromotes with
    | toInt hrank hholds =>
      exact absurd ⟨hrank, by decide, rfl, rfl⟩ ((ordered.intHolds_iff hrank).mp hholds)
    | toUInt => rfl
    | same hunpromoted => cases hunpromoted
  · rw [represents_iff_hasWidth (by decide)]
    simp [HasWidth, target, Target.integral, Target.lp64]
  · rw [represents_int_iff]
    simp [HasWidth, target]

end Port

end ForeignCall
