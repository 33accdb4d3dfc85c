import ForeignCall.Proofs.Bytecode.Linking
import ForeignCall.Proofs.Bytecode.Machine

/-!
# ForeignCall.Proofs.Bytecode.Simulation

The bytecode of a program does what the program says: the machine is never stuck, leaves nothing
behind, and performs the calls that the evaluation of the source performs, in the same order and
with the same arguments, whatever the calls give back.

* `Term.simulates` — the code of an expression pushes its value, on any stack and inside any frames;
  the code of arguments fills the free places of the innermost frame;
* `simulates_discarded`, `simulatesBody_cons` — the code of statements leaves the stack as it was;
* `run_bytecode_eq_evaluate` — the whole program.
-/

namespace ForeignCall

variable {σ ρ : Type}

/-- On any stack, the code pushes the value that the expression has. -/
def Code.Simulates (host : Host σ ρ) (r : Resolution) (around : List (List Import)) (T : Tables)
    (term : Term) (code : Code) : Prop :=
  ∀ stack frames w, ∃ value w', term.evaluate host r around w = some (value, w') ∧
    value.isSome = code.result.isSome ∧
    State.run host T ⟨stack, frames, w⟩ code.instructions =
      some ⟨value.toList ++ stack, frames, w'⟩

/-- In any frame whose places from `position` on are free, the instructions fill these places with
the values that the arguments have. -/
def FillsFrame (host : Host σ ρ) (r : Resolution) (around : List (List Import)) (T : Tables)
    (position : Nat) (args : List Term) (moves : List Instruction) : Prop :=
  ∀ stack frames w (f : Function) (filled : List (Value ρ)), filled.length = position →
    ∃ values w', evaluateArgs host r around args w = some (values, w') ∧
      values.length = args.length ∧
      State.run host T
        ⟨stack, ⟨f, filled.map some ++ List.replicate args.length none⟩ :: frames, w⟩ moves =
      some ⟨stack, ⟨f, (filled ++ values).map some⟩ :: frames, w'⟩

/-- On any stack, the code does what the statements do. -/
def Code.SimulatesBody (host : Host σ ρ) (r : Resolution) (around : List (List Import))
    (T : Tables) (body : List Statement) (code : Code) : Prop :=
  ∀ stack frames w, ∃ w', evaluateBody host r around body w = some w' ∧
    State.run host T ⟨stack, frames, w⟩ code.instructions = some ⟨stack, frames, w'⟩

variable {host : Host σ ρ} {r : Resolution} {m : Machine}

/-- A loaded constant is the value of the literal. -/
theorem simulates_load {around : List (List Import)} {T : Tables} {term : Term} {c : Constant}
    {i : UInt8} {type : CType} (hc : term.constant? = some c)
    (hi : T.constants[i.toNat]? = some c) :
    Code.Simulates host r around T term ⟨some type, [.loadConstant i], 1⟩ := by
  intro stack frames w
  refine ⟨some (.constant c), w, Term.evaluate_literal hc w, rfl, ?_⟩
  simp [State.run, State.step, hi]

/-- A call is performed by the code that starts it, fills its frame and ends it. -/
theorem simulates_call {around : List (List Import)} {T : Tables} {name : String}
    {args : List Term} {f : Function} {index : UInt8} {moves : List Instruction} {depth : Nat}
    {last : Instruction} (hf : meaning? r around name = some f) (hle : args.length ≤ 255)
    (hindex : T.functions[index.toNat]? = some f)
    (hmoves : FillsFrame host r around T 0 args moves) (hlast : last.Ends f args.length) :
    Code.Simulates host r around T (.call (.name name) args)
      ⟨f.result, .startCall index (UInt8.ofNat args.length) :: moves ++ [last], depth⟩ := by
  intro stack frames w
  obtain ⟨values, w', hvalues, hlength, hrun⟩ := hmoves stack frames w f [] rfl
  refine ⟨_, _, Term.evaluate_call hf hvalues, ?_, ?_⟩
  · by_cases hret : f.ret.isVoid <;> simp [Function.result, hret]
  · have hargc : (UInt8.ofNat args.length).toNat = args.length := by
      rw [UInt8.toNat_ofNat', Nat.mod_eq_of_lt (by omega)]
    have hstart : State.step host T ⟨stack, frames, w⟩
        (.startCall index (UInt8.ofNat args.length)) =
        some ⟨stack, ⟨f, List.replicate args.length none⟩ :: frames, w⟩ := by
      simp [State.step, Frame.start, hindex, hargc]
    rw [List.cons_append, State.run_cons hstart]
    simp only [List.map_nil, List.nil_append] at hrun
    rw [← hlength] at hlast
    rw [State.run_append hrun, State.run_cons (State.step_of_ends hlast), State.run]
    by_cases hret : f.ret.isVoid <;> simp [hret]

/-- The code of an argument and the instruction that moves it fill one place of the frame. -/
theorem fillsFrame_cons {around : List (List Import)} {T : Tables} {position : Nat} {arg : Term}
    {args : List Term} {code : Code} {found : CType} {tag : UInt8} {rest : List Instruction}
    (hcode : Code.Simulates host r around T arg code) (hfound : code.result = some found)
    (hle : position ≤ 255) (hrest : FillsFrame host r around T (position + 1) args rest) :
    FillsFrame host r around T position (arg :: args)
      (code.instructions ++ .argument (UInt8.ofNat position) tag :: rest) := by
  intro stack frames w f filled hfilled
  obtain ⟨value, w', hvalue, hsome, hrun⟩ := hcode stack
    (⟨f, filled.map some ++ List.replicate (arg :: args).length none⟩ :: frames) w
  obtain ⟨value, rfl⟩ : ∃ v, value = some v := by
    rw [hfound] at hsome
    exact Option.isSome_iff_exists.1 hsome
  obtain ⟨values, w'', hvalues, hlength, hrun'⟩ :=
    hrest stack frames w' f (filled ++ [value]) (by simp [hfilled])
  refine ⟨value :: values, w'', evaluateArgs_cons hvalue hvalues, by simp [hlength], ?_⟩
  have hposition : (UInt8.ofNat position).toNat = filled.length := by
    rw [UInt8.toNat_ofNat', Nat.mod_eq_of_lt (by omega), hfilled]
  rw [State.run_append hrun, List.length_cons, Option.toList_some, List.singleton_append,
    State.run_cons (State.step_argument hposition tag), hrun', List.append_assoc,
    List.singleton_append]

/-- **Expressions**: the code of an expression pushes its value, and the code of arguments fills
the frame of their call. -/
theorem Term.simulates {scope : Scopes Function} {around : List (List Import)} (hr : r.Faithful)
    (hscope : ScopeOf r around scope) (T : Tables) :
    (∀ (term : Term) t code t', term.compile m scope t = .ok (code, t') → t.Sound r.Gives →
      t'.Within T → Code.Simulates host r around T term code) ∧
    ∀ args f position t moves depth t',
      compileArgs m scope f position t args = .ok (moves, depth, t') → t.Sound r.Gives →
        t'.Within T → FillsFrame host r around T position args moves := by
  apply Term.linked_induction T (hscope.gives hr) (C := Code.Simulates host r around T)
    (A := fun position args moves _ => FillsFrame host r around T position args moves)
  case literal => exact fun _ _ _ _ hc hi => simulates_load hc hi
  case call =>
    intro name args f index moves depth last hname hle hindex ih hlast
    exact simulates_call (hscope name ▸ hname) hle hindex ih hlast
  case nil =>
    intro position stack frames w f filled _
    exact ⟨[], w, rfl, rfl, by simp [State.run]⟩
  case cons =>
    intro position arg args code found tag rest needed harg hfound hle hrest
    exact fillsFrame_cons harg hfound hle hrest

/-- A statement that is an expression discards the value of the expression. -/
theorem simulates_discarded {around : List (List Import)} {T : Tables} {term : Term} {code : Code}
    (h : Code.Simulates host r around T term code) :
    Code.SimulatesBody host r around T [.expr term] code.discarded := by
  intro stack frames w
  obtain ⟨value, w', hvalue, hsome, hrun⟩ := h stack frames w
  refine ⟨w', by simp [evaluateBody, Statement.evaluate, hvalue], ?_⟩
  unfold Code.discarded
  cases hresult : code.result with
  | none =>
    rw [hresult, Option.isSome_none, Option.isSome_eq_false_iff, Option.isNone_iff_eq_none] at hsome
    rw [hsome] at hrun
    exact hrun
  | some type =>
    rw [hresult] at hsome
    obtain ⟨value, rfl⟩ := Option.isSome_iff_exists.1 hsome
    rw [State.run_append hrun]
    simp [State.run, State.step]

/-- Statements in a row do what the first one does and then what the others do. -/
theorem simulatesBody_cons {around : List (List Import)} {T : Tables} {s : Statement}
    {body : List Statement} {first rest : Code}
    (hfirst : Code.SimulatesBody host r around T [s] first)
    (hrest : Code.SimulatesBody host r around T body rest) :
    Code.SimulatesBody host r around T (s :: body)
      ⟨none, first.instructions ++ rest.instructions, max first.depth rest.depth⟩ := by
  intro stack frames w
  obtain ⟨w', hs, hrun⟩ := hfirst stack frames w
  obtain ⟨w'', hbody, hrun'⟩ := hrest stack frames w'
  simp only [evaluateBody, Option.bind_fun_some] at hs
  refine ⟨w'', ?_, ?_⟩
  · rw [evaluateBody, hs, Option.bind_some, hbody]
  · rw [State.run_append hrun, hrun']

/-- The instructions of a program do what its statements do. -/
theorem Program.simulates (host : Host σ ρ) (hr : r.Faithful) {p : Program} {b : Bytecode}
    (h : p.bytecode r m = .ok b) :
    Code.SimulatesBody host r [p.imports] b.tables p.body ⟨none, b.instructions, b.maxStack⟩ := by
  have hlinked : ∃ code, Code.SimulatesBody host r [p.imports] b.tables p.body code ∧
      b.instructions = code.instructions ∧ b.maxStack = code.depth := by
    apply Program.linked_induction hr h
      (S := fun around s => Code.SimulatesBody host r around b.tables [s])
      (B := fun around body => Code.SimulatesBody host r around b.tables body)
    case expr =>
      intro around scope t term code t' hscope h hsound hT
      exact simulates_discarded
        ((Term.simulates hr hscope b.tables).1 term t code t' h hsound hT)
    case block =>
      intro around imports body code hbody stack frames w
      obtain ⟨w', hw', hrun⟩ := hbody stack frames w
      exact ⟨w', by simp [evaluateBody, Statement.evaluate, hw'], hrun⟩
    case nil => exact fun around stack frames w => ⟨w, rfl, rfl⟩
    case cons => exact fun _ _ _ _ _ => simulatesBody_cons
  obtain ⟨code, hcode, hinstructions, _⟩ := hlinked
  intro stack frames w
  obtain ⟨w', hw', hrun⟩ := hcode stack frames w
  exact ⟨w', hw', hinstructions ▸ hrun⟩

/-- **The bytecode of a program does what the program says.** Run from an empty stack, it is never
stuck, leaves the stack empty again, and takes the host to the world that the evaluation of the
source leads to, with the same calls behind it. -/
theorem run_bytecode_eq_evaluate (host : Host σ ρ) {r : Resolution} (hr : r.Faithful)
    {m : Machine} {p : Program} {b : Bytecode} (h : p.bytecode r m = .ok b) (w : World σ ρ) :
    ∃ w', p.evaluate host r w = some w' ∧
      State.run host b.tables ⟨[], [], w⟩ b.instructions = some ⟨[], [], w'⟩ :=
  Program.simulates host hr h [] [] w

/-- In the counting program, where the host numbers its results, each call is performed as soon as
the calls among its arguments are. -/
theorem run_counting_bytecode :
    ∃ w', Counting.program.evaluate (fun _ n => (n, n + 1)) (.ofFunctions Counting.functions)
        ⟨0, []⟩ = some w' ∧
      State.run (fun _ n => (n, n + 1)) Counting.bytecode.tables ⟨[], [], ⟨0, []⟩⟩
        Counting.bytecode.instructions = some ⟨[], [], w'⟩ ∧
      w'.calls.map (fun c => (c.function.key, c.args)) =
        [(("count.h", "next"), [.constant (.int 1)]), (("count.h", "next"), [.result 0]),
         (("count.h", "show"), [.constant (.str "%d"), .result 1]),
         (("skip.h", "next"), [.constant (.int 1)]), (("count.h", "next"), [.constant (.int 2)])] := by
  obtain ⟨w', heval, hrun⟩ := run_bytecode_eq_evaluate (fun _ n => (n, n + 1))
    (Resolution.faithful_ofFunctions Counting.functions) Counting.program_bytecode ⟨0, []⟩
  refine ⟨w', heval, hrun, ?_⟩
  have hcalls : (Counting.program.evaluate (fun _ n => (n, n + 1))
      (.ofFunctions Counting.functions) ⟨0, []⟩).map
        (fun w => w.calls.map fun c => (c.function.key, c.args)) =
      some [(("count.h", "next"), [.constant (.int 1)]), (("count.h", "next"), [.result 0]),
        (("count.h", "show"), [.constant (.str "%d"), .result 1]),
        (("skip.h", "next"), [.constant (.int 1)]),
        (("count.h", "next"), [.constant (.int 2)])] := by
    decide +kernel
  rw [heval] at hcalls
  exact Option.some.inj hcalls

end ForeignCall
