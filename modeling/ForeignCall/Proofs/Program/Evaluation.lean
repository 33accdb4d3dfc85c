import ForeignCall.Proofs.Bytecode.Derivation

/-!
# ForeignCall.Proofs.Program.Evaluation

What a program does, told directly on its source. Statements are taken one after the other, the
arguments of a call from left to right, and every call is performed as soon as its arguments have
values. What a call gives back is up to a host with a state of its own.

* `Host`, `World.perform` — calls and their results;
* `Term.evaluate`, `Program.evaluate` — the evaluation of expressions and programs. Forms without a
  meaning, such as an argument that is a call without a result, have no evaluation.
-/

namespace ForeignCall

/-- A value that a program handles: a constant of its own, or the result of a call. -/
inductive Value (ρ : Type) where
  | constant (c : Constant)
  | result (r : ρ)
deriving DecidableEq

/-- A call: what is called, and the arguments in order. -/
structure Call (ρ : Type) where
  function : Function
  args : List (Value ρ)

/-- What performs the calls. A result may depend on everything that has happened before, through the
state. A call of a function that returns nothing has a result too, which nobody looks at. -/
abbrev Host (σ ρ : Type) := Call ρ → σ → ρ × σ

/-- The state of the host, and the calls that it has performed, the first one first. -/
structure World (σ ρ : Type) where
  state : σ
  calls : List (Call ρ)

variable {σ ρ : Type}

/-- Performs a call. -/
def World.perform (host : Host σ ρ) (w : World σ ρ) (c : Call ρ) : ρ × World σ ρ :=
  ((host c w.state).1, ⟨(host c w.state).2, w.calls ++ [c]⟩)

section Evaluation

variable (host : Host σ ρ) (r : Resolution)

mutual

/-- The value of an expression, if it has one, and the world afterwards. -/
def Term.evaluate (around : List (List Import)) :
    Term → World σ ρ → Option (Option (Value ρ) × World σ ρ)
  | .str raw, w => (decodeString raw).toOption.map fun s => (some (.constant (.str s)), w)
  | .int text, w => (decodeInt text).toOption.map fun v => (some (.constant (.int v)), w)
  | .call (.name name) args, w => do
    let f ← meaning? r around name
    let (values, w) ← evaluateArgs around args w
    let (result, w) := w.perform host ⟨f, values⟩
    some (if f.ret.isVoid then none else some (.result result), w)
  | .name _, _ | .call _ _, _ | .other _ _, _ => none

/-- The values of arguments, and the world afterwards. -/
def evaluateArgs (around : List (List Import)) :
    List Term → World σ ρ → Option (List (Value ρ) × World σ ρ)
  | [], w => some ([], w)
  | arg :: args, w => do
    let (value, w) ← arg.evaluate around w
    let value ← value
    let (values, w) ← evaluateArgs around args w
    some (value :: values, w)

end

mutual

/-- The world after a statement. -/
def Statement.evaluate (around : List (List Import)) :
    Statement → World σ ρ → Option (World σ ρ)
  | .expr term, w => (term.evaluate host r around w).map (·.2)
  | .block imports body, w => evaluateBody (imports :: around) body w
  | .other _ _, _ => none

/-- The world after statements in a row. -/
def evaluateBody (around : List (List Import)) :
    List Statement → World σ ρ → Option (World σ ρ)
  | [], w => some w
  | s :: body, w => (s.evaluate around w).bind (evaluateBody around body)

end

/-- The world after a program. -/
def Program.evaluate (p : Program) (w : World σ ρ) : Option (World σ ρ) :=
  evaluateBody host r [p.imports] p.body w

end Evaluation

/-! ## Laws -/

variable {host : Host σ ρ} {r : Resolution} {around : List (List Import)}

/-- A literal stands for its constant and changes nothing. -/
theorem Term.evaluate_literal {term : Term} {c : Constant} (h : term.constant? = some c)
    (w : World σ ρ) : term.evaluate host r around w = some (some (.constant c), w) := by
  cases term with
  | str raw =>
    obtain ⟨s, hs, rfl⟩ := Option.map_eq_some_iff.1 h
    simp [Term.evaluate, hs]
  | int text =>
    obtain ⟨v, hv, rfl⟩ := Option.map_eq_some_iff.1 h
    simp [Term.evaluate, hv]
  | name name => simp [constant?] at h
  | call callee args => simp [constant?] at h
  | other kind text => simp [constant?] at h

/-- A call is performed once its arguments have values. -/
theorem Term.evaluate_call {name : String} {args : List Term} {f : Function}
    {values : List (Value ρ)} {w w' : World σ ρ} (hf : meaning? r around name = some f)
    (hargs : evaluateArgs host r around args w = some (values, w')) :
    (Term.call (.name name) args).evaluate host r around w =
      some (if f.ret.isVoid then none else some (.result (w'.perform host ⟨f, values⟩).1),
        (w'.perform host ⟨f, values⟩).2) := by
  simp [Term.evaluate, hf, hargs]

/-- Arguments have values when each of them has, in order. -/
theorem evaluateArgs_cons {arg : Term} {args : List Term} {value : Value ρ}
    {values : List (Value ρ)} {w w' w'' : World σ ρ}
    (harg : arg.evaluate host r around w = some (some value, w'))
    (hargs : evaluateArgs host r around args w' = some (values, w'')) :
    evaluateArgs host r around (arg :: args) w = some (value :: values, w'') := by
  simp [evaluateArgs, harg, hargs]

end ForeignCall
