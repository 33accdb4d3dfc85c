import ForeignCall.Proofs.Program.Evaluation

/-!
# ForeignCall.Proofs.Bytecode.Machine

The stack machine that runs bytecode. It has a stack of values and a stack of frames, one for each
call that has been started and not been performed yet. A frame has a place for every argument.

The machine is stuck, and has no next state, when an index is not in its table, when values are
missing on the stack, when an argument goes to a place that is taken or does not exist, and when a
call is ended that has not been started, has another number of arguments or lacks one of them.

* `State.step`, `State.run` — instructions, one at a time and in a row;
* `State.run_append` — running in parts.
-/

namespace ForeignCall

variable {σ ρ : Type}

/-- A call that has been started, with the arguments that it has got. -/
structure Frame (ρ : Type) where
  function : Function
  args : List (Option (Value ρ))

/-- The frame of a call without arguments so far. -/
def Frame.start (f : Function) (argc : Nat) : Frame ρ := ⟨f, List.replicate argc none⟩

/-- The arguments of a call, if it has got all of them. -/
def Frame.values? (frame : Frame ρ) : Option (List (Value ρ)) := frame.args.mapM id

/-- A frame that has got all arguments has their values. -/
@[simp] theorem Frame.values?_full (f : Function) (values : List (Value ρ)) :
    (⟨f, values.map some⟩ : Frame ρ).values? = some values := by
  unfold Frame.values?
  induction values with
  | nil => rfl
  | cons value values ih =>
    rw [List.map_cons, List.mapM_cons, id, ih]
    rfl

/-- The state of the machine; the top of the stack and the innermost frame come first. -/
structure State (σ ρ : Type) where
  stack : List (Value ρ)
  frames : List (Frame ρ)
  world : World σ ρ

namespace State

section Step

variable (host : Host σ ρ)

/-- Ends a call of `argc` arguments; its result is pushed if that is asked for. -/
def finish (s : State σ ρ) (argc : UInt8) (push : Bool) : Option (State σ ρ) :=
  match s.frames with
  | [] => none
  | frame :: frames =>
    if frame.args.length = argc.toNat then do
      let values ← frame.values?
      let (result, world) := s.world.perform host ⟨frame.function, values⟩
      some ⟨if push then .result result :: s.stack else s.stack, frames, world⟩
    else none

/-- The state after an instruction. -/
def step (tables : Tables) (s : State σ ρ) : Instruction → Option (State σ ρ)
  | .loadConstant i =>
    (tables.constants[i.toNat]?).map fun c => { s with stack := .constant c :: s.stack }
  | .discard n =>
    if n.toNat ≤ s.stack.length then some { s with stack := s.stack.drop n.toNat } else none
  | .startCall f argc =>
    (tables.functions[f.toNat]?).map fun f =>
      { s with frames := .start f argc.toNat :: s.frames }
  | .argument position _ =>
    match s.stack, s.frames with
    | value :: stack, frame :: frames =>
      match frame.args[position.toNat]? with
      | some none =>
        some { s with
          stack := stack
          frames := ⟨frame.function, frame.args.set position.toNat (some value)⟩ :: frames }
      | _ => none
    | _, _ => none
  | .callFunction argc _ => s.finish host argc true
  | .callVoidFunction argc => s.finish host argc false
  | .callVar argc _ _ => s.finish host argc true
  | .callVoidVar argc _ => s.finish host argc false

/-- The state after instructions in a row. -/
def run (tables : Tables) (s : State σ ρ) : List Instruction → Option (State σ ρ)
  | [] => some s
  | i :: is => (s.step host tables i).bind fun s' => s'.run tables is

end Step

/-! ## Laws -/

variable {host : Host σ ρ} {tables : Tables} {stack : List (Value ρ)} {frames : List (Frame ρ)}
  {w : World σ ρ}

/-- Instructions run in parts. -/
theorem run_append {s s' : State σ ρ} {is : List Instruction}
    (h : s.run host tables is = some s') (js : List Instruction) :
    s.run host tables (is ++ js) = s'.run host tables js := by
  induction is generalizing s with
  | nil =>
    obtain rfl := Option.some.inj h
    rfl
  | cons i is ih =>
    obtain ⟨between, hstep, hrun⟩ := Option.bind_eq_some_iff.1 h
    rw [List.cons_append, run, hstep]
    exact ih hrun

/-- An instruction runs before those behind it. -/
theorem run_cons {s s' : State σ ρ} {i : Instruction} (h : s.step host tables i = some s')
    (is : List Instruction) : s.run host tables (i :: is) = s'.run host tables is := by
  rw [run, h, Option.bind_some]

/-- Instructions that run to their end run up to every place before. -/
theorem exists_run_of_prefix {s s' : State σ ρ} {done is : List Instruction}
    (h : s.run host tables is = some s') (hpart : done <+: is) :
    ∃ between, s.run host tables done = some between := by
  induction done generalizing s is with
  | nil => exact ⟨s, rfl⟩
  | cons i done ih =>
    obtain ⟨rest, rfl⟩ := hpart
    obtain ⟨next, hstep, hrun⟩ := Option.bind_eq_some_iff.1 h
    rw [run_cons hstep]
    exact ih hrun (List.prefix_append done rest)

/-- The first place that is free takes the value on top of the stack. -/
theorem step_argument {f : Function} {filled : List (Value ρ)} {free : Nat} {value : Value ρ}
    {position : UInt8} (hposition : position.toNat = filled.length) (tag : UInt8) :
    State.step host tables
      ⟨value :: stack, ⟨f, filled.map some ++ List.replicate (free + 1) none⟩ :: frames, w⟩
      (.argument position tag) =
    some ⟨stack, ⟨f, (filled ++ [value]).map some ++ List.replicate free none⟩ :: frames, w⟩ := by
  have hget : (filled.map some ++ List.replicate (free + 1) none)[position.toNat]? =
      some (none : Option (Value ρ)) := by
    rw [hposition, List.getElem?_append_right (by simp)]
    simp
  have hset : (filled.map some ++ List.replicate (free + 1) none).set position.toNat (some value) =
      (filled ++ [value]).map some ++ List.replicate free (none : Option (Value ρ)) := by
    rw [hposition, List.set_append_right _ _ (by simp)]
    simp [List.replicate_succ]
  simp only [step]
  rw [hget, hset]

/-- The instruction that ends the call of a full frame performs the call. -/
theorem step_of_ends {f : Function} {values : List (Value ρ)} {i : Instruction}
    (h : i.Ends f values.length) :
    State.step host tables ⟨stack, ⟨f, values.map some⟩ :: frames, w⟩ i =
      some ⟨(if f.ret.isVoid then [] else [.result (w.perform host ⟨f, values⟩).1]) ++ stack,
        frames, (w.perform host ⟨f, values⟩).2⟩ := by
  cases i <;> simp only [Instruction.Ends] at h <;>
    simp [step, finish, h]

end State

end ForeignCall
