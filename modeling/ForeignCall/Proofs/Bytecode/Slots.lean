import ForeignCall.Proofs.Bytecode.Machine
import Mathlib.Order.Bounds.Basic

/-!
# ForeignCall.Proofs.Bytecode.Slots

What instructions do to the slots of the stack, whatever the values are. A slot holds a value or a
call that is open, so a call is ended only by an instruction that finds it on top, and an argument
is a value that has been pushed since its call was started.

* `Slots.step`, `Slots.run` — the slots after instructions, with the calls that they have ended;
* `Slots.peak` — the most slots that are taken on the way;
* `State.isGreatest_depths` — it is the greatest depth that the machine reaches.
-/

namespace ForeignCall

/-- A call that has been started: what is called, with how many arguments, and the positions that
arguments have been moved to, in order. -/
structure OpenCall where
  function : UInt8
  argc : UInt8
  positions : List UInt8
deriving DecidableEq

/-- What takes a slot of the stack. -/
inductive Slot where
  | value
  | call (c : OpenCall)
deriving DecidableEq

/-- Whether a value takes the slot. -/
def Slot.isValue : Slot → Bool
  | .value => true
  | .call _ => false

/-- The slots that are taken, the top first, and the calls that have been ended, each with the
instruction that has done so. -/
structure Slots where
  taken : List Slot
  ended : List (OpenCall × Instruction)
deriving DecidableEq

namespace Slots

/-- How many slots are taken. -/
def depth (s : Slots) : Nat := s.taken.length

/-- Ends the call on top; its result is pushed if that is asked for. -/
def finish (s : Slots) (i : Instruction) (push : Bool) : Option Slots :=
  match s.taken with
  | .call c :: rest => some ⟨if push then .value :: rest else rest, s.ended ++ [(c, i)]⟩
  | _ => none

/-- The slots after an instruction. -/
def step (s : Slots) : Instruction → Option Slots
  | .loadConstant _ => some { s with taken := .value :: s.taken }
  | .discard n =>
    if n.toNat ≤ s.taken.length ∧ (s.taken.take n.toNat).all Slot.isValue then
      some { s with taken := s.taken.drop n.toNat }
    else none
  | .startCall f argc => some { s with taken := .call ⟨f, argc, []⟩ :: s.taken }
  | .argument position _ =>
    match s.taken with
    | .value :: .call c :: rest =>
      some { s with taken := .call { c with positions := c.positions ++ [position] } :: rest }
    | _ => none
  | .callFunction argc t => s.finish (.callFunction argc t) true
  | .callVoidFunction argc => s.finish (.callVoidFunction argc) false
  | .callVar argc fixed t => s.finish (.callVar argc fixed t) true
  | .callVoidVar argc fixed => s.finish (.callVoidVar argc fixed) false

/-- The slots after instructions in a row. -/
def run (s : Slots) : List Instruction → Option Slots
  | [] => some s
  | i :: is => (s.step i).bind fun s' => s'.run is

/-- The most slots that are taken before, between and after instructions in a row. -/
def peak (s : Slots) : List Instruction → Nat
  | [] => s.depth
  | i :: is => max s.depth (((s.step i).map fun s' => s'.peak is).getD 0)

/-! ## Laws -/

variable {s s' : Slots} {i : Instruction} {is : List Instruction}

/-- An instruction runs before those behind it. -/
theorem run_cons (h : s.step i = some s') (is : List Instruction) :
    s.run (i :: is) = s'.run is := by
  rw [run, h, Option.bind_some]

/-- Instructions run in parts. -/
theorem run_append (h : s.run is = some s') (js : List Instruction) :
    s.run (is ++ js) = s'.run js := by
  induction is generalizing s with
  | nil =>
    obtain rfl := Option.some.inj h
    rfl
  | cons i is ih =>
    obtain ⟨between, hstep, hrun⟩ := Option.bind_eq_some_iff.1 h
    rw [List.cons_append, run_cons hstep, ih hrun]

theorem peak_cons (h : s.step i = some s') (is : List Instruction) :
    s.peak (i :: is) = max s.depth (s'.peak is) := by
  rw [peak, h]
  rfl

/-- The peak is not below the start. -/
theorem depth_le_peak (s : Slots) (is : List Instruction) : s.depth ≤ s.peak is := by
  cases is with
  | nil => exact le_rfl
  | cons i is => exact le_max_left ..

/-- The peak of instructions in a row is that of one of the parts. -/
theorem peak_append (h : s.run is = some s') (js : List Instruction) :
    s.peak (is ++ js) = max (s.peak is) (s'.peak js) := by
  induction is generalizing s with
  | nil =>
    obtain rfl := Option.some.inj h
    rw [List.nil_append, peak, max_eq_right (s.depth_le_peak js)]
  | cons i is ih =>
    obtain ⟨between, hstep, hrun⟩ := Option.bind_eq_some_iff.1 h
    rw [List.cons_append, peak_cons hstep, peak_cons hstep, ih hrun, max_assoc]

/-- The peak is not below the end. -/
theorem depth_le_peak_of_run (h : s.run is = some s') : s'.depth ≤ s.peak is := by
  have hpeak := peak_append h []
  rw [List.append_nil] at hpeak
  rw [hpeak]
  exact le_max_right ..

/-- The instruction that ends a call of a function ends the call on top. -/
theorem step_of_ends {f : Function} {argc : Nat} (h : i.Ends f argc) (c : OpenCall)
    (rest : List Slot) (ended : List (OpenCall × Instruction)) :
    step ⟨.call c :: rest, ended⟩ i =
      some ⟨(f.result.map fun _ => Slot.value).toList ++ rest, ended ++ [(c, i)]⟩ := by
  cases i <;> simp only [Instruction.Ends] at h <;>
    simp [step, finish, Function.result, h]

/-- An argument goes from the top into the call below it. -/
theorem taken_of_argument {position tag : UInt8} (h : s.step (.argument position tag) = some s') :
    ∃ c c' rest, s.taken = .value :: .call c :: rest ∧ s'.taken = .call c' :: rest := by
  simp only [step] at h
  split at h
  · next c rest htaken =>
    obtain rfl := Option.some.inj h
    exact ⟨c, _, rest, htaken, rfl⟩
  · cases h

end Slots

/-! ## The depth of the machine -/

variable {σ ρ : Type} {host : Host σ ρ} {tables : Tables}

namespace State

/-- The values on the stack and the calls that are open. -/
def depth (s : State σ ρ) : Nat := s.stack.length + s.frames.length

/-- The depths before, between and after instructions in a row. -/
def depths (host : Host σ ρ) (tables : Tables) (s : State σ ρ) (is : List Instruction) : Set Nat :=
  {d | ∃ done s', done <+: is ∧ s.run host tables done = some s' ∧ s'.depth = d}

/-- Values take as many slots as there are, and so do open calls. -/
structure Takes (s : State σ ρ) (slots : Slots) : Prop where
  values : s.stack.length = slots.taken.countP Slot.isValue
  calls : s.frames.length = slots.taken.countP fun slot => !slot.isValue

/-- The machine starts with no slots taken. -/
theorem takes_nil (w : World σ ρ) : Takes ⟨[], [], w⟩ ⟨[], []⟩ := ⟨rfl, rfl⟩

theorem Takes.depth_eq {s : State σ ρ} {slots : Slots} (h : s.Takes slots) :
    s.depth = slots.depth := by
  rw [depth, Slots.depth, h.values, h.calls, List.length_eq_countP_add_countP Slot.isValue]
  simp

/-- Ending a call frees its slot. -/
theorem Takes.finish {s s' : State σ ρ} {slots slots' : Slots} {argc : UInt8} {push : Bool}
    {i : Instruction} (h : s.Takes slots) (hs : s.finish host argc push = some s')
    (hslots : slots.finish i push = some slots') : s'.Takes slots' := by
  obtain ⟨stack, frames, w⟩ := s
  obtain ⟨taken, ended⟩ := slots
  obtain ⟨hvalues, hcalls⟩ := h
  match taken, frames with
  | [], _ | .value :: _, _ => simp [Slots.finish] at hslots
  | .call _ :: _, [] => simp [State.finish] at hs
  | .call c :: rest, frame :: frames =>
    simp only [Slots.finish, Option.some.injEq] at hslots
    simp only [State.finish, Option.bind_eq_bind, Option.ite_none_right_eq_some,
      Option.bind_eq_some_iff, Option.some.injEq] at hs
    obtain ⟨_, values, _, rfl⟩ := hs
    subst hslots
    simp only [List.length_cons, List.countP_cons, Slot.isValue, Bool.not_false, ite_true,
      Bool.false_eq_true, ite_false, Nat.add_zero, Nat.add_right_cancel_iff] at hvalues hcalls
    constructor <;> cases push <;> simp [List.countP_cons, Slot.isValue, hvalues, hcalls]

/-- An argument takes one value from the stack and keeps the calls open. -/
theorem length_of_argument {s s' : State σ ρ} {position tag : UInt8}
    (h : s.step host tables (.argument position tag) = some s') :
    s.stack.length = s'.stack.length + 1 ∧ s.frames.length = s'.frames.length := by
  simp only [State.step] at h
  split at h
  · next value stack frame frames hstack hframes =>
    split at h
    · obtain rfl := Option.some.inj h
      simp [hstack, hframes]
    · cases h
  · cases h

/-- Discarding values frees their slots. -/
theorem Takes.discard {s : State σ ρ} {slots : Slots} {n : Nat} (h : s.Takes slots)
    (hle : n ≤ slots.taken.length) (hall : (slots.taken.take n).all Slot.isValue = true) :
    Takes { s with stack := s.stack.drop n } { slots with taken := slots.taken.drop n } := by
  have hsplit : ∀ q : Slot → Bool, slots.taken.countP q =
      (slots.taken.take n).countP q + (slots.taken.drop n).countP q := by
    intro q
    rw [← List.countP_append, List.take_append_drop]
  have hvalues : (slots.taken.take n).countP Slot.isValue = n := by
    rw [List.countP_eq_length.2 (List.all_eq_true.1 hall), List.length_take_of_le hle]
  have hcalls : (slots.taken.take n).countP (fun slot => !slot.isValue) = 0 := by
    rw [List.countP_eq_zero]
    intro slot hslot
    simp [List.all_eq_true.1 hall slot hslot]
  constructor
  · rw [List.length_drop, h.values, hsplit, hvalues, Nat.add_sub_cancel_left]
  · rw [h.calls, hsplit, hcalls, Nat.zero_add]

/-- An argument frees the slot of its value. -/
theorem Takes.argument {s s' : State σ ρ} {slots slots' : Slots} {position tag : UInt8}
    (h : s.Takes slots) (hs : s.step host tables (.argument position tag) = some s')
    (hslots : slots.step (.argument position tag) = some slots') : s'.Takes slots' := by
  obtain ⟨hstack, hframes⟩ := length_of_argument hs
  obtain ⟨c, c', rest, htaken, htaken'⟩ := Slots.taken_of_argument hslots
  have hvalues := h.values
  have hcalls := h.calls
  rw [htaken] at hvalues hcalls
  constructor
  · have hrest : (Slot.value :: .call c :: rest).countP Slot.isValue =
        (Slot.call c' :: rest).countP Slot.isValue + 1 := by
      simp [List.countP_cons, Slot.isValue]
    rw [htaken']
    omega
  · have hrest : (Slot.value :: .call c :: rest).countP (fun slot => !slot.isValue) =
        (Slot.call c' :: rest).countP fun slot => !slot.isValue := by
      simp [Slot.isValue]
    rw [htaken']
    omega

/-- The slots after an instruction are those that the machine takes. -/
theorem Takes.step {s s' : State σ ρ} {slots slots' : Slots} {i : Instruction}
    (h : s.Takes slots) (hs : s.step host tables i = some s') (hslots : slots.step i = some slots') :
    s'.Takes slots' := by
  cases i with
  | loadConstant index =>
    obtain ⟨c, _, rfl⟩ := Option.map_eq_some_iff.1 hs
    obtain rfl := Option.some.inj hslots
    constructor <;> simp [h.values, h.calls, List.countP_cons, Slot.isValue]
  | discard n =>
    simp only [State.step, Option.ite_none_right_eq_some, Option.some.injEq] at hs
    simp only [Slots.step, Option.ite_none_right_eq_some, Option.some.injEq] at hslots
    obtain ⟨_, rfl⟩ := hs
    obtain ⟨⟨hle, hall⟩, rfl⟩ := hslots
    exact h.discard hle hall
  | startCall index argc =>
    obtain ⟨f, _, rfl⟩ := Option.map_eq_some_iff.1 hs
    obtain rfl := Option.some.inj hslots
    constructor <;> simp [h.values, h.calls, Slot.isValue]
  | argument position tag => exact h.argument hs hslots
  | callFunction argc t => exact h.finish hs hslots
  | callVoidFunction argc => exact h.finish hs hslots
  | callVar argc fixed t => exact h.finish hs hslots
  | callVoidVar argc fixed => exact h.finish hs hslots

/-- The slots after instructions in a row are those that the machine takes. -/
theorem Takes.run {s s' : State σ ρ} {slots slots' : Slots} {is : List Instruction}
    (h : s.Takes slots) (hs : s.run host tables is = some s') (hslots : slots.run is = some slots') :
    s'.Takes slots' := by
  induction is generalizing s slots with
  | nil =>
    obtain rfl := Option.some.inj hs
    obtain rfl := Option.some.inj hslots
    exact h
  | cons i is ih =>
    obtain ⟨between, hstep, hrun⟩ := Option.bind_eq_some_iff.1 hs
    obtain ⟨between', hstep', hrun'⟩ := Option.bind_eq_some_iff.1 hslots
    exact ih (h.step hstep hstep') hrun hrun'

/-- A depth that is reached is that of the start or is reached later. -/
theorem depths_cons {s s' : State σ ρ} {i : Instruction} (h : s.step host tables i = some s')
    (is : List Instruction) :
    s.depths host tables (i :: is) = insert s.depth (s'.depths host tables is) := by
  ext d
  constructor
  · rintro ⟨done, last, hpart, hrun, rfl⟩
    cases done with
    | nil =>
      obtain rfl := Option.some.inj hrun
      exact .inl rfl
    | cons j done =>
      obtain ⟨rfl, hdone⟩ := List.cons_prefix_cons.1 hpart
      rw [run_cons h] at hrun
      exact .inr ⟨done, last, hdone, hrun, rfl⟩
  · rintro (rfl | ⟨done, last, hpart, hrun, rfl⟩)
    · exact ⟨[], s, List.nil_prefix, rfl, rfl⟩
    · exact ⟨i :: done, last, List.cons_prefix_cons.2 ⟨rfl, hpart⟩, by rw [run_cons h, hrun], rfl⟩

/-- The greatest depth that the machine reaches is the peak of its slots. -/
theorem isGreatest_depths {s s' : State σ ρ} {slots slots' : Slots} {is : List Instruction}
    (h : s.Takes slots) (hs : s.run host tables is = some s') (hslots : slots.run is = some slots') :
    IsGreatest (s.depths host tables is) (slots.peak is) := by
  induction is generalizing s slots with
  | nil =>
    have hdepths : s.depths host tables [] = {s.depth} := by
      ext d
      simp [depths, State.run, eq_comm]
    rw [hdepths, Slots.peak, ← h.depth_eq]
    exact isGreatest_singleton
  | cons i is ih =>
    obtain ⟨between, hstep, hrun⟩ := Option.bind_eq_some_iff.1 hs
    obtain ⟨between', hstep', hrun'⟩ := Option.bind_eq_some_iff.1 hslots
    rw [depths_cons hstep, Slots.peak_cons hstep', ← h.depth_eq]
    exact (ih (h.step hstep hstep') hrun hrun').insert s.depth

end State

end ForeignCall
