import Mathlib.Tactic.Common

/-!
# ForeignCall.Proofs.Results

Results of computations that may fail, without effects and with a state.

* `outcome`, `outcome_bind` — the result of a computation without effects;
* `Agree`, `Agree.bind` — two computations side by side;
* `runFrom`, `runFrom_bind` — the result of a computation with a state, and the state afterwards.
-/

namespace ForeignCall

variable {ε α β : Type}

/-- A step followed by another succeeds when both do. -/
theorem except_bind_eq_ok {x : Except ε α} {f : α → Except ε β} {b : β} :
    (x >>= f) = .ok b ↔ ∃ a, x = .ok a ∧ f a = .ok b := by
  cases x <;> simp [bind, Except.bind]

/-- A step followed by another fails when one of the two does. -/
theorem except_bind_eq_error {x : Except ε α} {f : α → Except ε β} {e : ε} :
    (x >>= f) = .error e ↔ x = .error e ∨ ∃ a, x = .ok a ∧ f a = .error e := by
  cases x <;> simp [bind, Except.bind]

/-- A result is changed behind the step that gives it. -/
theorem except_map_eq_bind (x : Except ε α) (f : α → β) : x.map f = x >>= fun a => .ok (f a) := by
  cases x <;> rfl

/-- A changed result comes from a result. -/
theorem except_map_eq_ok {x : Except ε α} {f : α → β} {b : β} :
    x.map f = .ok b ↔ ∃ a, x = .ok a ∧ f a = b := by
  cases x <;> simp [Except.map]

/-- A changed result fails as the result does. -/
theorem except_map_eq_error {x : Except ε α} {f : α → β} {e : ε} :
    x.map f = .error e ↔ x = .error e := by
  cases x <;> simp [Except.map]

theorem toOption_eq_some {x : Except ε α} {a : α} : x.toOption = some a ↔ x = .ok a := by
  cases x <;> simp [Except.toOption]

/-- The result of a computation without effects. -/
def outcome (x : ExceptT ε Id α) : Except ε α := x.run.run

@[simp] theorem outcome_bind {x : ExceptT ε Id α} {f : α → ExceptT ε Id β} {b : β} :
    outcome (x >>= f) = .ok b ↔ ∃ a, outcome x = .ok a ∧ outcome (f a) = .ok b := by
  unfold outcome
  rw [ExceptT.run_bind, Id.run_bind]
  cases x.run.run <;> simp

/-- Two steps in a row, without effects. -/
theorem outcome_bind_eq (x : ExceptT ε Id α) (f : α → ExceptT ε Id β) :
    outcome (x >>= f) = outcome x >>= fun a => outcome (f a) := by
  unfold outcome
  rw [ExceptT.run_bind, Id.run_bind]
  cases x.run.run <;> rfl

@[simp] theorem outcome_pure (a : α) : outcome (pure a : ExceptT ε Id α) = .ok a := rfl

@[simp] theorem outcome_throw (e : ε) : outcome (throw e : ExceptT ε Id α) = .error e := rfl

/-! ## Two computations side by side -/

section Agreement

variable {γ δ : Type} {E : ε → ε → Prop} {R : α → β → Prop} {S : γ → δ → Prop}

/-- Two results agree: both are values that are related, or both are errors that are. -/
def Agree (E : ε → ε → Prop) (R : α → β → Prop) : Except ε α → Except ε β → Prop
  | .ok a, .ok b => R a b
  | .error e, .error e' => E e e'
  | _, _ => False

/-- Steps that agree, followed by steps that agree on their values. -/
theorem Agree.bind {x : Except ε α} {y : Except ε β} {f : α → Except ε γ} {g : β → Except ε δ}
    (h : Agree E R x y)
    (hrest : ∀ a b, x = .ok a → y = .ok b → R a b → Agree E S (f a) (g b)) :
    Agree E S (x >>= f) (y >>= g) := by
  cases x with
  | error e =>
    cases y with
    | error e' => exact h
    | ok b => exact h.elim
  | ok a =>
    cases y with
    | error e' => exact h.elim
    | ok b => exact hrest a b rfl rfl h

/-- Values of results that agree, changed alike. -/
theorem Agree.map {x : Except ε α} {y : Except ε β} {f : α → γ} {g : β → δ} (h : Agree E R x y)
    (hrest : ∀ a b, R a b → S (f a) (g b)) : Agree E S (x.map f) (y.map g) := by
  cases x with
  | error e =>
    cases y with
    | error e' => exact h
    | ok b => exact h.elim
  | ok a =>
    cases y with
    | error e' => exact h.elim
    | ok b => exact hrest a b h

/-- Every result agrees with itself. -/
theorem Agree.refl {R : α → α → Prop} (he : ∀ e, E e e) (hr : ∀ a, R a a) (x : Except ε α) :
    Agree E R x x := by
  cases x with
  | error e => exact he e
  | ok a => exact hr a

/-- One step, followed by steps that agree. -/
theorem Agree.after {x : Except ε α} {f : α → Except ε γ} {g : α → Except ε δ}
    (he : ∀ e, E e e) (hrest : ∀ a, x = .ok a → Agree E S (f a) (g a)) :
    Agree E S (x >>= f) (x >>= g) := by
  cases x with
  | error e => exact he e
  | ok a => exact hrest a rfl

end Agreement

/-! ## Computations with a state -/

section State

variable {σ : Type}

/-- The result of a computation that starts in a state, and the state afterwards. -/
def runFrom (s : σ) (x : ExceptT ε (StateM σ) α) : Except ε α × σ := x.run.run s

@[simp] theorem runFrom_pure (s : σ) (a : α) :
    runFrom s (pure a : ExceptT ε (StateM σ) α) = (.ok a, s) := rfl

@[simp] theorem runFrom_get (s : σ) :
    runFrom s (get : ExceptT ε (StateM σ) σ) = (.ok s, s) := rfl

/-- A step followed by another starts the other where it ends, unless it fails. -/
theorem runFrom_bind (s : σ) (x : ExceptT ε (StateM σ) α) (f : α → ExceptT ε (StateM σ) β) :
    runFrom s (x >>= f) =
      match runFrom s x with
      | (.ok a, s') => runFrom s' (f a)
      | (.error e, s') => (.error e, s') := by
  unfold runFrom
  rw [ExceptT.run_bind, StateT.run_bind]
  generalize x.run.run s = p
  rcases p with ⟨_ | _, _⟩ <;> rfl

/-- A step that succeeds is followed by another where it ends. -/
theorem runFrom_bind_ok {s s' : σ} {x : ExceptT ε (StateM σ) α} {a : α}
    (h : runFrom s x = (.ok a, s')) (f : α → ExceptT ε (StateM σ) β) :
    runFrom s (x >>= f) = runFrom s' (f a) := by
  rw [runFrom_bind, h]

/-- A step that fails is followed by nothing. -/
theorem runFrom_bind_error {s s' : σ} {x : ExceptT ε (StateM σ) α} {e : ε}
    (h : runFrom s x = (.error e, s')) (f : α → ExceptT ε (StateM σ) β) :
    runFrom s (x >>= f) = (.error e, s') := by
  rw [runFrom_bind, h]

/-- Two steps in a row succeed when the first does, and the second does where it ends. -/
theorem runFrom_bind_eq_ok {s t : σ} {x : ExceptT ε (StateM σ) α}
    {f : α → ExceptT ε (StateM σ) β} {b : β} :
    runFrom s (x >>= f) = (.ok b, t) ↔
      ∃ a s', runFrom s x = (.ok a, s') ∧ runFrom s' (f a) = (.ok b, t) := by
  rw [runFrom_bind]
  rcases runFrom s x with ⟨e | a, s'⟩
  · simp
  · simp

/-- Two steps in a row fail when the first does, or when the second does where it ends. -/
theorem runFrom_bind_eq_error {s t : σ} {x : ExceptT ε (StateM σ) α}
    {f : α → ExceptT ε (StateM σ) β} {e : ε} :
    runFrom s (x >>= f) = (.error e, t) ↔ runFrom s x = (.error e, t) ∨
      ∃ a s', runFrom s x = (.ok a, s') ∧ runFrom s' (f a) = (.error e, t) := by
  rw [runFrom_bind]
  rcases runFrom s x with ⟨e' | a, s'⟩
  · simp
  · simp

/-- A step whose error is changed. -/
theorem runFrom_adapt {δ : Type} (s : σ) (f : ε → δ) (x : ExceptT ε (StateM σ) α) :
    runFrom s (ExceptT.adapt f x) = ((runFrom s x).1.mapError f, (runFrom s x).2) := rfl

end State

end ForeignCall
