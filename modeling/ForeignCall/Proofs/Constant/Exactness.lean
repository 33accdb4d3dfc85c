import ForeignCall.CType.Names
import ForeignCall.Proofs.Constant.Words
import ForeignCall.Proofs.Results

/-!
# ForeignCall.Proofs.Constant.Exactness

Constant expressions have exact values. The value of an expression is told here over integers
without a bound; an evaluation gives this value, or nothing. It gives nothing as soon as some part
of the expression has no value, or has one that is no word of 64 bits.

* `Environment.Reads` — an environment whose answers have no effects;
* `Expr.exact` — the value of an expression over integers without a bound;
* `Expr.Admissible` — the forms that have a value;
* **`Expr.evaluate_eq_ok_iff`** — when an evaluation gives a value, and which.
-/

namespace ForeignCall

variable {ε σ τ : Type}

/-! ## Environments without effects -/

/-- What an expression refers to: enumerators, sizes of types, and casts. -/
structure Answers (ε τ : Type) where
  enumerator : String → Option Int64
  sizeOf : τ → Except ε Int64
  cast : τ → Int64 → Except ε Int64

/-- In some state an environment gives these answers, and it leaves the state as it is. -/
structure Environment.Reads (env : Environment (ExceptT ε (StateM σ)) τ) (s : σ)
    (answers : Answers ε τ) : Prop where
  enumerator : ∀ name, runFrom s (env.enumerator name) = (.ok (answers.enumerator name), s)
  sizeOf : ∀ t, runFrom s (env.sizeOf t) = (answers.sizeOf t, s)
  cast : ∀ t v, runFrom s (env.cast t v) = (answers.cast t v, s)
  raise : ∀ error, ∃ e, runFrom s (env.raise error : ExceptT ε (StateM σ) Int64) = (.error e, s)

namespace Expr

/-! ## Exact values -/

/-- The parts of an expression, itself included. -/
def subterms : Expr τ → List (Expr τ)
  | .unary op operand => .unary op operand :: operand.subterms
  | .binary op lhs rhs => .binary op lhs rhs :: (lhs.subterms ++ rhs.subterms)
  | .cast t operand => .cast t operand :: operand.subterms
  | e => [e]

/-- The value of a binary operator over integers without a bound: a shift to the left multiplies by
a power of two, a shift to the right divides by it and rounds down, and `|` joins the digits in
two's complement. -/
def exactBinary : String → Int → Int → Int
  | "+", l, r => l + r
  | "<<", l, r => l * 2 ^ r.toNat
  | ">>", l, r => l.fdiv (2 ^ r.toNat)
  | "|", l, r => Int.lor l r
  | _, _, _ => 0

/-- The value of an expression over integers without a bound. What has no value counts as zero. -/
def exact (answers : Answers ε τ) : Expr τ → Int
  | .literal _ text => ((intLiteral? text.toList).map Int64.toInt).getD 0
  | .ident name => ((answers.enumerator name).map Int64.toInt).getD 0
  | .unary op operand => if op = "-" then -operand.exact answers else operand.exact answers
  | .binary op lhs rhs => exactBinary op (lhs.exact answers) (rhs.exact answers)
  | .sizeofType t => ((answers.sizeOf t).toOption.map Int64.toInt).getD 0
  | .cast t operand =>
    ((answers.cast t (Int64.ofInt (operand.exact answers))).toOption.map Int64.toInt).getD 0
  | .other .. => 0

/-- A binary operator is supported, and the amount of a shift is from 0 to 63. -/
def Operates (op : String) (rhs : Int) : Prop :=
  op = "+" ∨ op = "|" ∨ (op = "<<" ∨ op = ">>") ∧ 0 ≤ rhs ∧ rhs ≤ 63

instance (op : String) (rhs : Int) : Decidable (Operates op rhs) :=
  inferInstanceAs (Decidable (_ ∨ _ ∨ _))

/-- The form of an expression is supported, and what it refers to itself is known: a literal can be
read, an enumerator has been declared, a type has a size, a value can be cast. -/
def Admissible (answers : Answers ε τ) : Expr τ → Prop
  | .literal kind text => kind = .int ∧ (intLiteral? text.toList).isSome
  | .ident name => (answers.enumerator name).isSome
  | .unary op _ => op = "+" ∨ op = "-"
  | .binary op _ rhs => Operates op (rhs.exact answers)
  | .sizeofType t => (answers.sizeOf t).toOption.isSome
  | .cast t operand =>
    (answers.cast t (Int64.ofInt (operand.exact answers))).toOption.isSome
  | .other .. => False

instance (answers : Answers ε τ) : (e : Expr τ) → Decidable (e.Admissible answers)
  | .literal .. => inferInstanceAs (Decidable (_ ∧ _))
  | .ident _ | .sizeofType _ | .cast .. => inferInstanceAs (Decidable (_ = true))
  | .unary .. => inferInstanceAs (Decidable (_ ∨ _))
  | .binary op _ rhs => inferInstanceAs (Decidable (Operates op (rhs.exact answers)))
  | .other .. => inferInstanceAs (Decidable False)

/-- Every part of an expression is admissible and has a value that is a word. -/
def HasValue (answers : Answers ε τ) (e : Expr τ) : Prop :=
  ∀ part ∈ e.subterms, part.Admissible answers ∧ IsWord (part.exact answers)

/-! ## Operators -/

section Operators

variable {op : String} {v l r : Int64}

/-- A unary operator that is supported gives the exact value, if this is a word. -/
theorem unaryOp?_eq_some_iff {f : Int64 → Option Int64} (h : unaryOp? op = some f) :
    f l = some v ↔ (op = "+" ∨ op = "-") ∧ v.toInt = if op = "-" then -l.toInt else l.toInt := by
  unfold unaryOp? at h
  split at h
  · obtain rfl := Option.some.inj h
    simp only [Option.some_inj, String.reduceEq, if_false, true_or, true_and, Int64.toInt_inj]
    exact eq_comm
  · obtain rfl := Option.some.inj h
    simp only [fit_eq_some_iff, String.reduceEq, if_true, or_true, true_and]
  · cases h

theorem not_supported_of_unaryOp?_eq_none (h : unaryOp? op = none) : ¬(op = "+" ∨ op = "-") := by
  rintro (rfl | rfl) <;> cases h

/-- A binary operator that is supported gives the exact value, if this is a word. -/
theorem binaryOp?_eq_some_iff {f : Int64 → Int64 → Option Int64} (h : binaryOp? op = some f) :
    f l r = some v ↔ Operates op r.toInt ∧ v.toInt = exactBinary op l.toInt r.toInt := by
  unfold binaryOp? at h
  unfold Operates
  split at h
  · obtain rfl := Option.some.inj h
    simp only [fit_eq_some_iff, true_or, true_and, exactBinary]
  · obtain rfl := Option.some.inj h
    simp only [Option.map_eq_some_iff, shiftAmount_eq_some_iff, String.reduceEq, false_or, or_true,
      true_and, exactBinary]
    constructor
    · rintro ⟨amount, ⟨rfl, hamount⟩, rfl⟩
      refine ⟨hamount, ?_⟩
      rw [toInt_shiftRight hamount.1 hamount.2, Int.fdiv_eq_ediv_of_nonneg _ (pow_nonneg two_pos.le _)]
    · rintro ⟨hamount, hv⟩
      refine ⟨r, ⟨rfl, hamount⟩, ?_⟩
      rw [← Int64.toInt_inj, hv, toInt_shiftRight hamount.1 hamount.2,
        Int.fdiv_eq_ediv_of_nonneg _ (pow_nonneg two_pos.le _)]
  · obtain rfl := Option.some.inj h
    simp only [Option.bind_eq_some_iff, shiftAmount_eq_some_iff, String.reduceEq, false_or, true_or,
      true_and, exactBinary]
    constructor
    · rintro ⟨amount, ⟨rfl, hamount⟩, hv⟩
      exact ⟨hamount, (shiftLeft?_eq_some_iff hamount.1 hamount.2).mp hv⟩
    · rintro ⟨hamount, hv⟩
      exact ⟨r, ⟨rfl, hamount⟩, (shiftLeft?_eq_some_iff hamount.1 hamount.2).mpr hv⟩
  · obtain rfl := Option.some.inj h
    simp only [Option.some_inj, String.reduceEq, true_or, or_true, true_and, exactBinary,
      ← toInt_or, Int64.toInt_inj]
    exact eq_comm
  · cases h

theorem not_operates_of_binaryOp?_eq_none {rhs : Int} (h : binaryOp? op = none) :
    ¬Operates op rhs := by
  rintro (rfl | rfl | ⟨rfl | rfl, -⟩) <;> cases h

end Operators

/-! ## Evaluations -/

section Evaluation

variable {env : Environment (ExceptT ε (StateM σ)) τ} {s : σ} {answers : Answers ε τ}
  {P Q : Int64 → Prop}

/-- In some state a computation leaves the state as it is, and it gives the values that satisfy a
predicate. -/
def Gives (s : σ) (x : ExceptT ε (StateM σ) Int64) (P : Int64 → Prop) : Prop :=
  (runFrom s x).2 = s ∧ ∀ v, (runFrom s x).1 = .ok v ↔ P v

theorem Gives.congr {x : ExceptT ε (StateM σ) Int64} (h : Gives s x P) (hPQ : ∀ v, P v ↔ Q v) :
    Gives s x Q :=
  ⟨h.1, fun v => (h.2 v).trans (hPQ v)⟩

theorem Gives.bind {x : ExceptT ε (StateM σ) Int64} {f : Int64 → ExceptT ε (StateM σ) Int64}
    {R : Int64 → Int64 → Prop} (h : Gives s x P) (hf : ∀ w, Gives s (f w) (R w)) :
    Gives s (x >>= f) fun v => ∃ w, P w ∧ R w v := by
  obtain ⟨hstate, hvalue⟩ := h
  unfold Gives
  rw [runFrom_bind]
  generalize runFrom s x = p at hstate hvalue ⊢
  obtain ⟨e | w, s'⟩ := p
  · obtain rfl := hstate
    refine ⟨rfl, fun v => ⟨nofun, ?_⟩⟩
    rintro ⟨w, hw, -⟩
    exact nomatch (hvalue w).mpr hw
  · obtain rfl := hstate
    refine ⟨(hf w).1, fun v => ((hf w).2 v).trans ⟨fun hv => ⟨w, (hvalue w).mp rfl, hv⟩, ?_⟩⟩
    rintro ⟨w', hw', hv⟩
    cases (hvalue w').mpr hw'
    exact hv

theorem gives_of_eq {x : ExceptT ε (StateM σ) Int64} {r : Except ε Int64}
    (h : runFrom s x = (r, s)) : Gives s x fun v => r = .ok v :=
  ⟨by rw [h], fun v => by rw [h]⟩

theorem gives_raise (h : env.Reads s answers) (error : ConstError) :
    Gives s (env.raise error) fun _ => False := by
  obtain ⟨e, he⟩ := h.raise error
  exact (gives_of_eq he).congr fun v => by simp

theorem gives_orRaise (h : env.Reads s answers) (error : ConstError) (r : Option Int64) :
    Gives s (orRaise env error r) fun v => r = some v := by
  cases r with
  | none => exact (gives_raise h error).congr fun v => by simp
  | some w => exact (gives_of_eq (runFrom_pure s w)).congr fun v => by simp

/-! ## Parts -/

theorem self_mem_subterms (e : Expr τ) : e ∈ e.subterms := by
  cases e <;> simp [subterms]

/-- A value that is a word can be given. -/
theorem HasValue.exists_toInt {e : Expr τ} (h : e.HasValue answers) :
    ∃ w : Int64, w.toInt = e.exact answers :=
  ⟨Int64.ofInt (e.exact answers), toInt_ofInt (h e e.self_mem_subterms).2⟩

/-- An expression without parts has a value if it has one by itself. -/
theorem hasValue_leaf {e : Expr τ} (h : e.subterms = [e]) :
    e.HasValue answers ↔ e.Admissible answers ∧ IsWord (e.exact answers) := by
  unfold HasValue
  rw [h, List.forall_mem_singleton]

theorem hasValue_unary {op : String} {operand : Expr τ} :
    (unary op operand).HasValue answers ↔
      ((unary op operand).Admissible answers ∧ IsWord ((unary op operand).exact answers)) ∧
        operand.HasValue answers :=
  List.forall_mem_cons

theorem hasValue_cast {t : τ} {operand : Expr τ} :
    (cast t operand).HasValue answers ↔
      ((cast t operand).Admissible answers ∧ IsWord ((cast t operand).exact answers)) ∧
        operand.HasValue answers :=
  List.forall_mem_cons

theorem hasValue_binary {op : String} {lhs rhs : Expr τ} :
    (binary op lhs rhs).HasValue answers ↔
      ((binary op lhs rhs).Admissible answers ∧ IsWord ((binary op lhs rhs).exact answers)) ∧
        lhs.HasValue answers ∧ rhs.HasValue answers :=
  List.forall_mem_cons.trans (and_congr_right fun _ => List.forall_mem_append)

/-! ## Values -/

/-- What is looked up has a value that is a word. -/
theorem eq_some_iff_getD {r : Option Int64} {v : Int64} :
    r = some v ↔ (r.isSome ∧ IsWord ((r.map Int64.toInt).getD 0)) ∧
      v.toInt = (r.map Int64.toInt).getD 0 := by
  cases r with
  | none => simp
  | some w => simp [isWord_toInt, Int64.toInt_inj, eq_comm]

theorem eq_ok_iff_getD {r : Except ε Int64} {v : Int64} :
    r = .ok v ↔ (r.toOption.isSome ∧ IsWord ((r.toOption.map Int64.toInt).getD 0)) ∧
      v.toInt = (r.toOption.map Int64.toInt).getD 0 := by
  rw [← toOption_eq_some, eq_some_iff_getD]

/-! ## Forms of expressions -/

/-- An evaluation leaves the state as it is, and it gives the exact value of an expression if the
expression has one. -/
def GivesExact (env : Environment (ExceptT ε (StateM σ)) τ) (s : σ) (answers : Answers ε τ)
    (e : Expr τ) : Prop :=
  Gives s (e.evaluate env) fun v => e.HasValue answers ∧ v.toInt = e.exact answers

/-- A form that is refused has no value. -/
theorem givesExact_of_refused (h : env.Reads s answers) {e : Expr τ} (error : ConstError)
    (he : e.evaluate env = env.raise error) (hrefused : ¬e.Admissible answers) :
    GivesExact env s answers e := by
  unfold GivesExact
  rw [he]
  exact (gives_raise h error).congr fun v =>
    ⟨False.elim, fun hv => hrefused (hv.1 e e.self_mem_subterms).1⟩

theorem givesExact_literal (h : env.Reads s answers) (kind : LiteralKind) (text : String) :
    GivesExact env s answers (literal kind text) := by
  cases kind with
  | int =>
    refine (gives_orRaise h _ _).congr fun v => ?_
    rw [hasValue_leaf rfl, Admissible, eq_self, true_and]
    exact eq_some_iff_getD
  | char => exact givesExact_of_refused h _ rfl fun hadmissible => nomatch hadmissible.1
  | float => exact givesExact_of_refused h _ rfl fun hadmissible => nomatch hadmissible.1
  | string => exact givesExact_of_refused h _ rfl fun hadmissible => nomatch hadmissible.1

theorem givesExact_ident (h : env.Reads s answers) (name : String) :
    GivesExact env s answers (ident name) := by
  unfold GivesExact Gives evaluate
  rw [runFrom_bind_ok (h.enumerator name)]
  refine (gives_orRaise h _ _).congr fun v => ?_
  rw [hasValue_leaf rfl]
  exact eq_some_iff_getD

theorem givesExact_sizeofType (h : env.Reads s answers) (t : τ) :
    GivesExact env s answers (sizeofType t) := by
  refine (gives_of_eq (h.sizeOf t)).congr fun v => ?_
  rw [hasValue_leaf rfl]
  exact eq_ok_iff_getD

theorem givesExact_unary (h : env.Reads s answers) (op : String) {operand : Expr τ}
    (ih : GivesExact env s answers operand) : GivesExact env s answers (unary op operand) := by
  unfold GivesExact
  rw [evaluate]
  -- the operand is evaluated first, also for an operator that is not supported
  refine (ih.bind (R := fun w v =>
    (op = "+" ∨ op = "-") ∧ v.toInt = if op = "-" then -w.toInt else w.toInt) fun w => ?_).congr
      fun v => ?_
  · cases hop : unaryOp? op with
    | none =>
      exact (gives_raise h _).congr fun v =>
        ⟨False.elim, fun hv => not_supported_of_unaryOp?_eq_none hop hv.1⟩
    | some f => exact (gives_orRaise h _ _).congr fun v => unaryOp?_eq_some_iff hop
  · rw [hasValue_unary]
    constructor
    · rintro ⟨w, ⟨hvalue, hw⟩, hop, hv⟩
      rw [hw] at hv
      exact ⟨⟨⟨hop, isWord_of_toInt_eq hv⟩, hvalue⟩, hv⟩
    · rintro ⟨⟨⟨hop, -⟩, hvalue⟩, hv⟩
      obtain ⟨w, hw⟩ := hvalue.exists_toInt
      refine ⟨w, ⟨hvalue, hw⟩, hop, ?_⟩
      rw [hw]
      exact hv

theorem givesExact_binary (h : env.Reads s answers) (op : String) {lhs rhs : Expr τ}
    (ih : GivesExact env s answers lhs) (ih' : GivesExact env s answers rhs) :
    GivesExact env s answers (binary op lhs rhs) := by
  cases hop : binaryOp? op with
  | none =>
    have hrefused : (binary op lhs rhs).evaluate env =
        env.raise (.unsupported ((binary op lhs rhs).display env.display)) := by
      rw [evaluate, hop]
    exact givesExact_of_refused h _ hrefused (not_operates_of_binaryOp?_eq_none hop)
  | some f =>
    unfold GivesExact
    rw [evaluate, hop]
    refine (ih.bind fun l => ih'.bind fun r =>
      (gives_orRaise h _ _).congr fun v => binaryOp?_eq_some_iff hop).congr fun v => ?_
    rw [hasValue_binary]
    constructor
    · rintro ⟨l, ⟨hlhs, hl⟩, r, ⟨hrhs, hr⟩, hoperates, hv⟩
      rw [hl, hr] at hv
      rw [hr] at hoperates
      exact ⟨⟨⟨hoperates, isWord_of_toInt_eq hv⟩, hlhs, hrhs⟩, hv⟩
    · rintro ⟨⟨⟨hoperates, -⟩, hlhs, hrhs⟩, hv⟩
      obtain ⟨l, hl⟩ := hlhs.exists_toInt
      obtain ⟨r, hr⟩ := hrhs.exists_toInt
      refine ⟨l, ⟨hlhs, hl⟩, r, ⟨hrhs, hr⟩, hr ▸ hoperates, ?_⟩
      rw [hl, hr]
      exact hv

theorem givesExact_cast (h : env.Reads s answers) (t : τ) {operand : Expr τ}
    (ih : GivesExact env s answers operand) : GivesExact env s answers (cast t operand) := by
  refine (ih.bind fun w => gives_of_eq (h.cast t w)).congr fun v => ?_
  rw [hasValue_cast]
  constructor
  · rintro ⟨w, ⟨hvalue, hw⟩, hv⟩
    rw [← Int64.ofInt_toInt w, hw, eq_ok_iff_getD] at hv
    exact ⟨⟨hv.1, hvalue⟩, hv.2⟩
  · rintro ⟨⟨hcast, hvalue⟩, hv⟩
    obtain ⟨w, hw⟩ := hvalue.exists_toInt
    refine ⟨w, ⟨hvalue, hw⟩, ?_⟩
    rw [← Int64.ofInt_toInt w, hw]
    exact eq_ok_iff_getD.mpr ⟨hcast, hv⟩

/-- **Constant expressions are evaluated exactly.** In an environment without effects an evaluation
gives a value just when every part of the expression is admissible and its value over integers
without a bound is a word of 64 bits; it then gives the value of the whole. -/
theorem evaluate_eq_ok_iff (h : env.Reads s answers) (e : Expr τ) :
    (runFrom s (e.evaluate env)).2 = s ∧
      ∀ v, (runFrom s (e.evaluate env)).1 = .ok v ↔
        (∀ part ∈ e.subterms, part.Admissible answers ∧ IsWord (part.exact answers)) ∧
          v.toInt = e.exact answers := by
  induction e with
  | literal kind text => exact givesExact_literal h kind text
  | ident name => exact givesExact_ident h name
  | unary op operand ih => exact givesExact_unary h op ih
  | binary op lhs rhs ih ih' => exact givesExact_binary h op ih ih'
  | sizeofType t => exact givesExact_sizeofType h t
  | cast t operand ih => exact givesExact_cast h t ih
  | other kind text => exact givesExact_of_refused h _ rfl id

end Evaluation

/-! ### Shifts at the limit -/

/-- One enumerator is known, types have eight bytes, and nothing can be cast. -/
def fixedAnswers : Answers ConstError CType where
  enumerator name := if name = "LIMIT" then some 8 else none
  sizeOf _ := .ok 8
  cast _ _ := .error (.unsupported "cast")

/-- The environment with these answers; it has no state. -/
def fixedEnvironment : Environment (ExceptT ConstError (StateM Unit)) CType where
  enumerator name := pure (fixedAnswers.enumerator name)
  sizeOf t := ExceptT.mk <| pure <| (fixedAnswers.sizeOf t)
  cast t v := ExceptT.mk <| pure <| (fixedAnswers.cast t v)
  display := CType.display
  raise := throw

/-- `(-1 << 63) + (LIMIT | sizeof(void*) >> 3)`. -/
def limitShift : Expr CType :=
  .binary "+" (.binary "<<" (.unary "-" (.literal .int "1")) (.literal .int "63"))
    (.binary "|" (.ident "LIMIT") (.binary ">>" (.sizeofType .voidPointer) (.literal .int "3")))

theorem evaluate_limitShift :
    fixedEnvironment.Reads () fixedAnswers ∧
      (runFrom () (limitShift.evaluate fixedEnvironment)).1 = .ok (Int64.ofInt (9 - 2 ^ 63)) := by
  have hreads : fixedEnvironment.Reads () fixedAnswers :=
    ⟨fun _ => rfl, fun _ => rfl, fun _ _ => rfl, fun error => ⟨error, rfl⟩⟩
  exact ⟨hreads, ((evaluate_eq_ok_iff hreads limitShift).2 _).mpr (by decide +kernel)⟩

end Expr

end ForeignCall
