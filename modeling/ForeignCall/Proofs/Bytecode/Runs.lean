import ForeignCall.Bytecode.Compiler
import ForeignCall.Proofs.Program.Induction
import ForeignCall.Proofs.Results

/-!
# ForeignCall.Proofs.Bytecode.Runs

Compilations with a state. Resolving an import may change the state, so a name may resolve to
something else the next time, or to nothing. The code of the expressions depends on the state only
through what is in scope.

* `Statement.run_induction` — induction over the runs of statements, whether they succeed or fail;
* `Program.run_eq_ok_iff` — how the run of a program succeeds;
* `Program.explained` — what the result of a program tells of its expressions.
-/

namespace ForeignCall

/-! ## The expressions of a program -/

mutual

/-- The expressions that are statements, at any depth of blocks. -/
def Statement.expressions : Statement → List Term
  | .expr term => [term]
  | .block _ body => bodyExpressions body
  | .other .. => []

/-- The expressions of statements in a row. -/
def bodyExpressions : List Statement → List Term
  | [] => []
  | s :: body => s.expressions ++ bodyExpressions body

end

/-- The expressions of a program. -/
def Program.expressions (p : Program) : List Term := bodyExpressions p.body

/-! ## Runs -/

section Runs

variable {σ : Type} {resolve : Resolver (StateM σ)} {m : Machine}

@[simp] theorem runFrom_withoutEffects {α : Type} (state : σ) (x : Except CompileError α) :
    runFrom state (withoutEffects x) = (x, state) := rfl

/-- Resolving a name gives a function, or the error of the resolver. -/
theorem runFrom_resolveName (state : σ) (header name : String) :
    runFrom state (resolveName resolve header name) =
      (((resolve header name).run state).1.mapError .resolve,
        ((resolve header name).run state).2) := by
  unfold runFrom resolveName
  rw [ExceptT.run_mk, StateT.run_bind]
  rcases (resolve header name).run state with ⟨_ | _, _⟩ <;> rfl

/-- Binding names fails only where one does not resolve. -/
theorem bindNames_error {header : String} {names : List String} {scope : Scopes Function}
    {state : σ} {e : CompileError}
    (h : (runFrom state (bindNames resolve header scope names)).1 = .error e) :
    ∃ cause, e = .resolve cause := by
  induction names generalizing scope state with
  | nil => simp [bindNames] at h
  | cons name names ih =>
    rw [bindNames, runFrom_bind, runFrom_resolveName] at h
    rcases hresolved : (resolve header name).run state with ⟨cause | f, state'⟩
    · rw [hresolved] at h
      exact ⟨cause, (Except.error.inj h).symm⟩
    · rw [hresolved] at h
      exact ih h

/-- Binding imports fails only where a name does not resolve. -/
theorem bindImports_error {imports : List Import} {scope : Scopes Function} {state : σ}
    {e : CompileError} (h : (runFrom state (bindImports resolve scope imports)).1 = .error e) :
    ∃ cause, e = .resolve cause := by
  induction imports generalizing scope state with
  | nil => simp [bindImports] at h
  | cons i imports ih =>
    rw [bindImports, runFrom_bind] at h
    rcases hnames : runFrom state (bindNames resolve i.header scope i.names) with
      ⟨cause | inner, state'⟩
    · rw [hnames] at h
      exact bindNames_error (by rw [hnames]; exact h)
    · rw [hnames] at h
      exact ih h

/-- The result of a statement that is an expression. -/
def expressionResult (m : Machine) (scope : Scopes Function) (t : Tables) (term : Term) :
    Except CompileError (Code × Tables) :=
  (term.compile m scope t).map fun (code, t') => (code.discarded, t')

/-- The result of statements, given the code of the first and the result of the others. -/
def Code.followedBy (first : Code) (rest : Except CompileError (Code × Tables)) :
    Except CompileError (Code × Tables) :=
  rest.map fun (code, t') =>
    (⟨none, first.instructions ++ code.instructions, max first.depth code.depth⟩, t')

theorem runFrom_compile_expr {scope : Scopes Function} {t : Tables} {term : Term} {state : σ} :
    (runFrom state (Statement.compile resolve m scope t (.expr term))).1 =
      expressionResult m scope t term := by
  rw [Statement.compile, runFrom_bind, runFrom_withoutEffects, expressionResult]
  cases term.compile m scope t <;> rfl

/-- A block is compiled where its imports have bound names, or one of them does not resolve. -/
theorem runFrom_compile_block (resolve : Resolver (StateM σ)) (m : Machine)
    (scope : Scopes Function) (t : Tables) (imports : List Import) (body : List Statement)
    (state : σ) :
    (∃ cause, (runFrom state (Statement.compile resolve m scope t (.block imports body))).1 =
      .error (.resolve cause)) ∨
    ∃ inner entered, (runFrom state (Statement.compile resolve m scope t (.block imports body))).1 =
      (runFrom entered (compileBody resolve m inner t body)).1 := by
  rw [Statement.compile, runFrom_bind]
  rcases himports : runFrom state (bindImports resolve scope.push imports) with
    ⟨e | inner, entered⟩
  · have herror : (runFrom state (bindImports resolve scope.push imports)).1 = .error e := by
      rw [himports]
    obtain ⟨cause, rfl⟩ := bindImports_error herror
    exact .inl ⟨cause, rfl⟩
  · exact .inr ⟨inner, entered, rfl⟩

/-- Statements fail where the first does, and otherwise they go on where it ends. -/
theorem runFrom_compileBody_cons {scope : Scopes Function} {t : Tables} {s : Statement}
    {body : List Statement} {state : σ} :
    (runFrom state (compileBody resolve m scope t (s :: body))).1 =
      match runFrom state (s.compile resolve m scope t) with
      | (.ok (first, between), state') =>
        first.followedBy (runFrom state' (compileBody resolve m scope between body)).1
      | (.error e, _) => .error e := by
  rw [compileBody, runFrom_bind]
  rcases runFrom state (s.compile resolve m scope t) with ⟨e | ⟨first, between⟩, state'⟩
  · rfl
  · dsimp only
    rw [runFrom_bind]
    rcases runFrom state' (compileBody resolve m scope between body) with ⟨_ | _, _⟩ <;> rfl

/-- **Induction over the runs** of a statement, and of statements in a row. The imports of a block
either bind names, or one of them does not resolve. -/
theorem Statement.run_induction
    {S : Scopes Function → Tables → Statement → Except CompileError (Code × Tables) → Prop}
    {B : Scopes Function → Tables → List Statement → Except CompileError (Code × Tables) → Prop}
    (expr : ∀ scope t term, S scope t (.expr term) (expressionResult m scope t term))
    (unresolved : ∀ scope t imports body cause,
      S scope t (.block imports body) (.error (.resolve cause)))
    (block : ∀ scope inner t imports body result, B inner t body result →
      S scope t (.block imports body) result)
    (other : ∀ scope t kind text,
      S scope t (.other kind text) (.error (.unsupported (unknownForm kind text))))
    (nil : ∀ scope t, B scope t [] (.ok (⟨none, [], 0⟩, t)))
    (fails : ∀ scope t s body e, S scope t s (.error e) → B scope t (s :: body) (.error e))
    (cons : ∀ scope t s body first between result, S scope t s (.ok (first, between)) →
      B scope between body result → B scope t (s :: body) (first.followedBy result)) :
    (∀ (s : Statement) scope t (state : σ),
      S scope t s (runFrom state (s.compile resolve m scope t)).1) ∧
    ∀ body scope t (state : σ),
      B scope t body (runFrom state (compileBody resolve m scope t body)).1 := by
  apply Statement.induct
    (S := fun s => ∀ scope t (state : σ),
      S scope t s (runFrom state (s.compile resolve m scope t)).1)
    (B := fun body => ∀ scope t (state : σ),
      B scope t body (runFrom state (compileBody resolve m scope t body)).1)
  case expr =>
    intro term scope t state
    rw [runFrom_compile_expr]
    exact expr scope t term
  case block =>
    intro imports body hbody scope t state
    obtain ⟨cause, hresult⟩ | ⟨inner, entered, hresult⟩ :=
      runFrom_compile_block resolve m scope t imports body state
    · rw [hresult]
      exact unresolved scope t imports body cause
    · rw [hresult]
      exact block scope inner t imports body _ (hbody inner t entered)
  case other =>
    intro kind text scope t state
    rw [Statement.compile]
    exact other scope t kind text
  case nil =>
    intro scope t state
    simpa [compileBody] using nil scope t
  case cons =>
    intro s body hs hbody scope t state
    have hfirst := hs scope t state
    rw [runFrom_compileBody_cons]
    rcases hresult : runFrom state (s.compile resolve m scope t) with
      ⟨e | ⟨first, between⟩, state'⟩
    · rw [hresult] at hfirst
      exact fails scope t s body e hfirst
    · rw [hresult] at hfirst
      exact cons scope t s body first between _ hfirst (hbody scope between state')

/-- How the run of a program succeeds: its imports bind names, and its statements are compiled. -/
theorem Program.run_eq_ok_iff {p : Program} {b : Bytecode} {state : σ} :
    (runFrom state (p.compile resolve m)).1 = .ok b ↔
      ∃ scope entered code t, runFrom state (bindImports resolve .empty p.imports) =
          (.ok scope, entered) ∧
        (runFrom entered (compileBody resolve m scope .empty p.body)).1 = .ok (code, t) ∧
        b = ⟨t.constants, t.functions, code.instructions, code.depth⟩ := by
  rw [Program.compile, runFrom_bind]
  rcases runFrom state (bindImports resolve .empty p.imports) with ⟨e | scope, entered⟩
  · simp
  · dsimp only
    rw [runFrom_bind]
    rcases hbody : runFrom entered (compileBody resolve m scope .empty p.body) with
      ⟨e | ⟨code, t⟩, state'⟩
    · simp [hbody]
    · simp [hbody, eq_comm]

/-! ## What the result tells of the expressions -/

/-- What a result tells of expressions: each of them has been compiled, or a name does not resolve,
or there is an unknown form, or the error is that of one of them. -/
def Explained {α : Type} (m : Machine) (terms : List Term) : Except CompileError α → Prop
  | .ok _ => ∀ term ∈ terms, ∃ scope t code t', term.compile m scope t = .ok (code, t')
  | .error e => (∃ cause, e = .resolve cause) ∨ (∃ construct, e = .unsupported construct) ∨
    ∃ term ∈ terms, ∃ scope t, term.compile m scope t = .error e

/-- The error of some of the expressions is the error of all of them. -/
theorem Explained.error_mono {α β : Type} {terms terms' : List Term} {e : CompileError}
    (h : Explained m terms (.error e : Except CompileError α)) (hsub : terms ⊆ terms') :
    Explained m terms' (.error e : Except CompileError β) := by
  rcases h with hresolve | hform | ⟨term, hmem, hterm⟩
  · exact .inl hresolve
  · exact .inr (.inl hform)
  · exact .inr (.inr ⟨term, hsub hmem, hterm⟩)

/-- **The result of statements tells of their expressions.** -/
theorem explained_statements (resolve : Resolver (StateM σ)) (m : Machine) :
    (∀ (s : Statement) scope t (state : σ),
      Explained m s.expressions (runFrom state (s.compile resolve m scope t)).1) ∧
    ∀ body scope t (state : σ),
      Explained m (bodyExpressions body)
        (runFrom state (compileBody resolve m scope t body)).1 := by
  apply Statement.run_induction (S := fun _ _ s result => Explained m s.expressions result)
    (B := fun _ _ body result => Explained m (bodyExpressions body) result)
  case expr =>
    intro scope t term
    unfold expressionResult
    cases hterm : term.compile m scope t with
    | error e => exact .inr (.inr ⟨term, by simp [Statement.expressions], scope, t, hterm⟩)
    | ok result =>
      intro term' hmem
      obtain rfl : term' = term := by simpa [Statement.expressions] using hmem
      exact ⟨scope, t, result.1, result.2, hterm⟩
  case unresolved => exact fun scope t imports body cause => .inl ⟨cause, rfl⟩
  case block => exact fun scope inner t imports body result ih => ih
  case other => exact fun scope t kind text => .inr (.inl ⟨_, rfl⟩)
  case nil => exact fun scope t term hmem => absurd hmem List.not_mem_nil
  case fails =>
    intro scope t s body e ih
    exact ih.error_mono (List.subset_append_left _ _)
  case cons =>
    intro scope t s body first between result ihs ihbody
    cases result with
    | error e => exact ihbody.error_mono (List.subset_append_right _ _)
    | ok rest =>
      intro term hmem
      rcases List.mem_append.1 hmem with hmem | hmem
      · exact ihs term hmem
      · exact ihbody term hmem

/-- **The result of a program tells of its expressions.** -/
theorem Program.explained (resolve : Resolver (StateM σ)) (m : Machine) (p : Program) (state : σ) :
    Explained m p.expressions (runFrom state (p.compile resolve m)).1 := by
  rw [Program.compile, runFrom_bind]
  rcases himports : runFrom state (bindImports resolve .empty p.imports) with ⟨e | scope, entered⟩
  · have herror : (runFrom state (bindImports resolve .empty p.imports)).1 = .error e := by
      rw [himports]
    exact .inl (bindImports_error herror)
  · have hbody := (explained_statements resolve m).2 p.body scope .empty entered
    dsimp only
    rw [runFrom_bind]
    rcases hresult : runFrom entered (compileBody resolve m scope .empty p.body) with
      ⟨e | result, state'⟩
    · rw [hresult] at hbody
      exact hbody
    · rw [hresult] at hbody
      exact hbody

end Runs

end ForeignCall
