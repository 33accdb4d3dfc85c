import ForeignCall.Program.Basic

/-!
# ForeignCall.Proofs.Program.Induction

Induction on programs as they are written. Expressions contain arguments and blocks contain
statements, so what is shown of one expression or statement is shown together with what holds of
several in a row.

* `Term.induct` — induction on expressions and arguments;
* `Statement.induct` — induction on statements and the bodies of blocks.
-/

namespace ForeignCall

/-- Induction on expressions and arguments. -/
theorem Term.induct {T : Term → Prop} {A : List Term → Prop} (str : ∀ raw, T (.str raw))
    (int : ∀ text, T (.int text)) (name : ∀ name, T (.name name))
    (call : ∀ callee args, T callee → A args → T (.call callee args))
    (other : ∀ kind text, T (.other kind text)) (nil : A [])
    (cons : ∀ arg args, T arg → A args → A (arg :: args)) :
    (∀ term, T term) ∧ ∀ args, A args := by
  have terms : ∀ term, T term :=
    Term.rec (motive_1 := T) (motive_2 := A) str int name call other nil cons
  refine ⟨terms, fun args => ?_⟩
  induction args with
  | nil => exact nil
  | cons arg args ih => exact cons arg args (terms arg) ih

/-- Induction on statements and the bodies of blocks. -/
theorem Statement.induct {S : Statement → Prop} {B : List Statement → Prop}
    (expr : ∀ term, S (.expr term)) (block : ∀ imports body, B body → S (.block imports body))
    (other : ∀ kind text, S (.other kind text)) (nil : B [])
    (cons : ∀ s body, S s → B body → B (s :: body)) : (∀ s, S s) ∧ ∀ body, B body := by
  have statements : ∀ s, S s :=
    Statement.rec (motive_1 := S) (motive_2 := B) expr block other nil cons
  refine ⟨statements, fun body => ?_⟩
  induction body with
  | nil => exact nil
  | cons s body ih => exact cons s body (statements s) ih

end ForeignCall
