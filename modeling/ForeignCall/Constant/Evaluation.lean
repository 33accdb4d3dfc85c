import ForeignCall.Constant.Literal
import ForeignCall.Declaration.Basic

/-!
# ForeignCall.Constant.Evaluation

The values of constant expressions: dimensions of arrays and values of enumerators.

Only literals, enumerators, the signs, `+`, `>>`, `<<`, `|`, `sizeof` and casts have a value, and
only if every intermediate result is a signed word of 64 bits. Anything else is refused, because an
approximation would be a wrong layout that nobody notices.

* `Expr.evaluate` — the value of an expression in an environment.
-/

namespace ForeignCall

/-- Why an expression has no value. -/
inductive ConstError where
  /-- The form of the expression is not supported. -/
  | unsupported (construct : String)
  /-- The identifier is no enumerator that has been declared. -/
  | unknownName (name : String)
  | badLiteral (text : String)
  | overflow (construct : String)
deriving DecidableEq, Repr

/-- The text of the error. -/
def ConstError.message : ConstError → String
  | .unsupported construct => "unsupported constant expression '" ++ construct ++ "'"
  | .unknownName name => "'" ++ name ++ "' is not a previously declared enumerator"
  | .badLiteral text => "invalid integer literal '" ++ text ++ "'"
  | .overflow construct => "constant expression '" ++ construct ++ "' overflows"

/-- What an expression refers to. Asking for it may have effects of `m`. -/
structure Environment (m : Type → Type) (τ : Type) where
  /-- The value of an enumerator. -/
  enumerator : String → m (Option Int64)
  /-- The size of a type in bytes. -/
  sizeOf : τ → m Int64
  /-- The value of a cast. -/
  cast : τ → Int64 → m Int64
  /-- The text of a type. -/
  display : τ → String
  /-- Fails. -/
  raise : {α : Type} → ConstError → m α

/-! ## Operators -/

/-- An integer, if it is a signed word of 64 bits. -/
def fit (n : Int) : Option Int64 :=
  if -(2 : Int) ^ 63 ≤ n ∧ n < 2 ^ 63 then some (Int64.ofInt n) else none

/-- The value of a unary operator; `none` for one that is not supported. -/
def unaryOp? : String → Option (Int64 → Option Int64)
  | "+" => some fun v => some v
  | "-" => some fun v => fit (-v.toInt)
  | _ => none

/-- The amount of a shift, from 0 to 63. -/
def shiftAmount (v : Int64) : Option Int64 :=
  if 0 ≤ v.toInt ∧ v.toInt < 64 then some v else none

/-- A shift to the left, if shifting back gives the word again. -/
def shiftLeft? (v amount : Int64) : Option Int64 :=
  let shifted := v <<< amount
  if shifted >>> amount = v then some shifted else none

/-- The value of a binary operator; `none` for one that is not supported. A shift to the right
fills up with the sign. -/
def binaryOp? : String → Option (Int64 → Int64 → Option Int64)
  | "+" => some fun a b => fit (a.toInt + b.toInt)
  | ">>" => some fun a b => (shiftAmount b).map fun amount => a >>> amount
  | "<<" => some fun a b => (shiftAmount b).bind fun amount => shiftLeft? a amount
  | "|" => some fun a b => some (a ||| b)
  | _ => none

/-! ## Evaluation -/

variable {m : Type → Type} [Monad m] {τ : Type}

/-- A value, or the failure of the expression that should have had it. -/
def orRaise (env : Environment m τ) (error : ConstError) : Option Int64 → m Int64
  | some v => pure v
  | none => env.raise error

/-- The value of an expression. An unknown binary operator is found before its operands are
evaluated, an unknown unary operator after. -/
def Expr.evaluate (env : Environment m τ) : Expr τ → m Int64
  | .literal .int text => orRaise env (.badLiteral text) (intLiteral? text.toList)
  | .ident name => do orRaise env (.unknownName name) (← env.enumerator name)
  | .unary op operand => do
    let v ← operand.evaluate env
    let whole := (Expr.unary op operand).display env.display
    match unaryOp? op with
    | some f => orRaise env (.overflow whole) (f v)
    | none => env.raise (.unsupported whole)
  | .binary op lhs rhs =>
    let whole := (Expr.binary op lhs rhs).display env.display
    match binaryOp? op with
    | some f => do
      let l ← lhs.evaluate env
      let r ← rhs.evaluate env
      orRaise env (.overflow whole) (f l r)
    | none => env.raise (.unsupported whole)
  | .sizeofType t => env.sizeOf t
  | .cast t operand => do env.cast t (← operand.evaluate env)
  | .literal _ text => env.raise (.unsupported text)
  | .other kind text => env.raise (.unsupported (otherText kind text))

end ForeignCall
