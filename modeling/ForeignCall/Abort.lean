/-!
# ForeignCall.Abort

Arithmetic on machine words is checked. An operation whose result is no word, or that divides by
zero, ends the whole program. An abort goes up like an error does, but nobody handles it, and what
the program has changed until then does not matter.
-/

namespace ForeignCall

/-- The operation on words that ends the program: its result is out of range, or it divides by
zero. -/
inductive Abort where
  | add
  | subtract
  | multiply
  | divide
  | remainder
deriving DecidableEq, Repr

/-- The text with which the program ends. -/
def Abort.message : Abort → String
  | .add => "attempt to add with overflow"
  | .subtract => "attempt to subtract with overflow"
  | .multiply => "attempt to multiply with overflow"
  | .divide => "attempt to divide by zero"
  | .remainder => "attempt to calculate the remainder with a divisor of zero"

end ForeignCall
