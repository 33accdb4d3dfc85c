/-!
# ForeignCall.Tool.Runner

Running programs is left to the machine. It is asked to start a program with arguments and to pass
it a text; what the program leaves behind, or why it was not started, is all that is known.
-/

namespace ForeignCall

/-- How a program ends. -/
inductive Ending where
  | exit (code : Nat)
  | signal (number : Nat)
deriving DecidableEq, Repr

/-- What a program leaves behind. -/
structure Outcome where
  stdout : List UInt8
  stderr : List UInt8
  ending : Ending
  /-- Why the program did not take its whole input, if it did not. -/
  refusal : Option String := none
deriving DecidableEq, Repr

/-- Whether a program ends with success. -/
def Outcome.succeeded (o : Outcome) : Bool := o.ending = .exit 0

/-- Why a program leaves nothing behind: it cannot be started, or what it writes cannot be read. -/
inductive RunFailure where
  | launch (reason : String)
  | io (reason : String)
deriving DecidableEq, Repr

/-- How a machine runs a program with arguments on an input. -/
abbrev Runner (μ : Type → Type) :=
  String → List String → String → μ (Except RunFailure Outcome)

end ForeignCall
