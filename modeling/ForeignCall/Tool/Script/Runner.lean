import ForeignCall.Tool.Runner
import ForeignCall.Tool.Script.Run

/-!
# ForeignCall.Tool.Script.Runner

A machine that runs scripts: the programs that it has are a shell and those that copy texts.

* `Script.runner` — runs a program that is found by its name or its path.
-/

namespace ForeignCall.Script

open Text (Octets octets)

/-- Whether a text holds the character that ends texts outside. -/
def hasNul (s : String) : Bool := s.toList.any (·.toNat = 0)

/-- What a process is given by its surroundings. -/
def surroundings : List (Octets × Octets) :=
  [(octets "PATH", searchPath), (octets "HOME", octets "/root")]

/-- The program with a name, which is started with arguments. The program has to exist before the
arguments are looked at, of which none may be too long. -/
def findFor (name : Octets) (args : List Octets) : Except FileError String :=
  if name.isEmpty then .error .missing
  else
    (findProgram [] startDirectory name (searchPlaces searchPath)).bind fun (_, program) =>
      if args.any fun arg => maxArgument < arg.length then .error .tooManyArguments
      else .ok program

/-- What a program with arguments leaves behind, given its input. -/
def execute (program : String) (args : List Octets) (input : Octets) : Outcome :=
  let process : Process := {
    streams := #[{ unread := input }, {}, {}]
    descriptors := [(0, .source 0), (1, .target 1), (2, .target 2)] }
  let (ending, process) := runProgram program args surroundings process
  { stdout := Text.ofOctets (process.streamText 1)
    stderr := Text.ofOctets (process.streamText 2)
    ending }

/-- Runs a program with arguments on an input. -/
def runner {μ : Type → Type} [Monad μ] : ForeignCall.Runner μ := fun program args input =>
  if hasNul program ∨ args.any hasNul then
    return .error (.launch "nul byte found in provided data")
  else
    let name := octets program
    let args := args.map octets
    match findFor name args with
    | .ok program => return .ok (execute program (name :: args) (octets input))
    | .error e => return .error (.launch e.reason)

end ForeignCall.Script
