import ForeignCall.Bytecode.Instruction
import ForeignCall.Json.Basic
import ForeignCall.Registry.Function

/-!
# ForeignCall.Bytecode.Basic

The result of a compilation: constants, functions, instructions and the stack that they need.

* `Bytecode.toDocument` — the document for the executor;
* `Bytecode.display` — the listing.
-/

namespace ForeignCall

/-- A constant of a program. -/
inductive Constant where
  | str (value : String)
  | int (value : Int64)
deriving DecidableEq

/-- The text of a constant in listings. -/
def Constant.display : Constant → String
  | .str s => Text.quoted s
  | .int v => toString v.toInt

/-- The document of a constant. -/
def Constant.toJson : Constant → Json
  | .str s => .str s
  | .int v => .int v.toInt

/-- A compiled program. -/
structure Bytecode where
  /-- The constants in the order of their first use, each once. -/
  constants : List Constant
  /-- The functions in the order of their first use, each once. -/
  functions : List Function
  instructions : List Instruction
  /-- How many slots of the stack the program needs. -/
  maxStack : Nat
deriving DecidableEq

namespace Bytecode

/-- The stream of the instructions. -/
def bytes (b : Bytecode) : List UInt8 := encode b.instructions

/-- Whether the stream reads back as the instructions. -/
def readsBack (b : Bytecode) : Bool := (decode b.bytes).toOption = some b.instructions

/-- The document for the executor. -/
def toDocument (b : Bytecode) : Json :=
  .obj [("constants", .arr (b.constants.map Constant.toJson)),
    ("functions", .arr (b.functions.map fun f =>
      .obj [("dll", .opt .str f.library), ("name", .str f.name)])),
    ("instructions", .arr (b.bytes.map fun x => .nat x.toNat)),
    ("max_size", .nat b.maxStack)]

/-- Numbered lines of a listing. -/
def numbered (label : String) (texts : List String) : List String :=
  texts.mapIdx fun i t => label ++ " " ++ toString i ++ ": " ++ t ++ "\n"

/-- The listing. -/
def display (b : Bytecode) : String :=
  String.join (numbered "const" (b.constants.map Constant.display)) ++
    String.join (numbered "func" (b.functions.map Function.name)) ++
    String.join (b.instructions.map fun i => "    " ++ i.display ++ "\n") ++
    "max stack: " ++ toString b.maxStack

end Bytecode

end ForeignCall
