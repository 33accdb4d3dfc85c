/-!
# ForeignCall.Bytecode.Instruction

The instructions of the stack machine that calls the functions, and the stream of bytes that holds
them. An instruction is one byte for its opcode and a fixed number of operand bytes.

| Instruction | Effect |
|---|---|
| `LOAD_CONSTANT(i)` | pushes constant `i` |
| `DISCARD(n)` | pops `n` values |
| `START_CALL(f, argc)` | opens a frame for function `f` |
| `ARGUMENT(pos, tag)` | pops a value into argument `pos` of the innermost frame |
| `CALL_FUNCTION(argc, ret)` | closes the frame, calls and pushes the result |
| `CALL_VOID_FUNCTION(argc)` | closes the frame and calls |
| `CALL_VAR(argc, fixed, ret)` | a variadic call with a result |
| `CALL_VOID_VAR(argc, fixed)` | a variadic call without one |

* `encode`, `decode` — between instructions and bytes;
* `length_bytes` — an instruction is as long as its opcode says.
-/

namespace ForeignCall

/-- What an instruction does. -/
inductive Opcode where
  | loadConstant | discard | startCall | argument | callFunction | callVoidFunction | callVar
  | callVoidVar
deriving DecidableEq, Repr

namespace Opcode

/-- The byte of an opcode. -/
def byte : Opcode → UInt8
  | .loadConstant => 1
  | .discard => 2
  | .startCall => 3
  | .argument => 4
  | .callFunction => 5
  | .callVoidFunction => 6
  | .callVar => 7
  | .callVoidVar => 8

/-- The opcode of a byte. -/
def ofByte? (b : UInt8) : Option Opcode :=
  if b = 1 then some .loadConstant
  else if b = 2 then some .discard
  else if b = 3 then some .startCall
  else if b = 4 then some .argument
  else if b = 5 then some .callFunction
  else if b = 6 then some .callVoidFunction
  else if b = 7 then some .callVar
  else if b = 8 then some .callVoidVar
  else none

/-- How many operand bytes follow. -/
def arity : Opcode → Nat
  | .loadConstant | .discard | .callVoidFunction => 1
  | .startCall | .argument | .callFunction | .callVoidVar => 2
  | .callVar => 3

/-- The name of an opcode in listings. -/
def name : Opcode → String
  | .loadConstant => "LOAD_CONSTANT"
  | .discard => "DISCARD"
  | .startCall => "START_CALL"
  | .argument => "ARGUMENT"
  | .callFunction => "CALL_FUNCTION"
  | .callVoidFunction => "CALL_VOID_FUNCTION"
  | .callVar => "CALL_VAR"
  | .callVoidVar => "CALL_VOID_VAR"

end Opcode

/-- An instruction with its operands. -/
inductive Instruction where
  | loadConstant (index : UInt8)
  | discard (count : UInt8)
  | startCall (function argc : UInt8)
  | argument (position tag : UInt8)
  | callFunction (argc ret : UInt8)
  | callVoidFunction (argc : UInt8)
  | callVar (argc fixed ret : UInt8)
  | callVoidVar (argc fixed : UInt8)
deriving DecidableEq, Repr

/-- Why bytes are no instructions. -/
inductive StreamError where
  | unknownOpcode (byte : UInt8)
  /-- The number of operands is not that of the opcode. -/
  | arity (opcode : Opcode) (found : Nat)
  /-- The stream ends inside the instruction that starts at `offset`. -/
  | truncated (opcode : Opcode) (offset : Nat)
deriving DecidableEq, Repr

/-- The text of the error. -/
def StreamError.message : StreamError → String
  | .unknownOpcode b => "unknown opcode " ++ toString b.toNat
  | .arity op found =>
    op.name ++ " takes " ++ toString op.arity ++ " operand(s), got " ++ toString found
  | .truncated op offset => "truncated " ++ op.name ++ " at byte " ++ toString offset

namespace Instruction

/-- What the instruction does. -/
def opcode : Instruction → Opcode
  | .loadConstant _ => .loadConstant
  | .discard _ => .discard
  | .startCall .. => .startCall
  | .argument .. => .argument
  | .callFunction .. => .callFunction
  | .callVoidFunction _ => .callVoidFunction
  | .callVar .. => .callVar
  | .callVoidVar .. => .callVoidVar

/-- The operands in order. -/
def operands : Instruction → List UInt8
  | .loadConstant a | .discard a | .callVoidFunction a => [a]
  | .startCall a b | .argument a b | .callFunction a b | .callVoidVar a b => [a, b]
  | .callVar a b c => [a, b, c]

/-- The instruction of an opcode and its operands, if they are as many as it takes. -/
def ofOperands? : Opcode → List UInt8 → Option Instruction
  | .loadConstant, [a] => some (.loadConstant a)
  | .discard, [a] => some (.discard a)
  | .startCall, [a, b] => some (.startCall a b)
  | .argument, [a, b] => some (.argument a b)
  | .callFunction, [a, b] => some (.callFunction a b)
  | .callVoidFunction, [a] => some (.callVoidFunction a)
  | .callVar, [a, b, c] => some (.callVar a b c)
  | .callVoidVar, [a, b] => some (.callVoidVar a b)
  | _, _ => none

/-- The instruction of an opcode byte and operands. -/
def ofParts (byte : UInt8) (operands : List UInt8) : Except StreamError Instruction :=
  match Opcode.ofByte? byte with
  | none => .error (.unknownOpcode byte)
  | some op =>
    match ofOperands? op operands with
    | some i => .ok i
    | none => .error (.arity op operands.length)

/-- The bytes of an instruction. -/
def bytes (i : Instruction) : List UInt8 := i.opcode.byte :: i.operands

/-- The text of an instruction in listings. -/
def display (i : Instruction) : String :=
  i.opcode.name ++ "(" ++ ", ".intercalate (i.operands.map fun b => toString b.toNat) ++ ")"

/-- An instruction has as many operands as its opcode takes. -/
@[simp] theorem length_operands (i : Instruction) : i.operands.length = i.opcode.arity := by
  cases i <;> rfl

/-- An instruction is as long as its opcode says. -/
@[simp] theorem length_bytes (i : Instruction) : i.bytes.length = 1 + i.opcode.arity := by
  simp [bytes, Nat.add_comm]

end Instruction

/-! ## Streams -/

/-- The bytes of instructions. -/
def encode (instructions : List Instruction) : List UInt8 := instructions.flatMap Instruction.bytes

/-- The instructions of a stream that starts `offset` bytes behind the beginning. -/
def decodeFrom : Nat → List UInt8 → Except StreamError (List Instruction)
  | _, [] => .ok []
  | offset, b :: rest =>
    match Opcode.ofByte? b with
    | none => .error (.unknownOpcode b)
    | some op =>
      match op, rest with
      | .loadConstant, x :: rest => (decodeFrom (offset + 2) rest).map (.loadConstant x :: ·)
      | .discard, x :: rest => (decodeFrom (offset + 2) rest).map (.discard x :: ·)
      | .startCall, x :: y :: rest => (decodeFrom (offset + 3) rest).map (.startCall x y :: ·)
      | .argument, x :: y :: rest => (decodeFrom (offset + 3) rest).map (.argument x y :: ·)
      | .callFunction, x :: y :: rest => (decodeFrom (offset + 3) rest).map (.callFunction x y :: ·)
      | .callVoidFunction, x :: rest =>
        (decodeFrom (offset + 2) rest).map (.callVoidFunction x :: ·)
      | .callVar, x :: y :: z :: rest => (decodeFrom (offset + 4) rest).map (.callVar x y z :: ·)
      | .callVoidVar, x :: y :: rest => (decodeFrom (offset + 3) rest).map (.callVoidVar x y :: ·)
      | op, _ => .error (.truncated op offset)

/-- The instructions of a stream. -/
def decode (bytes : List UInt8) : Except StreamError (List Instruction) := decodeFrom 0 bytes

end ForeignCall
