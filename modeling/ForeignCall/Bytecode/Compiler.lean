import ForeignCall.Bytecode.Basic
import ForeignCall.Bytecode.Tags
import ForeignCall.Program.Basic
import ForeignCall.Program.Literal
import ForeignCall.Program.Scope

/-!
# ForeignCall.Bytecode.Compiler

The compiler from host programs to bytecode.

The imports of a program or a block are resolved when it is entered, and bind names in its scope.
Every expression leaves one value on the stack, or none if it calls a function that returns nothing;
a statement discards what is left. A call that is open takes one slot of the stack.

* `Term.compile` — the code of an expression, under the names in scope;
* `Program.compile` — the bytecode of a program.

Resolving an import may have effects of `m`, such as extracting a header.
-/

namespace ForeignCall

/-- Why a program cannot be compiled. -/
inductive CompileError where
  | resolve (error : ResolveError)
  | unbound (name : String)
  /-- What is called is no name. -/
  | notAFunction (construct : String)
  | arity (function : String) (expected found : Nat) (variadic : Bool)
  | typeMismatch (function : String) (position : Nat) (expected found : CType)
  | literalOutOfRange (function : String) (position : Nat) (value : Int64) (expected : CType)
  /-- An argument that is no value. -/
  | notSingleValue (construct : String) (count : Nat)
  | unsupported (construct : String)
  /-- More than an operand byte can count. -/
  | tooMany (what : String)
  | literal (error : LiteralError)
deriving DecidableEq

/-- The text of the error. -/
def CompileError.message : CompileError → String
  | .resolve e => e.message
  | .unbound name => "'" ++ name ++ "' is not defined"
  | .notAFunction construct => "'" ++ construct ++ "' is not a function"
  | .arity function expected found variadic =>
    "'" ++ function ++ "' takes " ++ (if variadic then "at least " else "") ++ toString expected ++
      " argument(s), " ++ toString found ++ " given"
  | .typeMismatch function position expected found =>
    "argument " ++ toString position ++ " of '" ++ function ++ "': expected '" ++
      expected.display ++ "', found '" ++ found.display ++ "'"
  | .literalOutOfRange function position value expected =>
    "argument " ++ toString position ++ " of '" ++ function ++ "': " ++ toString value.toInt ++
      " does not fit in '" ++ expected.display ++ "'"
  | .notSingleValue construct count =>
    "'" ++ construct ++ "' produces " ++ toString count ++ " values, expected one"
  | .unsupported construct => "unsupported construct '" ++ construct ++ "'"
  | .tooMany what => "too many " ++ what ++ " (at most 256)"
  | .literal e => e.message

/-- The texts of the causes of the error. -/
def CompileError.causes : CompileError → List String
  | .resolve e => e.message :: e.causes
  | .literal e => [e.message]
  | _ => []

/-! ## Types of arguments -/

/-- Whether an argument of one type may be passed for a parameter of another: the types are equal
once they have decayed, both are arithmetic, or both point to the same type, to characters, or one
of them to anything. -/
def compatible (param found : CType) : Bool :=
  let param := param.decayed
  let found := found.decayed
  if param = found || (param.isArithmetic && found.isArithmetic) then true
  else
    match param.pointee, found.pointee with
    | some p, some a => p = a || p.isVoid || a.isVoid || (p.isCharacter && a.isCharacter)
    | _, _ => false

/-- The type of an argument that no parameter describes. -/
def promoted : CType → CType
  | .integral .bool _ | .integral .char _ | .integral .short _ | .enum .. => .int
  | .floating .float => .double
  | t => t.decayed

/-- A type whose literals have to fit its width. -/
def CType.isIntegralOrEnum : CType → Bool
  | .integral .. | .enum .. => true
  | _ => false

/-! ## Tables -/

/-- A count as an operand byte. -/
def operandByte (n : Nat) (what : String) : Except CompileError UInt8 :=
  if n ≤ 255 then .ok (UInt8.ofNat n) else .error (.tooMany what)

/-- The constants and functions that are in use. -/
structure Tables where
  constants : List Constant
  functions : List Function
deriving DecidableEq

namespace Tables

/-- Tables without entries. -/
def empty : Tables := ⟨[], []⟩

/-- The index of a constant, which is added if it is new. -/
def internConstant (t : Tables) (c : Constant) : Except CompileError (UInt8 × Tables) :=
  match t.constants.findIdx? (· = c) with
  | some i => .ok (UInt8.ofNat i, t)
  | none => (operandByte t.constants.length "constants").map fun i =>
      (i, { t with constants := t.constants ++ [c] })

/-- The index of a function, which is added if it is new. -/
def internFunction (t : Tables) (f : Function) : Except CompileError (UInt8 × Tables) :=
  match t.functions.findIdx? (·.key = f.key) with
  | some i => .ok (UInt8.ofNat i, t)
  | none => (operandByte t.functions.length "functions").map fun i =>
      (i, { t with functions := t.functions ++ [f] })

end Tables

/-! ## Expressions -/

/-- What a program is compiled for. -/
structure Machine where
  target : Target
  tags : TagTable

/-- The code of an expression or a statement. -/
structure Code where
  /-- The type of the value that is left on the stack. -/
  result : Option CType
  instructions : List Instruction
  /-- How many slots of the stack the code needs. -/
  depth : Nat
deriving DecidableEq

/-- The tag of a type that is passed. -/
def Machine.tag (m : Machine) (t : CType) : Except CompileError UInt8 :=
  match m.tags.tagOf m.target t with
  | some n => .ok n
  | none => .error (.unsupported ("passing '" ++ t.display ++ "' by value"))

/-- The code that pushes a constant. -/
def loadCode (tables : Tables) (c : Constant) (t : CType) : Except CompileError (Code × Tables) :=
  (tables.internConstant c).map fun (i, tables) => (⟨some t, [.loadConstant i], 1⟩, tables)

/-- Whether a call has as many arguments as the function takes. -/
def checkArity (f : Function) (found : Nat) : Except CompileError Unit :=
  if found < f.arity ∨ (f.arity < found ∧ !f.variadic) then
    .error (.arity f.name f.arity found f.variadic)
  else .ok ()

/-- Whether an integer literal fits the parameter that it is passed for. -/
def checkLiteral (m : Machine) (f : Function) (position : Nat) (param : CType) :
    Term → Except CompileError Unit
  | .int text =>
    match decodeInt text with
    | .error e => .error (.literal e)
    | .ok v =>
      if param.isIntegralOrEnum then
        match fitsWidth m.target param v with
        | .error reason => .error (.literal (.abort reason))
        | .ok true => .ok ()
        | .ok false => .error (.literalOutOfRange f.name position v param)
      else .ok ()
  | _ => .ok ()

/-- The type as which an argument is passed: that of the parameter if there is one, else the
promoted type of the argument. -/
def passedType (m : Machine) (f : Function) (position : Nat) (arg : Term) (found : CType) :
    Except CompileError CType :=
  match f.params[position]? with
  | some param =>
    if compatible param.type found then
      (checkLiteral m f position param.type arg).map fun _ => param.type.decayed
    else .error (.typeMismatch f.name position param.type found)
  | none => .ok (promoted found)

/-- The instruction that ends a call. -/
def callInstruction (m : Machine) (f : Function) (argc fixed : UInt8) :
    Except CompileError Instruction :=
  match f.variadic, f.ret.isVoid with
  | false, true => .ok (.callVoidFunction argc)
  | true, true => .ok (.callVoidVar argc fixed)
  | false, false => (m.tag f.ret).map fun t => .callFunction argc t
  | true, false => (m.tag f.ret).map fun t => .callVar argc fixed t

/-- The instruction that moves an argument into the frame of the call. -/
def argumentInstruction (m : Machine) (f : Function) (position : Nat) (arg : Term) (code : Code) :
    Except CompileError Instruction :=
  match code.result with
  | none => .error (.notSingleValue arg.display 0)
  | some found => do
    let passed ← passedType m f position arg found
    let tag ← m.tag passed
    let position ← operandByte position "arguments"
    .ok (.argument position tag)

/-- The type of the value that a call leaves. -/
def Function.result (f : Function) : Option CType := if f.ret.isVoid then none else some f.ret

mutual

/-- The code of an expression, and the tables afterwards. -/
def Term.compile (m : Machine) (scope : Scopes Function) (tables : Tables) :
    Term → Except CompileError (Code × Tables)
  | .str raw =>
    match decodeString raw with
    | .error e => .error (.literal e)
    | .ok s => loadCode tables (.str s) .stringPointer
  | .int text =>
    match decodeInt text with
    | .error e => .error (.literal e)
    | .ok v =>
      match intLiteralType m.target text v with
      | .error e => .error (.literal e)
      | .ok t => loadCode tables (.int v) t
  | .name name =>
    match scope.lookup name with
    | some _ => .error (.unsupported ("function value '" ++ name ++ "'"))
    | none => .error (.unbound name)
  | .call (.name name) args =>
    match scope.lookup name with
    | none => .error (.unbound name)
    | some f => do
      checkArity f args.length
      let argc ← operandByte args.length "arguments"
      let fixed ← operandByte f.arity "arguments"
      let (index, tables) ← tables.internFunction f
      let (code, depth, tables) ← compileArgs m scope f 0 tables args
      let call ← callInstruction m f argc fixed
      .ok (⟨f.result, .startCall index argc :: code ++ [call], depth⟩, tables)
  | .call callee _ => .error (.notAFunction callee.display)
  | .other kind text => .error (.unsupported (unknownForm kind text))

/-- The code of the arguments from `position` on, the slots that they need beside the open call, and
the tables afterwards. -/
def compileArgs (m : Machine) (scope : Scopes Function) (f : Function) (position : Nat)
    (tables : Tables) : List Term → Except CompileError (List Instruction × Nat × Tables)
  | [] => .ok ([], 1, tables)
  | arg :: args => do
    let (code, tables) ← arg.compile m scope tables
    let move ← argumentInstruction m f position arg code
    let (rest, depth, tables) ← compileArgs m scope f (position + 1) tables args
    .ok (code.instructions ++ move :: rest, max (1 + code.depth) depth, tables)

end

/-- The code of an expression whose value is discarded. -/
def Code.discarded (code : Code) : Code :=
  match code.result with
  | some _ => ⟨none, code.instructions ++ [.discard 1], code.depth⟩
  | none => code

/-! ## Statements -/

/-- How the imports of a program are resolved. -/
abbrev Resolver (m : Type → Type) := String → String → m (Except ResolveError Function)

variable {μ : Type → Type} [Monad μ]

/-- A result without effects. -/
def withoutEffects {α : Type} (x : Except CompileError α) : ExceptT CompileError μ α :=
  ExceptT.mk (pure x)

/-- Resolves one name of a header. -/
def resolveName (resolve : Resolver μ) (header name : String) : ExceptT CompileError μ Function :=
  ExceptT.mk do
    match ← resolve header name with
    | .ok f => return .ok f
    | .error e => return .error (.resolve e)

/-- Binds names of a header. -/
def bindNames (resolve : Resolver μ) (header : String) (scope : Scopes Function) :
    List String → ExceptT CompileError μ (Scopes Function)
  | [] => return scope
  | name :: names => do
    let f ← resolveName resolve header name
    bindNames resolve header (scope.define name f) names

/-- Binds the names of imports. -/
def bindImports (resolve : Resolver μ) (scope : Scopes Function) :
    List Import → ExceptT CompileError μ (Scopes Function)
  | [] => return scope
  | i :: is => do
    let scope ← bindNames resolve i.header scope i.names
    bindImports resolve scope is

mutual

/-- The code of a statement, which leaves the stack as it was. -/
def Statement.compile (resolve : Resolver μ) (m : Machine) (scope : Scopes Function)
    (tables : Tables) : Statement → ExceptT CompileError μ (Code × Tables)
  | .expr term => do
    let (code, tables) ← withoutEffects (term.compile m scope tables)
    return (code.discarded, tables)
  | .block imports body => do
    let scope ← bindImports resolve scope.push imports
    compileBody resolve m scope tables body
  | .other kind text => throw (.unsupported (unknownForm kind text))

/-- The code of statements, one after the other. -/
def compileBody (resolve : Resolver μ) (m : Machine) (scope : Scopes Function) (tables : Tables) :
    List Statement → ExceptT CompileError μ (Code × Tables)
  | [] => return (⟨none, [], 0⟩, tables)
  | s :: ss => do
    let (code, tables) ← s.compile resolve m scope tables
    let (rest, tables) ← compileBody resolve m scope tables ss
    return (⟨none, code.instructions ++ rest.instructions, max code.depth rest.depth⟩, tables)

end

/-- The bytecode of a program. -/
def Program.compile (resolve : Resolver μ) (m : Machine) (p : Program) :
    ExceptT CompileError μ Bytecode := do
  let scope ← bindImports resolve Scopes.empty p.imports
  let (code, tables) ← compileBody resolve m scope .empty p.body
  return ⟨tables.constants, tables.functions, code.instructions, code.depth⟩

end ForeignCall
