import ForeignCall.Instances
import ForeignCall.Tool.Script.Builtin.Options

/-!
# ForeignCall.Tool.Script.Builtin.Variables

Builtins that set variables, parameters and options.

* `nextOption` — the next option among arguments, for scripts that read options of their own.
-/

namespace ForeignCall.Script

open Text (Octets octets)

/-! ## Listings -/

/-- Variables in the order of their names, as commands that set them. -/
def listing (command : Octets) (bindings : List (Octets × Variable)) : Octets :=
  let sorted := bindings.mergeSort fun a b => a.1 ≤ b.1
  sorted.flatMap fun (name, v) =>
    let value := match v.value with
      | some text => '=' :: quotedText text
      | none => []
    command ++ name ++ value ++ ['\n']

/-- Shows all variables, or switches options and sets parameters. -/
def setArgs : Builtin := fun args => do
  if args.isEmpty then
    pure (0, listing [] ((← get).bindings.filter fun (_, v) => v.value.isSome))
  else
    let x ← switchOptions false args
    dropJobControl
    if x.clears ∨ !x.operands.isEmpty then
      modify fun s => { s with params := x.operands, optionIndex := 1, optionOffset := none }
    pure (0, [])

/-- Drops parameters from the first on. -/
def shiftParams : Builtin := silent fun args => do
  let n ← match args with
    | [] => pure 1
    | arg :: _ => ShellM.number arg
  let s ← get
  if s.params.length < n then ShellM.fail (octets "can't shift that many")
  set { s with params := s.params.drop n, optionIndex := 1, optionOffset := none }
  pure 0

/-- The name and the value of an argument that sets a variable. -/
def splitAssignment (arg : Octets) : Octets × Option Octets :=
  let name := arg.takeWhile (· ≠ '=')
  (name, if name.length < arg.length then some (arg.drop (name.length + 1)) else none)

/-- Marks variables, or shows those that are marked. -/
def markArgs (isMarked : Variable → Bool) (mark : Variable → Variable) : Builtin := fun args => do
  let (options, names) ← readOptions ['p'] args
  if !options.isEmpty ∨ names.isEmpty then
    let marked := (← get).bindings.filter fun (_, v) => isMarked v
    pure (0, listing ((← builtinName) ++ [' ']) marked)
  else
    names.forM fun arg => do
      let (name, value) := splitAssignment arg
      ShellM.requireName name
      match value with
      | some text => ShellM.assign name text false
      | none => pure ()
      modify fun s =>
        s.putVariable name (some (mark ((s.find? name).getD { value := none })))
    pure (0, [])

/-- Removes variables or functions. -/
def unsetArgs : Builtin := silent fun args => do
  let (options, names) ← readOptions ['v', 'f'] args
  let functions := options.getLast?.any (·.1 = 'f')
  names.forM fun name => do
    if functions then
      modify fun s => { s with functions := s.functions.filter (·.1 ≠ name) }
    else ShellM.unassign name
  pure 0

/-- Makes variables local to the function that is being run. -/
def localArgs : Builtin := silent fun args => do
  if (← get).frames.isEmpty then ShellM.fail (octets "not in a function")
  args.forM fun arg => do
    if arg = ['-'] then ShellM.keep arg
    else
      let (name, value) := splitAssignment arg
      ShellM.requireName name
      ShellM.keep name
      match value with
      | some text => ShellM.assign name text false
      | none => pure ()
  pure 0

/-! ## Options of scripts -/

/-- What is found where an option is looked for. -/
structure FoundOption where
  /-- The letter of the option, or what stands for an error. -/
  letter : Char := '?'
  argument : Option Octets := none
  report : Octets := []
  /-- What is left of the argument that holds the option. -/
  rest : Octets := []
  /-- How many arguments have been read. -/
  taken : Nat

/-- The option at the start of letters that are left of an argument, of which `taken` have been
read. -/
def optionAt (allowed : Octets) (args : List Octets) (taken : Nat) (c : Char) (rest : Octets) :
    FoundOption :=
  let quiet := allowed.head? = some ':'
  let bad : FoundOption := { taken := taken, rest := rest }
  match if c = ':' then [] else allowed.dropWhile (· ≠ c) with
  | [] =>
    if quiet then { bad with argument := some [c] }
    else { bad with report := octets "Illegal option -" ++ [c, '\n'] }
  | _ :: ':' :: _ =>
    if !rest.isEmpty then { letter := c, argument := some rest, taken := taken }
    else
      match args.drop taken with
      | arg :: _ => { letter := c, argument := some arg, taken := taken + 1 }
      | [] =>
        if quiet then { letter := ':', argument := some [c], taken := taken }
        else { taken := taken, report := octets "No arg for -" ++ c :: octets " option\n" }
  | _ => { letter := c, argument := some [], taken := taken, rest := rest }

/-- The next option among arguments: `index` is the number of the argument that comes next, `offset`
how much of the one before it has been read. -/
def nextOption (allowed : Octets) (args : List Octets) (index : Nat) (offset : Option Nat) :
    Nat × Option FoundOption :=
  let left := match offset with
    | some n => if 2 ≤ index then (args.getD (index - 2) []).drop n else []
    | none => []
  match left with
  | c :: rest => (index - 1, some (optionAt allowed args (index - 1) c rest))
  | [] =>
    match args.drop (index - 1) with
    | ['-', '-'] :: _ => (index, none)
    | ('-' :: c :: rest) :: _ => (index, some (optionAt allowed args index c rest))
    | _ => (index - 1, none)

/-- Looks for the next option among the parameters or the arguments. -/
def getOptions : Builtin := silent fun args => do
  match args with
  | allowed :: name :: given =>
    let s ← get
    let args := if given.isEmpty then s.params else given
    let (index, offset) :=
      if args.length + 1 < s.optionIndex then (1, none) else (s.optionIndex, s.optionOffset)
    let setDirectly (name value : Octets) : ShellM Unit := modify fun s =>
      s.putVariable name (some { (s.find? name).getD { value := none } with value := some value })
    let next (taken : Nat) : ShellM Unit :=
      setDirectly (octets "OPTIND") (toString (taken + 1)).toList
    match nextOption allowed args index offset with
    | (taken, none) =>
      next taken
      ShellM.assign name ['?'] false
      modify fun s => { s with optionIndex := taken + 1, optionOffset := none }
      pure 1
    | (_, some found) =>
      ShellM.complain found.report
      match found.argument with
      | some text => ShellM.assign (octets "OPTARG") text false
      | none => ShellM.unassign (octets "OPTARG")
      next found.taken
      ShellM.assign name [found.letter] false
      let length := (args.getD (found.taken - 1) []).length
      let offset := if found.rest.isEmpty then none else some (length - found.rest.length)
      modify fun s => { s with optionIndex := found.taken + 1, optionOffset := offset }
      pure 0
  | _ => ShellM.fail (octets "Usage: getopts optstring var [arg...]")

end ForeignCall.Script
