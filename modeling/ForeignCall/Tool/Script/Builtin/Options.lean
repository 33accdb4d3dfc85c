import ForeignCall.Tool.Script.State

/-!
# ForeignCall.Tool.Script.Builtin.Options

Options among the arguments of builtins. Letters behind a dash can stand together; a letter can take
an argument, which follows it. Two dashes end the options.

* `readOptions` — the options of a builtin, and the operands;
* `switchOptions` — the options of a shell, which are switched as they are read.
-/

namespace ForeignCall.Script

open Text (Octets octets)

/-- What a builtin does with its arguments: its status, and what it writes. -/
abbrev Builtin := List Octets → ShellM (Nat × Octets)

/-- A builtin that writes nothing. -/
def silent (act : List Octets → ShellM Nat) : Builtin := fun args => do pure (← act args, [])

/-- The builtin that is being run. -/
def builtinName : ShellM Octets := do pure ((← get).builtin.getD [])

/-! ## Options of builtins -/

/-- The letters of an argument that are options, and the letter that takes what is left as its
argument. In `allowed` a colon follows a letter that takes an argument. -/
def optionLetters (allowed : Octets) : Octets → ShellM (List Char × Option (Char × Octets))
  | [] => pure ([], none)
  | c :: cs => do
    match if c = ':' then [] else allowed.dropWhile (· ≠ c) with
    | [] => ShellM.fail (octets "Illegal option -" ++ [c])
    | _ :: ':' :: _ => pure ([], some (c, cs))
    | _ =>
      let (letters, last) ← optionLetters allowed cs
      pure (c :: letters, last)

/-- The options of arguments with their own arguments, and the operands. -/
def readOptions (allowed : Octets) : List Octets → ShellM (List (Char × Octets) × List Octets)
  | ['-', '-'] :: rest => pure ([], rest)
  | ('-' :: c :: cs) :: rest => do
    let (letters, last) ← optionLetters allowed (c :: cs)
    let plain := letters.map fun c => (c, [])
    match last, rest with
    | none, rest =>
      let (more, operands) ← readOptions allowed rest
      pure (plain ++ more, operands)
    | some (c, []), [] => ShellM.fail (octets "No arg for -" ++ c :: octets " option")
    | some (c, []), arg :: rest =>
      let (more, operands) ← readOptions allowed rest
      pure (plain ++ (c, arg) :: more, operands)
    | some (c, arg), rest =>
      let (more, operands) ← readOptions allowed rest
      pure (plain ++ (c, arg) :: more, operands)
  | operands => pure ([], operands)

/-! ## Options of a shell -/

/-- What the options of a shell leave. -/
structure Switched where
  /-- The letters of the options that have been switched. -/
  letters : List Char := []
  /-- Whether parameters are replaced even if there are no operands. -/
  clears : Bool := false
  operands : List Octets

/-- The settings of all options. -/
def optionTable (s : State) (allOn : Bool) : Octets :=
  octets "Current option settings\n" ++ optionNames.flatMap fun (c, name) =>
    let padded := octets name ++ List.replicate (16 - name.length) ' '
    padded ++ octets (if allOn || s.has c then "on\n" else "off\n")

/-- The commands that restore the settings of all options. -/
def optionCommands (s : State) (allOn : Bool) : Octets :=
  optionNames.flatMap fun (c, name) =>
    octets (if allOn || s.has c then "set -o " else "set +o ") ++ octets name ++ ['\n']

/-- Switches an option that is given by its name, or shows the settings; gives the letters of what
has been switched. -/
def switchNamed (start on : Bool) : Option Octets → ShellM (List Char)
  | none => do
    let s ← get
    let _ ← ShellM.say (if on then optionTable s start else optionCommands s start)
    pure []
  | some name =>
    match optionNames.find? fun (_, n) => octets n = name with
    | some (c, _) => do
      modify fun s => s.setOption c on
      pure [c]
    | none => ShellM.fail (octets "Illegal option -o " ++ name)

/-- Switches the options of letters; `o` takes its name from the arguments that follow. Gives the
letters, and the arguments that are left. -/
def switchLetters (start on : Bool) : Octets → List Octets → ShellM (List Char × List Octets)
  | [], rest => pure ([], rest)
  | c :: cs, rest => do
    let (switched, rest) ←
      if c = 'o' then pure (← switchNamed start on rest.head?, rest.tail)
      else if start ∧ (c = 'c' ∨ c = 'l') then pure ([c], rest)
      else if ' ' < c ∧ (optionNames.lookup c).isSome then
        modify fun s => s.setOption c on
        pure ([c], rest)
      else ShellM.fail (octets "Illegal option -" ++ [c])
    let (more, rest) ← switchLetters start on cs rest
    pure (switched ++ more, rest)

/-- Switches the options that arguments begin with, of which there are at most so many. -/
def switchAtMost (start : Bool) : Nat → List Octets → ShellM Switched
  | 0, rest => pure { operands := rest }
  | n + 1, rest => do
    let switch (on : Bool) (cs : Octets) (rest : List Octets) : ShellM Switched := do
      let (letters, rest) ← switchLetters start on cs rest
      let more ← switchAtMost start n rest
      pure { more with letters := letters ++ more.letters }
    match rest with
    | ['-'] :: rest =>
      unless start do modify fun s => (s.setOption 'x' false).setOption 'v' false
      pure { operands := rest }
    | ['-', '-'] :: rest => pure { clears := true, operands := rest }
    | ('-' :: cs) :: rest => switch true cs rest
    | ('+' :: cs) :: rest => switch false cs rest
    | operands => pure { operands := operands }

/-- Switches the options that arguments begin with; `start` tells that a shell begins with them. -/
def switchOptions (start : Bool) (args : List Octets) : ShellM Switched :=
  switchAtMost start (args.length + 1) args

/-- Gives up the control of jobs, for which there is no terminal. -/
def dropJobControl : ShellM Unit := do
  let s ← get
  if s.has 'm' ∧ s.own = s.pid then
    ShellM.report (octets "can't access tty; job control turned off")
    modify fun s => s.setOption 'm' false

end ForeignCall.Script
