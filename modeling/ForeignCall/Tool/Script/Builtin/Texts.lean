import ForeignCall.Tool.Script.Builtin.Options
import ForeignCall.Tool.Script.Condition
import ForeignCall.Tool.Script.Fields
import ForeignCall.Tool.Script.Format

/-!
# ForeignCall.Tool.Script.Builtin.Texts

Builtins that write and read texts, and the one that evaluates conditions.

* `readLine` — the next line of a text, with the backslashes that are read as such.
-/

namespace ForeignCall.Script

open Text (Octets octets)

/-- Writes arguments with blanks between them. -/
def echoArgs : Builtin
  | ['-', 'n'] :: rest => pure (0, echoText false rest)
  | args => pure (0, echoText true args)

/-- Writes arguments in a format. -/
def formatArgs : Builtin := fun args => do
  let (_, operands) ← readOptions [] args
  match operands with
  | [] => ShellM.fail (octets "usage: printf format [arg ...]")
  | format :: args =>
    let (text, warnings, failure) := printFormat format args
    warnings.forM ShellM.report
    match failure with
    | none => pure (if warnings.isEmpty then 0 else 1, text)
    | some reason =>
      try ShellM.fail reason
      catch e =>
        let _ ← ShellM.say text
        throw e

/-! ## Conditions -/

/-- The letters of what a file can be asked for, if it is there. -/
def fileTraits : Node → List Char
  | .directory => "edrwxsOG".toList
  | .plain _ => "efrwOG".toList
  | .program _ => "efrwxsOG".toList
  | .null | .full | .terminal => "ecrwOG".toList
  | .descriptor _ => "erwOG".toList
  | .absent _ => []

/-- Whether a file is what a letter asks for. -/
def State.isFile (s : State) (letter : Char) (path : Octets) : Bool :=
  if letter = 'h' ∨ letter = 'L' then s.files.isLink s.directory path
  else
    match s.files.node s.directory path with
    | .error _ => false
    | .ok (.descriptor n) =>
      match s.medium? n with
      | some (.stream _) => "eprwOG".toList.contains letter
      | some (.file path _ _) => (fileTraits (.plain path)).contains letter
      | some .directory => (fileTraits .directory).contains letter
      | some .null | some .full => (fileTraits .null).contains letter
      | none => false
    | .ok node =>
      let filled := match node with
        | .plain path => plainFiles.contains (String.ofList path) || !(s.files.content path).isEmpty
        | _ => false
      (fileTraits node).contains letter || (letter = 's' && filled)

/-- Whether two paths lead to the same place. -/
def State.isSame (s : State) (a b : Octets) : Bool :=
  match s.files.locate s.directory a, s.files.locate s.directory b with
  | .ok (.absent _, _), _ => false
  | .ok (_, a), .ok (_, b) => a = b
  | _, _ => false

/-- Tells whether the condition of arguments holds. -/
def testOf (args : List Octets) : ShellM (Nat × Octets) := do
  let s ← get
  match testArgs ⟨s.isFile, s.isSame⟩ args with
  | .ok true => pure (0, [])
  | .ok false => pure (1, [])
  | .error e => ShellM.fail e

/-- Tells whether the condition up to a last argument that begins with a bracket holds. -/
def bracketTest : Builtin := fun args =>
  if (args.getLast?.bind (·.head?)) = some ']' then testOf args.dropLast
  else ShellM.fail (octets "missing ]")

/-! ## Lines -/

/-- A line that is being read, the last character first. -/
def readLineFrom (raw : Bool) (read : Line) : Octets → Line × Bool × Octets
  | [] => (read.reverse, false, [])
  | [c] =>
    if c = '\n' then (read.reverse, true, [])
    else if c = '\x00' ∨ (c = '\\' ∧ !raw) then (read.reverse, false, [])
    else (((c, false) :: read).reverse, false, [])
  | c :: d :: rest =>
    if c = '\n' then (read.reverse, true, d :: rest)
    else if c = '\x00' then readLineFrom raw read (d :: rest)
    else if c = '\\' ∧ !raw then
      if d = '\n' then readLineFrom raw read rest else readLineFrom raw ((d, true) :: read) rest
    else readLineFrom raw ((c, false) :: read) (d :: rest)

/-- The next line of a text, whether it is complete, and what follows it. A backslash takes the
meaning of the character behind it, and joins the next line, unless the text is read `raw`. -/
def readLine (raw : Bool) (text : Octets) : Line × Bool × Octets := readLineFrom raw [] text

/-- Reads a line into variables. -/
def readArgs : Builtin := silent fun args => do
  let (options, names) ← readOptions (octets "p:r") args
  if names.isEmpty then ShellM.fail (octets "arg count")
  let s ← get
  let raw := options.any (·.1 = 'r')
  let (line, complete) ← match s.toProcess.read 0 with
    | .ok (text, p) =>
      let (line, complete, rest) := readLine raw text
      set { s with toProcess := p.giveBack 0 rest }
      pure (line, complete)
    | .error _ => pure ([], false)
  let fields := lineFields s.separators names.length line
  (names.zip fields).forM fun (name, value) => ShellM.assign name value false
  pure (if complete then 0 else 1)

end ForeignCall.Script
