import ForeignCall.Tool.Process
import ForeignCall.Tool.Script.Arithmetic
import ForeignCall.Tool.Script.Source

/-!
# ForeignCall.Tool.Script.State

A script that is being run: its variables, parameters and functions, what it does on signals, and
the process that it runs in.

* `ShellM` — what a script does, and how it leaves the order of its commands.
-/

namespace ForeignCall.Script

open Text (Octets octets)

/-- A variable. It can be marked without having a value. -/
structure Variable where
  value : Option Octets
  exported : Bool := false
  fixed : Bool := false

/-- A function: the line where it begins, and its body. -/
structure Function where
  line : Nat
  body : Command

/-- Processes that have been started in the background. -/
structure Job where
  /-- The number by which they are called. -/
  number : Nat
  /-- The number of the last process. -/
  pid : Nat
  /-- How many processes there are. -/
  stages : Nat
  ending : Ending
  /-- Whether they have been waited for, so that their number can be given to others. -/
  waited : Bool := false

/-- A program that has been looked up. -/
structure Found where
  name : Octets
  path : Octets
  /-- Whether the directory has been changed since. -/
  stale : Bool := false

/-- A limit of what a process can use; without a number there is none. -/
structure Limit where
  letter : Char
  name : String
  /-- What it is counted in. -/
  factor : Nat := 1
  soft : Option Nat := none
  hard : Option Nat := none

/-- The limits of the first process. -/
def startLimits : List Limit :=
  [{ letter := 't', name := "time(seconds)" },
   { letter := 'f', name := "file(blocks)", factor := 512 },
   { letter := 'd', name := "data(kbytes)", factor := 1024 },
   { letter := 's', name := "stack(kbytes)", factor := 1024, soft := some (8192 * 1024) },
   { letter := 'c', name := "coredump(blocks)", factor := 512, soft := some 0 },
   { letter := 'm', name := "memory(kbytes)", factor := 1024 },
   { letter := 'l', name := "locked memory(kbytes)", factor := 1024
     soft := some (8192 * 1024), hard := some (8192 * 1024) },
   { letter := 'p', name := "process" },
   { letter := 'n', name := "nofiles", soft := some (2 ^ 20), hard := some (2 ^ 20) },
   { letter := 'v', name := "vmemory(kbytes)", factor := 1024 },
   { letter := 'w', name := "locks" },
   { letter := 'r', name := "rtprio", soft := some 0, hard := some 0 }]

/-- How a script leaves the order of its commands. -/
inductive Jump where
  /-- Leaves a number of loops. -/
  | break (loops : Nat)
  /-- Leaves all but one of a number of loops and goes on with it. -/
  | continue (loops : Nat)
  /-- Leaves a function. -/
  | return
  /-- Ends because of an error. -/
  | fail
  /-- Ends what is being done because of a signal. -/
  | interrupt
  | exit
  /-- The process is ended by a signal. -/
  | killed (signal : Nat)

/-- The number of the first process. -/
def firstPid : Nat := 1000

/-- A script that is being run. -/
structure State extends Process where
  /-- The name of the script. -/
  name : Octets
  params : List Octets := []
  bindings : List (Octets × Variable) := []
  functions : List (Octets × Function) := []
  aliases : List Alias := []
  /-- Names whose values as aliases are being read while commands in them run. -/
  held : List Octets := []
  /-- The letters of the options that are on. -/
  options : List Char := []
  /-- What is done on signals; zero stands for the end of the script. -/
  traps : List (Nat × Octets) := []
  /-- The texts that stand in the script for redirections. -/
  documents : Array Word := #[]
  /-- The status of the last command. -/
  status : Nat := 0
  /-- The status of the last output that has been put into a word. -/
  outputStatus : Nat := 0
  /-- The line of the command that is being run. -/
  line : Nat := 1
  /-- The line up to which the script has been read. -/
  reached : Nat := 1
  /-- Whether the end of what has been read last is taken for the end of the next commands, too. -/
  endAhead : Bool := false
  /-- Whether a command is being shown. -/
  tracing : Bool := false
  /-- The builtin that is being run. -/
  builtin : Option Octets := none
  /-- What local variables take the place of, the last frame first. -/
  frames : List (List (Octets × Option Variable)) := []
  /-- How many functions are being run. -/
  calls : Nat := 0
  /-- How many loops are being run. -/
  loops : Nat := 0
  /-- The number of the process, or in a subshell that of the shell that it comes from. -/
  pid : Nat := firstPid
  /-- The number of the process itself. -/
  own : Nat := firstPid
  /-- The number that the next process gets. -/
  nextPid : Nat := firstPid + 1
  /-- Processes that wait for this one. -/
  callers : List Nat := [firstPid - 1]
  /-- What has been started in the background, the last job first. -/
  jobs : List Job := []
  /-- The number of the process that has been started last in the background. -/
  lastPid : Option Nat := none
  /-- The programs that have been looked up. -/
  found : List Found := []
  limits : List Limit := startLimits
  /-- Signals that have come and have not been dealt with. -/
  pending : List Nat := []
  /-- Signals for other processes, which are named first. -/
  sent : List (Nat × Nat) := []
  /-- Signals that do nothing to the process and to those that it starts. -/
  ignored : List Nat := []
  /-- The status before the trap that is being run. -/
  beforeTrap : Option Nat := none
  /-- The mask for new files. -/
  mask : Nat := 0o22
  /-- The directory of the process by the name under which it has been entered. -/
  place : Octets := startDirectory
  /-- The number of the argument in which an option is looked for next. -/
  optionIndex : Nat := 1
  /-- How much of the argument before it has been read, if options are left in it. -/
  optionOffset : Option Nat := none

/-- What a script does. -/
abbrev ShellM := EStateM Jump State

/-- A text as a script that has not been read yet. -/
def State.source (s : State) (text : Octets) : Source :=
  .ofText text s.documents s.aliases s.held

/-! ## Options -/

/-- The letters of options with their names. -/
def optionNames : List (Char × String) :=
  [('e', "errexit"), ('f', "noglob"), ('I', "ignoreeof"), ('i', "interactive"), ('m', "monitor"),
   ('n', "noexec"), ('s', "stdin"), ('x', "xtrace"), ('v', "verbose"), ('V', "vi"), ('E', "emacs"),
   ('C', "noclobber"), ('a', "allexport"), ('b', "notify"), ('u', "nounset"), ('p', "privileged"),
   ('\x01', "nolog"), ('\x02', "debug")]

/-- Whether an option is on. -/
def State.has (s : State) (option : Char) : Bool := s.options.contains option

/-- The letters of the options that are on. -/
def State.optionText (s : State) : Octets :=
  ((optionNames.map (·.1)).filter fun c => ' ' < c && s.has c).reverse

/-- Switches an option. -/
def State.setOption (s : State) (option : Char) (on : Bool) : State :=
  let others := s.options.filter (· ≠ option)
  { s with options := if on then option :: others else others }

/-! ## Variables -/

/-- The variable of a name. -/
def State.find? (s : State) (name : Octets) : Option Variable := s.bindings.lookup name

/-- The value of a variable. -/
def State.value? (s : State) (name : Octets) : Option Octets :=
  (s.find? name).bind (·.value)

/-- Puts a variable in the place of another one, or of none. -/
def State.putVariable (s : State) (name : Octets) (v : Option Variable) : State :=
  let others := s.bindings.filter (·.1 ≠ name)
  { s with bindings := match v with
    | some v => (name, v) :: others
    | none => others }

/-- Forgets the programs that have been looked up, if they depend on a variable. -/
def State.forget (s : State) (name : Octets) : State :=
  if name = octets "PATH" then { s with found := [] } else s

/-- The variables that programs get. -/
def State.environment (s : State) : List (Octets × Octets) :=
  s.bindings.filterMap fun (name, v) =>
    if v.exported then v.value.map fun text => (name, text) else none

/-- The characters between which unquoted text is split into fields. -/
def State.separators (s : State) : Octets := (s.value? (octets "IFS")).getD [' ', '\t', '\n']

/-- What joins parameters into one text. -/
def State.joiner (s : State) : Octets :=
  match s.value? (octets "IFS") with
  | some text => text.take 1
  | none => [' ']

/-- Texts with another one between them. -/
def joinWith (joiner : Octets) (texts : List Octets) : Octets := joiner.intercalate texts

/-! ## Reports -/

namespace ShellM

/-- Writes a text to the output. It is an error of a builtin if there is none. -/
def say (text : Octets) : ShellM Bool := do
  let s ← get
  match s.toProcess.write 1 text with
  | .ok p => set { s with toProcess := p }; pure true
  | .error _ => pure false

/-- Writes a text to the output for errors. -/
def complain (text : Octets) : ShellM Unit :=
  modify fun s => { s with toProcess := s.toProcess.writeAny 2 text }

/-- Reports something, with the place where it has happened. -/
def report (text : Octets) : ShellM Unit := do
  let s ← get
  let command := match s.builtin with
    | some name => name ++ octets ": "
    | none => []
  complain (s.name ++ octets (": " ++ toString s.line ++ ": ") ++ command ++ text ++ ['\n'])

/-- Reports an error and ends the script. -/
def fail {α : Type} (text : Octets) : ShellM α := do
  report text
  modify fun s => { s with status := 2 }
  throw .fail

/-- Sets the status. -/
def setStatus (n : Nat) : ShellM Unit := modify fun s => { s with status := n }

/-- The number that a text is. -/
def number (text : Octets) : ShellM Nat :=
  match (decimalOf? text).filter fun n => 0 ≤ n ∧ n < 2 ^ 31 with
  | some n => pure n.toNat
  | none => fail (octets "Illegal number: " ++ text)

/-- Finds that a text is no name of a variable. -/
def requireName (name : Octets) : ShellM Unit := do
  unless isName name do fail (name ++ octets ": bad variable name")

/-- Lets a variable have a value. -/
def assign (name value : Octets) (exported : Bool) : ShellM Unit := do
  requireName name
  let s ← get
  let old := (s.find? name).getD ⟨none, false, false⟩
  if old.fixed then fail (name ++ octets ": is read only")
  else
    let v : Variable := { old with
      value := some value, exported := old.exported || exported || s.has 'a' }
    let s := (s.putVariable name v).forget name
    if name = octets "OPTIND" then
      let n ← number value
      set { s with optionIndex := max n 1, optionOffset := none }
    else set s

/-- Lets a name stand for no variable. -/
def unassign (name : Octets) : ShellM Unit := do
  requireName name
  let s ← get
  match s.find? name with
  | some v =>
    if v.fixed then fail (name ++ octets ": is read only")
    else set ((s.putVariable name none).forget name)
  | none => pure ()

/-- Keeps what a name stands for, until the innermost frame is left; a dash stands for the
options. -/
def keep (name : Octets) : ShellM Unit := modify fun s =>
  match s.frames with
  | frame :: frames =>
    let kept := if name = ['-'] then some { value := some s.options } else s.find? name
    if frame.any (·.1 = name) then s
    else { s with frames := ((name, kept) :: frame) :: frames }
  | [] => s

/-- Gives a name back what it has stood for. -/
def giveBack (s : State) (name : Octets) (kept : Option Variable) : State :=
  if name = ['-'] then { s with options := (kept.bind (·.value)).getD s.options }
  else (s.putVariable name kept).forget name

/-- Does something in a frame of its own. -/
def framed {α : Type} (act : ShellM α) : ShellM α := do
  modify fun s => { s with frames := [] :: s.frames }
  let leave : ShellM Unit := modify fun s =>
    let frame := s.frames.headD []
    let s := frame.foldl (fun s (name, kept) => giveBack s name kept) s
    { s with frames := s.frames.tail }
  let result ← tryCatch act fun e => do leave; throw e
  leave
  pure result

/-- Does something with a value in place, and puts the old one back. -/
def during {α β : Type} (save : State → β) (restore : β → State → State) (act : ShellM α) :
    ShellM α := do
  let old := save (← get)
  let result ← tryCatch act fun e => do modify (restore old); throw e
  modify (restore old)
  pure result

/-- Repeats a step as long as it gives something to go on with. -/
def repeatWhile {σ : Type} (step : σ → ShellM (Option σ)) : Nat → σ → ShellM Unit
  | 0, _ => pure ()
  | n + 1, x => fun s =>
    match step x s with
    | .ok (some x) s => repeatWhile step n x s
    | .ok none s => .ok () s
    | .error e s => .error e s

end ShellM

/-! ## Signals -/

/-- The names of signals, from the first on; some have only a number. -/
def signalNames : List String :=
  ["HUP", "INT", "QUIT", "ILL", "TRAP", "ABRT", "BUS", "FPE", "KILL", "USR1", "SEGV", "USR2",
   "PIPE", "ALRM", "TERM", "16", "CHLD", "CONT", "STOP", "TSTP", "TTIN", "TTOU", "URG", "XCPU",
   "XFSZ", "VTALRM", "PROF", "WINCH", "IO", "PWR", "SYS"]

/-- The texts for signals that have ended a program, from the first on. -/
def signalTexts : List String :=
  ["Hangup", "Interrupt", "Quit", "Illegal instruction", "Trace/breakpoint trap", "Aborted",
   "Bus error", "Floating point exception", "Killed", "User defined signal 1",
   "Segmentation fault", "User defined signal 2", "Broken pipe", "Alarm clock", "Terminated",
   "Stack fault", "Child exited", "Continued", "Stopped (signal)", "Stopped",
   "Stopped (tty input)", "Stopped (tty output)", "Urgent I/O condition",
   "CPU time limit exceeded", "File size limit exceeded", "Virtual timer expired",
   "Profiling timer expired", "Window changed", "I/O possible", "Power failure",
   "Bad system call"]

/-- The text for a signal that has ended a program. -/
def signalText (n : Nat) : String := signalTexts.getD (n - 1) ("Unknown signal " ++ toString n)

/-- The status that a process leaves. A signal that has ended it is reported, except for those that
say that nobody is listening. -/
def statusOf : Ending → ShellM Nat
  | .exit code => pure code
  | .signal n => do
    unless n = 2 ∨ n = 13 do ShellM.complain (octets (signalText n) ++ ['\n'])
    pure (128 + n)

/-- How many signals there are. -/
def signalCount : Nat := 64

/-- The name of a signal; zero stands for the end of a script. -/
def signalName (n : Nat) : Octets :=
  let after (base : String) (sign : String) (k : Nat) : Octets :=
    octets (if k = 0 then base else base ++ sign ++ toString k)
  if n = 0 then octets "EXIT"
  else if n < 34 then octets (signalNames.getD (n - 1) (toString n))
  else if n < 50 then after "RTMIN" "+" (n - 34)
  else after "RTMAX" "-" (signalCount - n)

/-- The number of a signal that is given by its name or number. -/
def signalOf? (text : Octets) : Option Nat :=
  if !text.isEmpty ∧ text.all Char.isDigit then
    ((String.ofList text).toNat?).filter (· ≤ signalCount)
  else
    (List.range (signalCount + 1)).find? fun n => signalName n = text.map Char.toUpper

/-- Whether a signal does nothing to a program that is not prepared for it. -/
def isHarmless (signal : Nat) : Bool := [0, 17, 18, 23, 28].contains signal

/-- A text as a shell reads it: between single quotes, except for its own single quotes, which stand
between double ones. -/
def quotedText (text : Octets) : Octets :=
  let parts := text.splitBy fun a b => (a = '\'') = (b = '\'')
  let quoted := parts.flatMap fun part =>
    if part.head? = some '\'' then '"' :: part ++ ['"'] else '\'' :: part ++ ['\'']
  if text.isEmpty ∨ text.head? = some '\'' then '\'' :: '\'' :: quoted else quoted

end ForeignCall.Script
