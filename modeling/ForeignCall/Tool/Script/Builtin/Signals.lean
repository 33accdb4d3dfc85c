import ForeignCall.Tool.Script.Builtin.Jobs

/-!
# ForeignCall.Tool.Script.Builtin.Signals

What a signal does to a script, and the builtins that send signals and say what is done on them.

* `receive` — what becomes of a script that gets a signal.
-/

namespace ForeignCall.Script

open Text (Octets octets)

/-- Gets a signal: the script is ended, or what is to be done comes later, or nothing happens. A
script that talks to somebody is not ended by a signal from there. -/
def receive (signal : Nat) : ShellM Unit := do
  let s ← get
  if signal = 9 then throw (.killed signal)
  else if s.ignored.contains signal then pure ()
  else
    match s.traps.lookup signal with
    | some action =>
      unless action.isEmpty ∨ s.pending.contains signal do
        set { s with pending := signal :: s.pending }
    | none =>
      if s.has 'i' ∧ s.own = s.pid ∧ [2, 3, 15].contains signal then
        if signal = 2 then throw .interrupt
      else unless isHarmless signal do throw (.killed signal)

/-- Gets the signals that other processes have sent. -/
def collect : ShellM Unit := do
  let s ← get
  unless s.sent.isEmpty do
    let (mine, others) := s.sent.partition (·.1 = s.own)
    set { s with sent := others }
    mine.reverse.forM fun (_, signal) => receive signal

/-! ## Sending signals -/

/-- What the arguments of `kill` ask for. -/
inductive KillRequest where
  | list (operands : List Octets)
  | send (signal : Nat) (targets : List Octets)

/-- How `kill` is used. -/
def killUsage : String :=
  "Usage: kill [-s sigspec | -signum | -sigspec] [pid | job]... or\nkill -l [exitstatus]"

/-- What arguments of `kill` ask for. -/
def killRequest (args : List Octets) : ShellM KillRequest := do
  let usage (request : KillRequest) : ShellM KillRequest :=
    match request with
    | .send _ [] => ShellM.fail (octets killUsage)
    | request => pure request
  let byName (name : Octets) : Option Nat := (signalOf? name).filter fun n =>
    n ≠ 0 || name.all Char.isDigit
  match args with
  | ('-' :: text) :: rest =>
    match byName text with
    | some signal => usage (.send signal rest)
    | none =>
      let (options, operands) ← readOptions (octets "ls:") args
      let signal ← options.foldlM (fun (signal : Option Nat) (c, text) =>
        if c = 's' then
          match byName text with
          | some n => pure (some n)
          | none => ShellM.fail (octets "invalid signal number or name: " ++ text)
        else pure signal) none
      if options.any (·.1 = 'l') then
        if signal.isSome then ShellM.fail (octets killUsage) else pure (.list operands)
      else usage (.send (signal.getD 15) operands)
  | targets => usage (.send 15 targets)

/-- Sends a signal; gives whether there is a process that gets it. -/
def sendSignal (signal : Nat) (target : Octets) : ShellM Bool := do
  let s ← get
  let group := target.head? = some '-' ∨ target.head? = some '%'
  let named ← match target with
    | '%' :: _ => (·.pid) <$> jobOf (some target)
    | '-' :: digits => ShellM.number digits
    | digits => ShellM.number digits
  let pid := if named = 0 then s.pid else named
  let other := !group && s.callers.contains pid
  if pid = s.own then
    unless signal = 0 do receive signal
    pure true
  else if named = 0 ∨ other then
    unless signal = 0 do set { s with sent := (pid, signal) :: s.sent }
    pure true
  else pure (!group && s.jobs.any fun x => x.pid = pid && !x.waited)

/-- Sends signals, or tells their names. -/
def killArgs : Builtin := fun args => do
  match ← killRequest args with
  | .list [] =>
    let names := (List.range signalCount).map fun n => signalName (n + 1)
    pure (0, (['0'] :: names).flatMap (· ++ ['\n']))
  | .list (text :: _) =>
    let n ← ShellM.number text
    let signal := if 128 < n then n - 128 else n
    if 0 < signal ∧ signal ≤ signalCount then pure (0, signalName signal ++ ['\n'])
    else ShellM.fail (octets "invalid signal number or exit status: " ++ text)
  | .send signal targets =>
    let failed ← targets.foldlM (fun (failed : Bool) target => do
      if ← sendSignal signal target then pure failed
      else
        ShellM.report (octets "No such process\n")
        pure true) false
    pure (if failed then 1 else 0, [])

/-! ## Traps -/

/-- Sets what is done on a signal. -/
def setTrap (signal : Nat) (action : Option Octets) : ShellM Unit := modify fun s =>
  let others := s.traps.filter (·.1 ≠ signal)
  { s with traps := match action with
    | some action => (signal, action) :: others
    | none => others }

/-- Sets what is done on signals, up to one that does not exist. -/
def setTraps (action : Option Octets) : List Octets → ShellM Nat
  | [] => pure 0
  | name :: rest => do
    match signalOf? name with
    | some signal => setTrap signal action; setTraps action rest
    | none => ShellM.complain (octets "trap: " ++ name ++ octets ": bad trap\n"); pure 1

/-- Shows or sets what is done on signals. -/
def trapArgs : Builtin := fun args => do
  let (_, operands) ← readOptions [] args
  match operands with
  | [] =>
    let sorted := (← get).traps.mergeSort fun a b => a.1 ≤ b.1
    pure (0, sorted.flatMap fun (signal, action) =>
      octets "trap -- " ++ quotedText action ++ ' ' :: signalName signal ++ ['\n'])
  | [name] => pure (← setTraps none [name], [])
  | first :: rest =>
    let digits := !first.isEmpty ∧ first.all Char.isDigit
    if digits ∧ (signalOf? first).isSome then pure (← setTraps none operands, [])
    else pure (← setTraps (if first = ['-'] then none else some first) rest, [])

end ForeignCall.Script
