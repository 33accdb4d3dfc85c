import ForeignCall.Tool.Script.Builtin.Signals
import ForeignCall.Tool.Script.Grammar
import ForeignCall.Tool.Script.Redirection

/-!
# ForeignCall.Tool.Script.Child

Processes that a script starts. They work on copies of what the script has, but share with it the
streams that descriptors stand for, the files, and signals on their way.

* `runText` — runs the commands of a text;
* `runToEnd` — runs something up to the end of its process;
* `forked` — runs something in a copy of the script;
* `outputOf` — what a command writes.
-/

namespace ForeignCall.Script

open Text (Octets octets)

/-- How a command is run. -/
structure Manner where
  /-- Whether the script asks for its failure itself. -/
  tested : Bool := false
  /-- Whether its process ends with it, so that a program can take the place of the process. -/
  last : Bool := false

/-- A way to run commands. -/
abbrev Runner := Manner → Command → ShellM Unit

/-- The manner of a command that others follow. -/
def Manner.before (m : Manner) : Manner := { m with last := false }

/-! ## Texts -/

/-- The lines of a text, with the line feeds that end them. -/
def linesOf (text : Octets) : List Octets :=
  let pieces := Text.splitWhere (· = '\n') text
  (pieces.dropLast.map (· ++ ['\n']) ++ pieces.getLast?.toList).filter (!·.isEmpty)

/-- Texts in turn from two lists. -/
def inTurn : List Octets → List Octets → Octets
  | x :: xs, y :: ys => x ++ y ++ inTurn xs ys
  | xs, ys => xs.flatten ++ ys.flatten

/-- Reads the commands of the next line; `none` at the end. With `shown` the script may show its
lines as it reads them; `ask` makes what is written to ask for lines, of which the first one is
asked for in another way than those that have to follow it. -/
def readCommands (shown : Bool) (ask : Option (String → ShellM Octets)) (source : Source) :
    ShellM (Option (Command × Source)) := do
  let question (name : String) : ShellM Octets :=
    match ask with
    | some ask => ask name
    | none => pure []
  modify fun s => { s with endAhead := false }
  ShellM.complain (← question "PS1")
  let s ← get
  let source := { source with
    documents := s.documents, aliases := s.aliases, growth := growthOf s.aliases }
  let tell (lines : List Octets) (more : Nat) : ShellM Unit := do
    let questions ← (List.replicate (if ask.isSome then more else 0) "PS2").mapM question
    ShellM.complain (inTurn lines questions)
  let verbose := shown && s.has 'v'
  match source.nextCommand with
  | .error e =>
    let more := e.line - source.line - (if e.atLineEnd then 1 else 0)
    tell (if verbose then (linesOf source.unbegun).take (more + 1) else []) more
    modify fun s => { s with line := e.line }
    ShellM.fail (octets ("Syntax error: " ++ e.text))
  | .ok (command, next) =>
    let begun := if verbose then source.unbegun.length - next.unbegun.length else 0
    let more := next.line - source.line - (if next.atEnd then 0 else 1)
    tell (linesOf (source.unbegun.take begun)) more
    modify fun s => { s with
      documents := next.documents, aliases := next.aliases, held := next.inUse
      reached := next.line, endAhead := next.atEnd }
    pure (command.map fun c => (c, next))

/-- How many lines a text can have at most when aliases are replaced. -/
def maxLines : Nat := 10 ^ 9

/-- Runs the commands of a text, line by line. The status is that of the last one, or zero if there
is none. -/
def runText (run : Runner) (tested shown : Bool) (text : Octets) : ShellM Unit :=
  let step (x : Source × Bool) : ShellM (Option (Source × Bool)) := do
    let (source, ran) := x
    match ← readCommands shown none source with
    | none =>
      unless ran do ShellM.setStatus 0
      pure none
    | some (.nothing, next) => pure (some (next, ran))
    | some (command, next) =>
      run { tested := tested } command
      pure (some (next, true))
  ShellM.during (fun s => (s.reached, s.held))
    (fun (reached, held) s => { s with reached := reached, held := held }) do
      ShellM.repeatWhile step maxLines ((← get).source text, false)

/-! ## Ends of processes -/

/-- The status with which a process ends. -/
def State.exitCode (s : State) : Ending := .exit (s.status % 256)

/-- Ends a process: what is to be done at the end of the script is done. -/
def endProcess (run : Runner) (s : State) : Ending × State :=
  match (s.traps.lookup 0).filter (!·.isEmpty) with
  | none => (s.exitCode, s)
  | some action =>
    let last := { s with
      traps := s.traps.filter (·.1 ≠ 0), beforeTrap := some s.status, builtin := none }
    match runText run false false action last with
    | .error (.killed signal) s => (.signal signal, s)
    | .error .exit s | .error .fail s => (s.exitCode, s)
    | .ok _ after | .error _ after => (s.exitCode, after)

/-- Runs something to the end of its process. -/
def runToEnd (run : Runner) (act : ShellM Unit) (s : State) : Ending × State :=
  match act s with
  | .error (.killed signal) s => (.signal signal, s)
  | .ok _ s | .error _ s => endProcess run s

/-- Takes over what another process has done to what is shared. -/
def State.takeShared (s other : State) : State :=
  { s with
    streams := other.streams, files := other.files, cursors := other.cursors
    nextPid := other.nextPid, sent := other.sent }

/-! ## Subshells -/

/-- A copy of a script in a process of its own. Traps are not taken over, but signals that do
nothing are. -/
def State.subshell (s : State) : State :=
  { s with
    own := s.nextPid, nextPid := s.nextPid + 1, callers := s.own :: s.callers
    jobs := [], pending := [], reached := 1
    traps := s.traps.filter fun (_, action) => action.isEmpty }

/-- Runs something in a copy of the script that has been prepared for it. -/
def forked (run : Runner) (prepare : State → State) (act : ShellM Unit) : ShellM Ending := do
  let s ← get
  let (ending, after) := runToEnd run act (prepare s.subshell)
  set (s.takeShared after)
  collect
  pure ending

/-- The output of a command. Where there is no command, nothing is run. -/
def outputOf (run : Runner) (body : Command) : ShellM Octets := do
  if let .nothing := body then return []
  let _ ← beginJob
  let (index, p) := (← get).toProcess.newStream []
  modify fun s => { s with toProcess := p }
  let redirect (s : State) : State :=
    { s with toProcess := s.toProcess.setHandle 1 (some (.target index)) }
  let status ← statusOf (← forked run redirect (run { last := true } body))
  let text := (← get).streamText index
  modify fun s => { s with
    toProcess := s.toProcess.modifyStream index fun _ => {}, outputStatus := status }
  pure (text.filter (· ≠ '\x00'))

end ForeignCall.Script
