import ForeignCall.Tool.Script.Builtin.Aliases
import ForeignCall.Tool.Script.Builtin.Limits
import ForeignCall.Tool.Script.Builtin.Places
import ForeignCall.Tool.Script.Builtin.Texts
import ForeignCall.Tool.Script.Builtin.Variables
import ForeignCall.Tool.Script.Launch

/-!
# ForeignCall.Tool.Script.Run

What commands do. A simple command is expanded, redirected, given its variables, and then run: it is
a special builtin, a function, another builtin or a program, whichever is found first.

* `runCommand` — runs a command;
* `runProgram` — runs a program in a process.
-/

namespace ForeignCall.Script

open Text (Octets octets)

/-! ## Traps and failures -/

/-- Does what is to be done on the signals that have come; the status stays. -/
def deliver (run : Runner) : ShellM Unit := do
  let s ← get
  unless s.pending.isEmpty do
    let status := s.beforeTrap.getD s.status
    set { s with pending := [], beforeTrap := some status }
    (s.pending.mergeSort fun a b => a ≤ b).forM fun signal => do
      match (← get).traps.lookup signal with
      | some action =>
        runText run false false action
        ShellM.setStatus status
      | none => pure ()
    modify fun t => { t with beforeTrap := s.beforeTrap }

/-- Does something after which the script ends if it fails and is to end then. -/
def checked (tested : Bool) (act : ShellM Unit) : ShellM Unit := do
  let check : ShellM Unit := do
    let s ← get
    if s.has 'e' && !tested && s.status ≠ 0 then throw .exit
  tryCatch act fun e => do
    match e with
    | .break _ | .continue _ | .return => check
    | _ => pure ()
    throw e
  check

/-! ## What a simple command runs -/

/-- A command with its arguments. -/
structure Invocation where
  fields : List Octets
  /-- Whether functions are passed over. -/
  direct : Bool := false
  /-- Whether programs are looked up in the usual directories. -/
  standard : Bool := false

/-- The command among the arguments of `command`, and whether it is looked up in the usual
directories; `none` if nothing is to be run. -/
def commandOperands : List Octets → Option (Bool × List Octets)
  | [] | [['-', '-']] => none
  | ['-', '-'] :: rest => some (false, rest)
  | ('-' :: c :: cs) :: rest =>
    if (c :: cs).all (· = 'p') then (commandOperands rest).map fun (_, fields) => (true, fields)
    else none
  | fields => some (false, fields)

/-- The command that fields make up, behind so many `command`s at most. -/
def Invocation.resolved (isFunction : Octets → Bool) : Nat → Invocation → Invocation
  | 0, x => x
  | n + 1, x =>
    match x.fields with
    | name :: args =>
      if name = octets "command" ∧ (x.direct ∨ !isFunction name) then
        match commandOperands args with
        | some (standard, fields) =>
          resolved isFunction n ⟨fields, true, x.standard || standard⟩
        | none => x
      else x
    | [] => x

/-- The command that fields make up. -/
def State.invocation (s : State) (fields : List Octets) : Invocation :=
  Invocation.resolved (fun name => (s.functions.lookup name).isSome) fields.length
    ⟨fields, false, false⟩

/-- Whether the arguments of a command that begins with fields set variables. -/
def State.declares (s : State) (fields : List Octets) : Bool :=
  let x := s.invocation fields
  let name := x.fields.headD []
  ["export", "readonly", "local", "alias"].contains (String.ofList name) &&
    (x.direct || (s.functions.lookup name).isNone)

/-- The fields of the words of a command. -/
def commandFields (output : Expander) (words : List Word) : ShellM (List Octets) :=
  words.foldlM (fun fields w => do
    match if (← get).declares fields then assignment? w else none with
    | some (name, value) =>
      pure (fields ++ [name ++ '=' :: (← Expander.assignedText output value)])
    | none => pure (fields ++ (← Expander.wordFields output w))) []

/-! ## Builtins -/

/-- Leaves loops. -/
def leaveLoops (jump : Nat → Jump) : Builtin := silent fun args => do
  let n ← match args with
    | [] => pure 1
    | text :: _ => do
      let n ← ShellM.number text
      if n = 0 then ShellM.fail (octets "Illegal number: " ++ text)
      pure n
  let loops := min n (← get).loops
  if loops = 0 then pure 0
  else
    ShellM.setStatus 0
    throw (jump loops)

/-- Ends the script. -/
def exitArgs : Builtin := silent fun args => do
  let s ← get
  let status ← match args with
    | [] => pure (s.beforeTrap.getD s.status)
    | text :: _ => ShellM.number text
  ShellM.setStatus status
  throw .exit

/-- Leaves a function or a text that is being run. -/
def returnArgs : Builtin := silent fun args => do
  let status ← match args with
    | [] => pure (← get).status
    | text :: _ => ShellM.number text
  ShellM.setStatus status
  throw .return

/-- A text in a script's file, which is looked up like a program. -/
def sourcePath (name : Octets) : ShellM Octets := do
  let s ← get
  let isText (path : Octets) : Bool := match s.toProcess.node path with
    | .ok (.plain _) => true
    | _ => false
  if name.contains '/' then pure name
  else
    let paths := s.searchPlaces.map fun place =>
      if place.isEmpty then name else place ++ '/' :: name
    match paths.find? isText with
    | some path => pure path
    | none => ShellM.fail (name ++ octets ": not found")

/-- Runs the commands of a file. -/
def sourceArgs (run : Runner) : Builtin := silent fun args => do
  let (_, operands) ← readOptions [] args
  match operands with
  | [] => pure 0
  | name :: _ =>
    let path ← sourcePath name
    let text ← fileText path
    modify fun s => { s with builtin := some path }
    tryCatch (runText run false true text) fun
      | .return => pure ()
      | e => throw e
    pure (← get).status

/-- Runs arguments as commands. -/
def evalArgs (run : Runner) (tested : Bool) : Builtin := silent fun args => do
  runText run tested false (joinWith [' '] args)
  pure (← get).status

/-- The program of arguments, or the status that tells why there is none. -/
def programOf (standard : Bool) (args : List Octets) : ShellM (String ⊕ Nat) := do
  let name := args.headD []
  let found ← searchProgram standard name
  let tooLong := args.any fun arg => maxArgument < arg.length
  match if tooLong then .error .tooManyArguments else found with
  | .ok (_, program) => pure (.inl program)
  | .error e =>
    let absent := e = .missing ∨ e = .notDirectory
    ShellM.report (name ++ octets (": " ++ if absent then "not found" else e.text))
    pure (.inr (if absent ∨ e = .nameTooLong ∨ !name.contains '/' then 127 else 126))

/-- Lets a program take the place of the script. -/
def replaceBy {α : Type} (run : Runner) (program : String) (args : List Octets) : ShellM α := do
  match ← launch run true program args with
  | .signal n => throw (.killed n)
  | .exit status =>
    modify fun s => { s with status := status, traps := [] }
    throw .exit

/-- Runs a program in place of the script, if there are arguments. -/
def execArgs (run : Runner) : Builtin := silent fun args => do
  if args.isEmpty then pure 0
  else
    match ← programOf false args with
    | .inr status =>
      ShellM.setStatus status
      throw .exit
    | .inl program => replaceBy run program args

/-- What a builtin does. -/
def builtin? (run : Runner) (tested : Bool) (name : Octets) : Option Builtin :=
  let nothing (status : Nat) : Builtin := fun _ => pure (status, [])
  match String.ofList name with
  | "." => some (sourceArgs run)
  | ":" | "true" => some (nothing 0)
  | "false" => some (nothing 1)
  | "[" => some bracketTest
  | "alias" => some aliasArgs
  | "bg" | "fg" => some continueJob
  | "break" => some (leaveLoops .break)
  | "cd" | "chdir" => some changeDirectory
  | "command" => some describeArgs
  | "continue" => some (leaveLoops .continue)
  | "echo" => some echoArgs
  | "eval" => some (evalArgs run tested)
  | "exec" => some (execArgs run)
  | "exit" => some exitArgs
  | "export" => some (markArgs (·.exported) fun v => { v with exported := true })
  | "getopts" => some getOptions
  | "hash" => some lookUp
  | "jobs" => some listJobs
  | "kill" => some killArgs
  | "local" => some localArgs
  | "printf" => some formatArgs
  | "pwd" => some showDirectory
  | "read" => some readArgs
  | "readonly" => some (markArgs (·.fixed) fun v => { v with fixed := true })
  | "return" => some returnArgs
  | "set" => some setArgs
  | "shift" => some shiftParams
  | "test" => some testOf
  | "times" => some fun _ =>
    let line := "0m0.000000s 0m0.000000s\n"
    pure (0, octets (line ++ line))
  | "trap" => some trapArgs
  | "type" => some typeArgs
  | "ulimit" => some limitArgs
  | "umask" => some maskArgs
  | "unalias" => some unaliasArgs
  | "unset" => some unsetArgs
  | "wait" => some waitArgs
  | _ => none

/-- Runs a builtin. An error ends the script only if the builtin is special. -/
def runBuiltin (special : Bool) (name : Octets) (act : Builtin) (args : List Octets) :
    ShellM Unit := do
  let whole : ShellM Unit := do
    modify fun s => { s with builtin := some name }
    let (status, text) ← act args
    if ← ShellM.say text then ShellM.setStatus status
    else
      ShellM.report (name ++ octets ": I/O error")
      ShellM.setStatus (status ||| 1)
  tryCatch (ShellM.during (·.builtin) (fun b s => { s with builtin := b }) whole) fun
    | .fail => if special then throw .fail else pure ()
    | e => throw e

/-! ## Simple commands -/

/-- How many functions can be run within each other. -/
def maxCalls : Nat := 1000

/-- Runs a function with arguments. -/
def runFunction (run : Runner) (tested : Bool) (f : Function) (args : List Octets) :
    ShellM Unit := do
  let restore (old s : State) : State :=
    { s with
      params := old.params, calls := old.calls, loops := old.loops
      optionIndex := old.optionIndex, optionOffset := old.optionOffset }
  if (← get).calls = maxCalls then
    ShellM.fail (octets ("Maximum function recursion depth (" ++ toString maxCalls ++ ") reached"))
  ShellM.during id restore do
    modify fun s => { s with
      params := args, calls := s.calls + 1, loops := 0, optionIndex := 1, optionOffset := none }
    tryCatch (run { tested := tested } f.body) fun
      | .return => pure ()
      | e => throw e

/-- Whether a script has nothing to do but to run one more command. -/
def State.canBeReplaced (s : State) (m : Manner) : Bool :=
  m.last && s.traps.all fun (_, action) => action.isEmpty

/-- Runs a program in a process of its own, or in place of a script that has nothing else to do. -/
def runExternal (run : Runner) (m : Manner) (standard : Bool) (args : List Octets) :
    ShellM Unit := do
  match ← programOf standard args with
  | .inr status => ShellM.setStatus status
  | .inl program =>
    if (← get).canBeReplaced m then replaceBy run program args
    else
      let _ ← beginJob
      ShellM.setStatus (← statusOf (← launch run false program args))

/-- Runs what fields make up. Without fields the status is that of the last output that has been put
into a word. -/
def runInvocation (run : Runner) (m : Manner) (special : Bool) (x : Invocation) :
    ShellM Unit := do
  let s ← get
  match x.fields with
  | [] => ShellM.setStatus s.outputStatus
  | name :: args =>
    match if x.direct then none else s.functions.lookup name with
    | some f => runFunction run m.tested f args
    | none =>
      match builtin? run m.tested name with
      | some act => runBuiltin special name act args
      | none => runExternal run m x.standard (name :: args)

/-- Shows a command before it is run. -/
def trace (output : Expander) (errors : Option Handle) (fields : List Octets) : ShellM Unit := do
  let s ← get
  if s.has 'x' && !s.tracing then
    set { s with tracing := true }
    let start ← expandedText output ((s.value? (octets "PS4")).getD [])
    modify fun s => { s with tracing := false }
    let line := start ++ joinWith [' '] fields ++ ['\n']
    match errors with
    | some h => modify fun s =>
      { s with toProcess := (s.toProcess.writeHandle line h).toOption.getD s.toProcess }
    | none => pure ()

/-- Gives a command its variables, which are its own or those of the script, and shows and
runs it. -/
def runPrepared (run : Runner) (output : Expander) (m : Manner) (special ownVariables : Bool)
    (errors : Option Handle) (assignments : List (Octets × Word)) (fields : List Octets)
    (x : Invocation) : ShellM Unit := do
  let exported := ownVariables || (x.fields.headD [] = octets "exec" && 1 < x.fields.length)
  let shown ← assignments.mapM fun (name, w) => do
    let value ← Expander.assignedText output w
    if ownVariables then ShellM.keep name
    ShellM.assign name value exported
    pure (name ++ '=' :: value)
  trace output errors (shown ++ fields)
  runInvocation run m special x

/-- Runs a simple command. -/
def runSimple (run : Runner) (m : Manner) (assignments : List (Octets × Word))
    (words : List Word) (redirects : List Redirect) : ShellM Unit := do
  let output := outputOf run
  modify fun s => { s with outputStatus := 0 }
  let fields ← commandFields output words
  let openings ← expandRedirects output redirects
  let s ← get
  let x := s.invocation fields
  let name := String.ofList (x.fields.headD [])
  let found := x.direct ∨ (s.functions.lookup (x.fields.headD [])).isNone
  let special := decide found && !x.direct && specialBuiltins.contains name
  let stay := decide found && name == "exec"
  let ownVariables := !special && !fields.isEmpty
  let prepared := withOpenings output openings stay
    (runPrepared run output m special ownVariables (s.handle? 2) assignments fields x)
  unless ← if ownVariables then ShellM.framed prepared else prepared do
    ShellM.setStatus 2
    if special then throw .fail

/-! ## Commands that join others -/

/-- How a pass through a loop has ended. -/
inductive Pass where
  | finished | again | left
deriving DecidableEq

/-- Does something in a loop, and tells how the pass goes on. -/
def inLoop (act : ShellM Unit) : ShellM Pass :=
  tryCatch (do act; pure .finished) fun
    | .break n => if n ≤ 1 then pure .left else throw (.break (n - 1))
    | .continue n => if n ≤ 1 then pure .again else throw (.continue (n - 1))
    | e => throw e

/-- Counts a loop while it is being run. -/
def asLoop (act : ShellM Unit) : ShellM Unit :=
  ShellM.during (·.loops) (fun n s => { s with loops := n }) do
    modify fun s => { s with loops := s.loops + 1 }
    act

/-- How often a loop is run at most. -/
def maxPasses : Nat := 10 ^ 6

/-- Runs a body while a test ends with success, or until it does. -/
def runLoop (run : Runner) (tested untilSuccess : Bool) (test body : Command) : ShellM Unit :=
  asLoop (ShellM.repeatWhile (fun (status : Nat) => do
    match ← inLoop (run { tested := true } test) with
    | .left => ShellM.setStatus status; pure none
    | .again => pure (some status)
    | .finished =>
      let success := (← get).status = 0
      if success = untilSuccess then ShellM.setStatus status; pure none
      else
        let pass ← inLoop (run { tested := tested } body)
        let status := (← get).status
        pure (if pass = .left then none else some status)) maxPasses 0)

/-- Runs a body for texts, one after the other. -/
def runEach (run : Runner) (tested : Bool) (name : Octets) (body : Command) :
    List Octets → ShellM Unit
  | [] => pure ()
  | text :: rest => do
    ShellM.assign name text false
    match ← inLoop (run { tested := tested } body) with
    | .left => pure ()
    | _ => runEach run tested name body rest

/-- The first branch that has a pattern which accepts a text. -/
def branchFor (output : Expander) (text : Octets) : List Branch → ShellM (Option Command)
  | [] => pure none
  | .mk patterns body :: rest => do
    if ← accepted patterns then pure (some body) else branchFor output text rest
where
  /-- Whether one of the patterns accepts the text. -/
  accepted : List Word → ShellM Bool
    | [] => pure false
    | p :: ps => do
      if (← Expander.pattern output p).accepts text then pure true else accepted ps

/-- Lets a process read from one stream and write to another. -/
def connect (source target : Option Nat) (s : State) : State :=
  let p := match source with
    | some i => s.toProcess.setHandle 0 (some (.source i))
    | none => s.toProcess
  let p := match target with
    | some i => p.setHandle 1 (some (.target i))
    | none => p
  { s with toProcess := p }

/-- Runs commands one after the other, each of which reads what the one before it has written. -/
def runStages (run : Runner) (tested : Bool) (source : Option Nat) : List Command → ShellM Unit
  | [] => pure ()
  | [last] => do
    let act := run { tested := tested, last := true } last
    ShellM.setStatus (← statusOf (← forked run (connect source none) act))
  | stage :: rest => do
    let (target, p) := (← get).toProcess.newStream []
    modify fun s => { s with toProcess := p }
    let act := run { tested := tested, last := true } stage
    let _ ← statusOf (← forked run (connect source (some target)) act)
    runStages run tested (some target) rest

/-- The commands that come one after the other, in front of others. -/
def sequence (rest : List Command) : Command → List Command
  | .join .always first second => sequence (second :: rest) first
  | c => c :: rest

/-- Runs commands one after the other. -/
def runInOrder (run : Runner) (m : Manner) : List Command → ShellM Unit
  | [] => pure ()
  | [last] => run m last
  | c :: rest => do
    run m.before c
    runInOrder run m rest

/-- Looks up the programs of stages, so that the shell itself remembers them. -/
def prepareStages (stages : List Command) : ShellM Unit := stages.forM fun
  | .simple _ _ (w :: _) _ => do
    match (plainText? w).filter isName with
    | some name => do
      let known := specialBuiltins ++ plainBuiltins
      let isFunction := ((← get).functions.lookup name).isSome
      unless isFunction ∨ known.contains (String.ofList name) do
        let _ ← searchProgram false name
    | none => pure ()
  | _ => pure ()

/-- Sets the line of a command. -/
def atLine (line : Nat) : ShellM Unit := modify fun s => { s with line := line }

/-- Runs a command, with a way to run its parts. -/
def runWith (run : Runner) (m : Manner) : Command → ShellM Unit
  | .nothing => pure ()
  | .simple line assignments words redirects =>
    checked m.tested do
      atLine line
      runSimple run m assignments words redirects
  | .pipeline stages =>
    checked m.tested do
      prepareStages stages
      let _ ← beginJob
      runStages run m.tested none stages
  | .negation body => do
    run { tested := true } body
    modify fun s => { s with status := if s.status = 0 then 1 else 0 }
  | .join .always first second => runInOrder run m (sequence [second] first)
  | .join .success first second => do
    run { tested := true } first
    if (← get).status = 0 then run m second
  | .join .failure first second => do
    run { tested := true } first
    unless (← get).status = 0 do run m second
  | .background line body => do
    atLine line
    let pid := (← get).nextPid
    let number ← beginJob
    let silent (s : State) : State :=
      { s with
        toProcess := s.toProcess.setHandle 0 (some ⟨.null, true, false⟩)
        ignored := 2 :: 3 :: s.ignored }
    let stages := match body with
      | .pipeline stages => stages.length
      | _ => 1
    let ending ← forked run silent (run { last := true } body)
    modify fun s => { s with
      jobs := ⟨number, pid, stages, ending, false⟩ :: s.jobs, lastPid := some pid, status := 0 }
  | .subshell line body redirects =>
    checked m.tested do
      atLine line
      let openings ← expandRedirects (outputOf run) redirects
      let inside : ShellM Unit := do
        openAll (outputOf run) openings
        run { m with last := true } body
      if (← get).canBeReplaced m then
        inside
        throw .exit
      let _ ← beginJob
      ShellM.setStatus (← statusOf (← forked run id inside))
  | .redirected line body redirects => do
    atLine line
    let openings ← expandRedirects (outputOf run) redirects
    unless ← withOpenings (outputOf run) openings false (run m.before body) do
      checked m.tested (ShellM.setStatus 2)
  | .cond test yes no => do
    run { tested := true } test
    if (← get).status = 0 then run m yes
    else
      match no with
      | .nothing => ShellM.setStatus 0
      | no => run m no
  | .loop untilSuccess test body => runLoop run m.tested untilSuccess test body
  | .each line name words body => do
    atLine line
    let texts ← Expander.fields (outputOf run) words
    if texts.isEmpty then ShellM.setStatus 0
    else asLoop (runEach run m.tested name body texts)
  | .select line subject branches => do
    atLine line
    let text ← Expander.text (outputOf run) subject
    match ← branchFor (outputOf run) text branches with
    | some .nothing | none => ShellM.setStatus 0
    | some body => run m body
  | .function line name body => do
    modify fun s => { s with
      functions := (name, ⟨line, body⟩) :: s.functions.filter (·.1 ≠ name)
      found := s.found.filter (·.name ≠ name), status := 0 }

/-- Runs a command, and before and after it what is to be done on signals. -/
def runDelivering (run : Runner) : Runner := fun m command => do
  unless (← get).has 'n' do
    deliver run
    runWith run m command
    deliver run

/-- How deep commands can lie in each other, with functions and programs in the place of what they
run. -/
def maxDepth : Nat := 10000

/-- Runs a command, with a bound on how deep commands lie in each other. A script that goes deeper
is ended as by an access to memory that it has not got. -/
def runCommand : Nat → Runner
  | 0 => fun _ _ => throw (.killed 11)
  | depth + 1 => runDelivering (runCommand depth)

/-- Runs a program with arguments, of which the first is its name. -/
def runProgram (program : String) (args : List Octets) (environment : List (Octets × Octets))
    (p : Process) : Ending × Process :=
  let s := State.start p environment firstPid [firstPid - 1]
  match launch (runCommand maxDepth) true program args s with
  | .ok ending s => (ending, s.toProcess)
  | .error _ s => (.exit 2, s.toProcess)

end ForeignCall.Script
