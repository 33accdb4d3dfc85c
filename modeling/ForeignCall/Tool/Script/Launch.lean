import ForeignCall.Tool.Script.Child

/-!
# ForeignCall.Tool.Script.Launch

How programs begin. A shell gets its variables, switches the options that its arguments name, and
runs a script that stands in an argument, in a file or in the input. With the option `i` it talks to
somebody: it asks for each line, and an error does not end it.

* `runLines` — runs the commands of the text that a shell reads;
* `runArgs` — runs a shell with arguments;
* `launch` — runs a program.
-/

namespace ForeignCall.Script

open Text (Octets octets)

/-! ## Dialogs -/

/-- A text with what its parameters and commands stand for, or as it is if something is wrong with
it. -/
def expandedText (output : Expander) (text : Octets) : ShellM Octets := do
  let s ← get
  let ahead := if s.endAhead then some Token.endOfText else none
  match { s.source text with ahead := ahead }.wholeWord with
  | .error e =>
    set { s with line := e.line, status := 2, endAhead := false }
    ShellM.report (octets ("Syntax error: " ++ e.text))
    modify fun t => { t with line := s.line }
    pure text
  | .ok (w, next) =>
    set { s with documents := next.documents, endAhead := next.ahead.isSome }
    tryCatch (Expander.documentText output w) fun
      | .fail => pure text
      | e => throw e

/-- What is written to ask for a line. -/
def questionOf (run : Runner) (name : String) : ShellM Octets := do
  expandedText (outputOf run) (((← get).value? (octets name)).getD [])

/-- Does something that a script which talks to somebody outlives if it is broken off. -/
def outlived {α : Type} (act : ShellM α) : ShellM (Option α) :=
  tryCatch (some <$> act) fun e => do
    let s ← get
    if s.has 'i' ∧ s.own = s.pid then
      match e with
      | .fail => pure none
      | .interrupt =>
        ShellM.complain ['\n']
        ShellM.setStatus 130
        pure none
      | e => throw e
    else throw e

/-- How often the end of the input is passed over. -/
def maxEnds : Nat := 50

/-- Where in the text that it reads a shell is. -/
structure Progress where
  source : Source
  /-- How often the end has come since the last command. -/
  ends : Nat := 0

/-- Runs the commands of the next line. Where something is broken off, what has been read of the
text is lost. -/
def runLine (run : Runner) (x : Progress) : ShellM (Option Progress) := do
  let s ← get
  let ask := if s.has 'i' then some (questionOf run) else none
  let lost : ShellM (Option Progress) := do pure (some { source := (← get).source [] })
  match ← outlived (readCommands true ask x.source) with
  | none => lost
  | some none =>
    let s ← get
    if !s.has 'I' then
      if s.has 'i' then ShellM.complain ['\n']
      pure none
    else if x.ends < maxEnds then
      ShellM.complain (octets "\nUse \"exit\" to leave shell.\n")
      pure (some { x with ends := x.ends + 1 })
    else pure none
  | some (some (.nothing, next)) => pure (some { source := next })
  | some (some (command, next)) =>
    match ← outlived (run {} command) with
    | some () => pure (some { source := next })
    | none => lost

/-- Runs the commands of the text that a shell reads. -/
def runLines (run : Runner) (text : Octets) : ShellM Unit := do
  ShellM.repeatWhile (runLine run) maxLines { source := (← get).source text }

/-! ## Starts -/

/-- The variables of a script, given those that its caller has passed on. -/
def startVariables (environment : List (Octets × Octets)) (caller : Nat) :
    List (Octets × Variable) :=
  let passed := (environment.filter fun (name, _) => isName name).map fun (name, value) =>
    (name, { value := some value, exported := true : Variable })
  let preset (name value : String) : Octets × Variable :=
    (octets name, { value := some (octets value) })
  let always := [preset "IFS" " \t\n", preset "OPTIND" "1", preset "PPID" (toString caller)]
  let usual := [preset "PATH" (String.ofList searchPath), preset "PS1" "# ", preset "PS2" "> ",
    preset "PS4" "+ "]
  always ++ passed.filter (fun (name, _) => !always.any (·.1 = name)) ++
    usual.filter fun (name, _) => !passed.any (·.1 = name)

/-- A script in a process: before it reads its arguments. -/
def State.start (p : Process) (environment : List (Octets × Octets)) (pid : Nat)
    (callers : List Nat) : State :=
  let place := match environment.lookup (octets "PWD") with
    | some path =>
      if path.head? = some '/' ∧ p.files.directory? ['/'] path = some p.directory then path
      else p.directory
    | none => p.directory
  let bindings := startVariables environment (callers.headD 0)
  let s : State := {
    toProcess := p, name := [], bindings := bindings, line := 0, pid := pid, own := pid
    nextPid := pid + 1, callers := callers, place := place }
  s.putVariable (octets "PWD") (some { value := some place, exported := true })

/-- The script that can be read through a handle; a directory holds an empty one. -/
def handleText (h : Handle) : ShellM Octets := do
  let s ← get
  match s.toProcess.readHandle h with
  | .error _ => pure []
  | .ok (text, p) =>
    set { s with toProcess := p }
    pure (text.filter (· ≠ '\x00'))

/-- The script that stands in the input. -/
def inputText : ShellM Octets := do
  match (← get).handle? 0 with
  | some h => handleText h
  | none => pure []

/-- The script that stands in a file. -/
def fileText (path : Octets) : ShellM Octets := do handleText (← openToRead path)

/-- Runs the commands of a file before those that a shell is begun for, if there is such a file. -/
def runStartFile (run : Runner) (path : Octets) : ShellM Unit := do
  let path ← expandedText (outputOf run) path
  let s ← get
  match s.toProcess.openToRead path with
  | .error _ => pure ()
  | .ok (h, p) =>
    set { s with toProcess := p }
    let text ← handleText h
    let _ ← outlived (tryCatch (runText run false true text) fun
      | .return => pure ()
      | e => throw e)

/-- Runs the commands of the files with which a shell begins: one in the home of somebody who logs
in, and one for a shell that talks to somebody. -/
def runStartFiles (run : Runner) (login : Bool) : ShellM Unit := do
  if login then runStartFile run (octets "$HOME/.profile")
  let s ← get
  if s.has 'i' then
    match s.value? (octets "ENV") with
    | some path => unless path.isEmpty do runStartFile run path
    | none => pure ()

/-- Runs a shell as arguments ask for it. The first one is the name of the shell; after `-c` comes
the script, otherwise a file that holds it, otherwise it stands in the input. -/
def runArgs (run : Runner) (args : List Octets) : ShellM Unit := do
  modify fun s => { s with name := args.headD [] }
  let x ← switchOptions true args.tail
  let begin (name? : Option Octets) (params : List Octets) : ShellM Unit := do
    modify fun s => { s with name := name?.getD s.name, params := params }
    let s ← get
    unless x.letters.contains 'm' do set (s.setOption 'm' (s.has 'i'))
    dropJobControl
    modify fun s => { s with line := 1 }
    runStartFiles run (x.letters.contains 'l')
  match x.letters.contains 'c', x.operands with
  | true, [] => ShellM.fail (octets "-c requires an argument")
  | true, script :: rest =>
    begin rest.head? rest.tail
    let done ← outlived (runText run false false script)
    if done.isNone ∨ (← get).has 's' then runLines run (← inputText)
  | false, operands =>
    if (← get).has 's' then
      begin none operands
      runLines run (← inputText)
    else
      match operands with
      | [] =>
        modify fun s => s.setOption 's' true
        begin none []
        runLines run (← inputText)
      | path :: params =>
        let text ← fileText path
        begin (some path) params
        runLines run text

/-- Runs a program, with its name as the first of its arguments; `inPlace` tells that it takes the
place of the script. -/
def launch (run : Runner) (inPlace : Bool) (program : String) (args : List Octets) :
    ShellM Ending := do
  let s ← get
  match program with
  | "cat" =>
    let (ending, p) := s.toProcess.runCopy args.tail
    set { s with streams := p.streams, files := p.files, cursors := p.cursors }
    pure ending
  | "sh" =>
    let pid := if inPlace then s.own else s.nextPid
    let callers := if inPlace then s.callers else s.own :: s.callers
    let ignored := (s.traps.filter fun (_, action) => action.isEmpty).map (·.1)
    let begun := { State.start s.toProcess s.environment pid callers with
      nextPid := s.nextPid + 1, sent := s.sent, ignored := ignored ++ s.ignored, mask := s.mask
      limits := s.limits }
    let (ending, after) := runToEnd run (runArgs run args) begun
    set (s.takeShared after)
    collect
    pure ending
  | "true" => pure (.exit 0)
  | _ => pure (.exit 1)

end ForeignCall.Script
