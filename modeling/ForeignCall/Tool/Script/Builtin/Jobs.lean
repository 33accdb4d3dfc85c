import ForeignCall.Text.Numeral
import ForeignCall.Tool.Script.Builtin.Options

/-!
# ForeignCall.Tool.Script.Builtin.Jobs

What has been started in the background. A job is called by its number behind a percent sign; the
number of one that has been waited for can be given to another one.

* `State.takeNumber` — the number of the next job;
* `jobOf` — the job that an operand calls.
-/

namespace ForeignCall.Script

open Text (Octets octets)

/-! ## Numbers -/

/-- The first number from one on that a job can get, among so many, and the jobs that are left. -/
def freeNumber : Nat → Nat → List Job → Nat × List Job
  | 0, number, jobs => (number, jobs)
  | n + 1, number, jobs =>
    match jobs.find? (·.number = number) with
    | none => (number, jobs)
    | some x =>
      if x.waited then (number, jobs.filter (·.number ≠ number))
      else freeNumber n (number + 1) jobs

/-- The number that the next job gets; another job can lose it. -/
def State.takeNumber (s : State) : Nat × State :=
  let (number, jobs) := freeNumber s.jobs.length 1 s.jobs
  (number, { s with jobs := jobs })

/-- Prepares for a process: it gets a number for as long as it runs. -/
def beginJob : ShellM Nat := modifyGet State.takeNumber

/-- The job that an operand calls, or the current one. -/
def jobOf (operand : Option Octets) : ShellM Job := do
  let s ← get
  let found (job : Option Job) (complaint : Octets) : ShellM Job :=
    match job with
    | some x => pure x
    | none => ShellM.fail complaint
  let current := found s.jobs.head? (octets "No current job")
  let unknown (operand : Octets) : Octets := octets "No such job: " ++ operand
  match operand with
  | none | some ['%'] | some ['%', '%'] | some ['%', '+'] => current
  | some ['%', '-'] => found s.jobs[1]? (octets "No previous job")
  | some ['%', '?'] =>
    match s.jobs with
    | [x] => pure x
    | [] => ShellM.fail (unknown ['%', '?'])
    | _ => ShellM.fail (octets "%?: ambiguous")
  | some ('%' :: digits) =>
    let job := (Text.ofDigits? 10 digits).bind fun n => s.jobs.find? (·.number = n)
    found job (unknown ('%' :: digits))
  | some operand => ShellM.fail (unknown operand)

/-! ## Listings -/

/-- How a job has ended, in words. -/
def Job.state (x : Job) : Octets :=
  match x.ending with
  | .exit 0 => octets "Done"
  | .exit code => octets ("Done(" ++ toString code ++ ")")
  | .signal n => octets (signalText n)

/-- A job as it is listed: with the number of its process, or without. -/
def Job.line (s : State) (numbered : Bool) (x : Job) : Octets :=
  let place (i : Nat) : Bool := (s.jobs[i]?).any (·.number = x.number)
  let mark := if place 0 then '+' else if place 1 then '-' else ' '
  let start := octets ("[" ++ toString x.number ++ "] ") ++ [mark, ' ']
  let pid := if numbered then octets (toString x.pid ++ " ") else []
  let text := start ++ pid ++ x.state
  let others := (List.replicate (x.stages - 1) (octets " | ")).flatten
  text ++ List.replicate (max 1 (33 - text.length)) ' ' ++ others ++ ['\n']

/-- Lists jobs; one that is listed is forgotten. -/
def listJobs : Builtin := fun args => do
  let (options, operands) ← readOptions ['l', 'p'] args
  let kind := options.getLast?.map (·.1)
  let shown (x : Job) : ShellM Octets := do
    if kind = some 'p' then pure (octets (toString x.pid ++ "\n"))
    else
      let s ← get
      set { s with jobs := s.jobs.filter (·.number ≠ x.number) }
      pure (x.line s (kind = some 'l'))
  let texts ←
    if operands.isEmpty then (← get).jobs.mapM shown
    else operands.mapM fun operand => do shown (← jobOf (some operand))
  pure (0, texts.flatten)

/-- Continues a job, which cannot be done in a script. -/
def continueJob : Builtin := fun args => do
  let (_, operands) ← readOptions [] args
  let _ ← jobOf operands.head?
  let name := operands.head?.getD (octets "(null)")
  ShellM.fail (octets "job " ++ name ++ octets " not created under job control")

/-! ## Waiting -/

/-- Waits for a job; gives its status. A signal that has ended it is reported. -/
def waitJob (x : Job) : ShellM Nat := do
  modify fun s => { s with
    jobs := s.jobs.map fun y => if y.number = x.number then { y with waited := true } else y }
  match x.ending with
  | .exit code => pure code
  | .signal n => if x.waited then pure (128 + n) else statusOf (.signal n)

/-- Waits for processes; the status is that of the last one that there is. -/
def waitArgs : Builtin := silent fun args => do
  let (_, operands) ← readOptions [] args
  if operands.isEmpty then
    modify fun s => { s with jobs := s.jobs.map fun x => { x with waited := true } }
    pure 0
  else
    operands.foldlM (fun status operand => do
      if operand.head? = some '%' then waitJob (← jobOf (some operand))
      else
        let pid ← ShellM.number operand
        match (← get).jobs.find? (·.pid = pid) with
        | some x => waitJob x
        | none => pure status) 127

end ForeignCall.Script
