import ForeignCall.Tool.Script.Expansion

/-!
# ForeignCall.Tool.Script.Redirection

Redirections: for a command, descriptors stand for other things than before.

* `withOpenings` — does something with redirections in place.
-/

namespace ForeignCall.Script

open Text (Octets octets)

/-- A redirection whose word has been expanded. -/
structure Opening where
  descriptor : Nat
  flow : Flow
  target : Octets

/-- The descriptor that a text names; a dash stands for none. Anything else counts as malformed
where the script has been read to. -/
def descriptorNamed (text : Octets) : ShellM (Option Nat) := do
  let malformed : ShellM (Option Nat) := do
    modify fun s => { s with line := s.reached }
    ShellM.fail (octets "Syntax error: Bad fd number")
  match text with
  | ['-'] => pure none
  | [c] => if c.isDigit then pure (some (c.toNat - '0'.toNat)) else malformed
  | _ => malformed

/-- Expands the words of redirections. -/
def expandRedirects (output : Expander) (redirects : List Redirect) : ShellM (List Opening) :=
  redirects.mapM fun (.mk descriptor flow target) => do
    let text ← Expander.text output target
    if flow = .copy then
      let _ ← descriptorNamed text
    pure ⟨descriptor, flow, text⟩

/-- Reports that a file cannot be read. -/
def cannotOpen {α : Type} (path : Octets) (e : FileError) : ShellM α :=
  let reason := if e = .missing ∨ e = .notDirectory then "No such file" else e.text
  ShellM.fail (octets "cannot open " ++ path ++ octets (": " ++ reason))

/-- Reports that a file cannot be written. -/
def cannotCreate {α : Type} (path : Octets) (reason : String) : ShellM α :=
  ShellM.fail (octets "cannot create " ++ path ++ octets (": " ++ reason))

/-- Opens a file for reading. -/
def openToRead (path : Octets) : ShellM Handle := do
  let s ← get
  match s.toProcess.openToRead path with
  | .ok (h, p) => set { s with toProcess := p }; pure h
  | .error e => cannotOpen path e

/-- Opens a file for writing. -/
def openToWrite (path : Octets) (mode : WriteMode) : ShellM Handle := do
  let s ← get
  match s.toProcess.openToWrite path mode with
  | .ok (h, p) => set { s with toProcess := p }; pure h
  | .error e =>
    cannotCreate path (if e = .missing ∨ e = .notDirectory then "Directory nonexistent" else e.text)

/-- Whether a path leads to a file that holds text. -/
def State.isRegular (s : State) (path : Octets) : Bool :=
  match s.toProcess.node path with
  | .ok (.plain _) => true
  | _ => false

/-- What the descriptor of a redirection is to stand for. -/
def handleOf (output : Expander) (o : Opening) : ShellM (Option Handle) := do
  let s ← get
  match o.flow with
  | .read => some <$> openToRead o.target
  | .write =>
    if s.has 'C' ∧ s.isRegular o.target then cannotCreate o.target "File exists"
    else some <$> openToWrite o.target .replace
  | .overwrite => some <$> openToWrite o.target .replace
  | .append => some <$> openToWrite o.target .append
  | .readWrite => some <$> openToWrite o.target .update
  | .copy =>
    match ← descriptorNamed o.target with
    | none => pure none
    | some n =>
      match s.handle? n with
      | some h => pure (some h)
      | none => ShellM.fail (octets (toString n ++ ": " ++ FileError.badDescriptor.text))
  | .document number =>
    let text ← Expander.documentText output (s.documents.getD number [])
    let (i, p) := (← get).toProcess.newStream text
    modify fun s => { s with toProcess := p }
    pure (some (.source i))

/-- Makes redirections, one after the other. -/
def openAll (output : Expander) (openings : List Opening) : ShellM Unit :=
  openings.forM fun o => do
    let h ← handleOf output o
    modify fun s => { s with toProcess := s.toProcess.setHandle o.descriptor h }

/-- Gives descriptors of redirections what they have stood for in another state. -/
def restoreHandles (openings : List Opening) (old s : State) : State :=
  openings.foldl (fun s o =>
    { s with toProcess := s.toProcess.setHandle o.descriptor (old.handle? o.descriptor) }) s

/-- Does something with redirections in place, and tells whether they could be made. Afterwards the
descriptors stand for what they have stood for before, except if the redirections are to `stay`. -/
def withOpenings (output : Expander) (openings : List Opening) (stay : Bool) (act : ShellM Unit) :
    ShellM Bool := do
  let old ← get
  let restore := modify (restoreHandles openings old)
  let made ← tryCatch (do openAll output openings; pure true) fun e =>
    match e with
    | .fail => pure false
    | e => throw e
  if made then
    tryCatch act fun e => do
      unless stay do restore
      throw e
    unless stay do restore
  else restore
  pure made

end ForeignCall.Script
