import ForeignCall.Tool.Script.Arithmetic
import ForeignCall.Tool.Script.Fields
import ForeignCall.Tool.Script.Paths
import ForeignCall.Tool.Script.State

/-!
# ForeignCall.Tool.Script.Expansion

What words stand for: parameters give way to their values, commands to their output and expressions
to numbers.

* `Expander.fields` — the fields of words;
* `Expander.text` — the text of a word that is not split;
* `Expander.pattern` — the pattern of a word.
-/

namespace ForeignCall.Script

open Text (Octets octets)

/-- How commands in words are run: what they write is given. -/
abbrev Expander := Command → ShellM Octets

/-- What a word is for. -/
structure Purpose where
  /-- Whether it becomes fields. -/
  split : Bool
  /-- Whether its own characters can separate fields. -/
  divisible : Bool := false

/-! ## Parameters -/

/-- Whether a name stands for all parameters. -/
def namesAll (name : Octets) : Bool := name = ['@'] || name = ['*']

/-- The value of a parameter. -/
def State.param? (s : State) (name : Octets) : Option Octets :=
  match name with
  | ['@'] | ['*'] => some (joinWith s.joiner s.params)
  | ['#'] => some (toString s.params.length).toList
  | ['?'] => some (toString s.status).toList
  | ['$'] => some (toString s.pid).toList
  | ['-'] => some s.optionText
  | ['!'] => s.lastPid.map fun pid => (toString pid).toList
  | ['0'] => some s.name
  | _ =>
    if name.all Char.isDigit then
      match (String.ofList name).toNat? with
      | some (n + 1) => s.params[n]?
      | _ => some s.name
    else s.value? name

/-- The cells of all parameters. -/
def State.allCells (s : State) (purpose : Purpose) (name : Octets) (quoted : Bool) : List Cell :=
  if quoted then
    if name = ['@'] ∧ purpose.split then
      (s.params.map fun p => Cell.mark :: valueCells true p).intersperse [.edge] |>.flatten
    else valueCells true (joinWith s.joiner s.params)
  else if purpose.split then
    ((s.params.map (valueCells false)).intersperse [.gap]).flatten
  else valueCells false (joinWith s.joiner s.params)

/-- The cells of the value of a parameter. -/
def State.paramCells (s : State) (purpose : Purpose) (name : Octets) (quoted : Bool) :
    List Cell :=
  if namesAll name then s.allCells purpose name quoted
  else valueCells quoted ((s.param? name).getD [])

/-! ## Home directories -/

/-- The directory that a name behind a tilde stands for. -/
def State.home? (s : State) (user : Octets) : Option Octets :=
  if user.isEmpty then s.value? (octets "HOME")
  else if user = octets "root" then some (octets "/root")
  else none

/-- A word whose tilde at the start has given way to a directory; in an assignment a colon ends the
name behind it as well. -/
def State.expandTilde (s : State) (assignment : Bool) (w : Word) : Word :=
  match w with
  | .char '~' false :: rest =>
    let ends (c : Char) : Bool := c = '/' || (assignment && c = ':')
    let user := rest.takeWhile fun p => match p with
      | .char c false => !ends c
      | _ => false
    let name := user.filterMap Piece.plain?
    let after := rest.drop user.length
    let complete := match after.head? with
      | none => true
      | some (.char c false) => ends c
      | some _ => false
    match if complete then s.home? name else none with
    | some home => quotedWord home ++ after
    | none => w
  | _ => w

/-- A word whose tildes at the start and behind colons have given way to directories. -/
def State.expandTildes (s : State) : Nat → Word → Word
  | 0, w => w
  | n + 1, w =>
    let w := s.expandTilde true w
    let head := w.takeWhile fun p => match p with
      | .char ':' false => false
      | _ => true
    match w.drop head.length with
    | colon :: rest => head ++ colon :: s.expandTildes n rest
    | [] => head

namespace Expander

/-- How deep words can lie in each other. -/
def maxDepth : Nat := 1000

/-- The end of a text without its line feeds. -/
def withoutLineFeeds (text : Octets) : Octets := (text.reverse.dropWhile (· = '\n')).reverse

/-- A parameter that has to have a value is reported. -/
def requireValue (name : Octets) : ShellM Unit := do
  let s ← get
  if s.has 'u' ∧ !namesAll name ∧ (s.param? name).isNone then
    ShellM.fail (name ++ octets ": parameter not set")

/-- The value of an expression; its assignments are made. -/
def evaluate (text : Octets) : ShellM Octets := do
  let s ← get
  let (result, assigned) := evaluateText s.value? text
  assigned.forM fun (name, value) => ShellM.assign name value false
  match result with
  | .ok n => pure (toString n).toList
  | .error .tooLarge => throw (.killed 8)
  | .error e => ShellM.fail (e.message text)

/-- The cells of a parameter that gives way to a word; `expand` gives those of the word. -/
def fallbackCells (expand : Purpose → ShellM (List Cell)) (purpose : Purpose) (name : Octets)
    (kind : Fallback) (orEmpty quoted plain : Bool) : ShellM (List Cell) := do
  let s ← get
  let value := s.param? name
  let missing := value.isNone || (orEmpty && value == some [])
  let inner : Purpose := { purpose with divisible := !quoted && purpose.split }
  match kind with
  | .default => if missing then expand inner else pure (s.paramCells purpose name quoted)
  | .alternative => if missing then pure [] else expand inner
  | .assign =>
    if missing then
      let text := cellText (← expand { split := false })
      if isName name then ShellM.assign name text false
      else ShellM.fail (name ++ octets ": bad variable name")
    pure ((← get).paramCells purpose name quoted)
  | .require =>
    if missing then
      if plain then
        let reason := if orEmpty then "parameter not set or null" else "parameter not set"
        ShellM.fail (name ++ octets (": " ++ reason))
      else ShellM.fail (name ++ octets ": " ++ cellText (← expand { split := false }))
    else pure (s.paramCells purpose name quoted)

/-- The cells of a word, with a bound on how deep words lie in each other. -/
def cells (output : Expander) : Nat → Purpose → Word → ShellM (List Cell)
  | 0, _, _ => pure []
  | depth + 1, purpose, w => do
    let parts ← w.mapM fun piece => do
      match piece with
      | .char c quoted => pure [Cell.char c quoted (purpose.divisible && !quoted)]
      | .quotes => pure [.mark]
      | .output body quoted =>
        pure (valueCells quoted (withoutLineFeeds (← output body)))
      | .number expression quoted =>
        let text := cellText (← cells output depth { split := false } expression)
        pure (valueCells quoted (← evaluate text))
      | .param name use quoted =>
        match use with
        | .value =>
          requireValue name
          pure ((← get).paramCells purpose name quoted)
        | .length =>
          requireValue name
          let text := ((← get).param? name).getD []
          pure (valueCells quoted (toString text.length).toList)
        | .fallback kind orEmpty word =>
          let expand (p : Purpose) : ShellM (List Cell) := do
            let s ← get
            cells output depth p (if quoted then word else s.expandTilde false word)
          fallbackCells expand purpose name kind orEmpty quoted word.isEmpty
        | .trim atEnd longest pattern =>
          requireValue name
          match (← get).param? name with
          | some text =>
            let marks := cellMarks (← cells output depth { split := false } pattern)
            pure (valueCells quoted ((Pattern.ofChars marks).trim atEnd longest text))
          | none => pure []
        | .malformed => ShellM.fail (octets "Bad substitution")
    pure parts.flatten

/-- The fields of a word. -/
def wordFields (output : Expander) (w : Word) : ShellM (List Octets) := do
  let w := (← get).expandTilde false w
  let cs ← cells output maxDepth { split := true } w
  let s ← get
  let fields := fieldsOf s.separators cs
  pure (if s.has 'f' then fields.map markedText else fields.flatMap (pathsOf s.files s.directory))

/-- The fields of words. -/
def fields (output : Expander) (words : List Word) : ShellM (List Octets) := do
  pure (← words.mapM (wordFields output)).flatten

/-- The text of a word that is not split. -/
def text (output : Expander) (w : Word) : ShellM Octets := do
  let w := (← get).expandTilde false w
  pure (cellText (← cells output maxDepth { split := false } w))

/-- The text of a word that is assigned. -/
def assignedText (output : Expander) (w : Word) : ShellM Octets := do
  let w := (← get).expandTildes w.length w
  pure (cellText (← cells output maxDepth { split := false } w))

/-- The text of a word that stands in the script for a redirection. -/
def documentText (output : Expander) (w : Word) : ShellM Octets := do
  pure (cellText (← cells output maxDepth { split := false } w))

/-- The pattern of a word. -/
def pattern (output : Expander) (w : Word) : ShellM Pattern := do
  let w := (← get).expandTilde false w
  pure (Pattern.ofChars (cellMarks (← cells output maxDepth { split := false } w)))

end Expander

end ForeignCall.Script
