import ForeignCall.Instances
import ForeignCall.Tool.Script.Basic

/-!
# ForeignCall.Tool.Script.Source

The text of a script that is being read: characters, lines, and texts that stand in the script for
redirections. A backslash before a line feed joins two lines. Where a name is an alias, the value of
the alias is read in its place, before what follows the name; until it has been read, the name is no
alias in it.

* `Reader` — what takes something off the start of a script, or finds it malformed;
* `Source.substitute` — lets the value of an alias be read next.
-/

namespace ForeignCall.Script

open Text (Octets octets)

/-- Why a script is malformed, and where. -/
structure SyntaxError where
  line : Nat
  text : String
  /-- Whether it is the end of the line before that should not be there. -/
  atLineEnd : Bool := false
deriving Repr

/-- The start of a redirection. -/
inductive RedirectSign where
  | flow (flow : Flow)
  /-- A text that stands in the script; `strip` tells that tabs at the start of lines are
  dropped. -/
  | document (strip : Bool)
deriving DecidableEq, Repr

/-- A token of a script. -/
inductive Token where
  | endOfText | newline | semicolon | background | andThen | orElse | pipe | openParen | closeParen
  | endBranch
  | redirect (descriptor : Nat) (sign : RedirectSign)
  | word (w : Word)
  | keyword (name : String)

/-- The name of a token in messages. -/
def Token.name : Token → String
  | endOfText => "end of file"
  | newline => "newline"
  | semicolon => "\";\""
  | background => "\"&\""
  | andThen => "\"&&\""
  | orElse => "\"||\""
  | pipe => "\"|\""
  | openParen => "\"(\""
  | closeParen => "\")\""
  | endBranch => "\";;\""
  | redirect .. => "redirection"
  | word _ => "word"
  | keyword k => "\"" ++ k ++ "\""

/-- The words that have a meaning of their own at the start of a command. -/
def keywords : List String :=
  ["!", "case", "do", "done", "elif", "else", "esac", "fi", "for", "if", "in", "then", "until",
   "while", "\x7b", "\x7d"]

/-- A text for a redirection whose lines are still to come. -/
structure Pending where
  number : Nat
  /-- The line that ends the text. -/
  delimiter : Octets
  strip : Bool
  /-- Whether the text is taken as it is. -/
  quoted : Bool

/-- A name with a text that is read in its place. -/
structure Alias where
  name : Octets
  value : Octets
  /-- Whether it is removed as soon as its value has been read. -/
  leaving : Bool := false

/-- How much a script can grow at most when aliases are replaced: within the value of an alias at
most the others are. -/
def growthOf (aliases : List Alias) : Nat :=
  let longest := aliases.foldl (fun n x => max n x.value.length) 0
  (longest + 1) ^ aliases.length

/-- What follows the value of an alias that is being read. -/
structure Outer where
  rest : Octets
  /-- The names that are no aliases in the value. -/
  names : List Octets
  /-- Whether the word behind the value can be an alias, too. -/
  chained : Bool

/-- A script that is being read. -/
structure Source where
  rest : Octets
  /-- What follows the values of aliases that are being read, the innermost first. -/
  outers : List Outer := []
  /-- A number of characters that is not exceeded. -/
  size : Nat
  line : Nat := 1
  documents : Array Word := #[]
  pending : List Pending := []
  /-- A token that has been read and is taken again. -/
  ahead : Option Token := none
  aliases : List Alias := []
  /-- How much the script can grow at most. -/
  growth : Nat := 1
  /-- Names that are no aliases anywhere in the text. -/
  held : List Octets := []
  /-- Names whose values end right before the next character. -/
  ended : List Octets := []
  /-- Whether the next word can be an alias, because a value ended with a blank. -/
  chained : Bool := false
  /-- Whether the end has come where a text for a redirection should have ended. -/
  cut : Bool := false
  /-- The lines that have not been begun. -/
  unbegun : Octets

namespace Source

/-- A script that has not been read yet, behind others with texts for redirections, where there are
aliases and some names are none. -/
def ofText (text : Octets) (documents : Array Word) (aliases : List Alias) (held : List Octets) :
    Source :=
  { rest := text, size := text.length, documents := documents, aliases := aliases
    growth := growthOf aliases, held := held, unbegun := text }

/-! ## Aliases -/

/-- The names that are no aliases now. -/
def inUse (s : Source) : List Octets := s.held ++ s.ended ++ s.outers.flatMap (·.names)

/-- The text without the values of aliases that are being read. -/
def outermost (s : Source) : Octets :=
  match s.outers.getLast? with
  | some x => x.rest
  | none => s.rest

/-- Whether nothing of the text is left. -/
def atEnd (s : Source) : Bool :=
  s.cut || match s.ahead with
    | some .endOfText => true
    | _ => false

/-- The lines that have not been begun, behind commands that have been read. -/
def linesLeft (s : Source) : Octets :=
  if s.outers.isEmpty then s.rest else (s.outermost.dropWhile (· ≠ '\n')).drop 1

/-- The value that is read in the place of a name. -/
def valueOf? (s : Source) (name : Octets) : Option Octets :=
  if s.inUse.contains name then none
  else (s.aliases.find? (·.name = name)).map (·.value)

/-- Lets the value of an alias be read next. -/
def substitute (s : Source) (name value : Octets) : Source :=
  if value.isEmpty then s
  else
    let last := value.getLast?
    let outer : Outer := ⟨s.rest, name :: s.ended, last = some ' ' || last = some '\t'⟩
    { s with
      rest := value, outers := outer :: s.outers, size := s.size + value.length, ended := [] }

/-- Goes on behind the innermost value, of which what is left is read as a part of what follows. -/
def leave (s : Source) (x : Outer) (xs : List Outer) : Source :=
  { s with
    rest := s.rest ++ x.rest, outers := xs, ended := x.names ++ s.ended
    chained := s.chained || x.chained }

/-- Goes on behind values until what comes next is suitable. -/
def leaveUntil (suits : Octets → Bool) : List Outer → Source → Source
  | [], s => s
  | x :: xs, s => if suits s.rest then s else leaveUntil suits xs (s.leave x xs)

/-- Lets the names whose values have ended be aliases again. -/
def release (s : Source) : Source :=
  if s.ended.isEmpty then s
  else
    { s with
      ended := [], aliases := s.aliases.filter fun x => !(x.leaving && s.ended.contains x.name) }

/-! ## Characters -/

/-- A text without the joined line ends at its start, and how many there are. -/
def skipJoins : Octets → Nat → Octets × Nat
  | '\\' :: '\n' :: cs, n => skipJoins cs (n + 1)
  | cs, n => (cs, n)

/-- Passes over joined line ends. -/
def joined (s : Source) : Source :=
  let (rest, joins) := skipJoins s.rest 0
  { s with rest := rest, line := s.line + joins }

/-- Goes to the next character, behind values that have ended and joined line ends. -/
def settle : List Outer → Source → Source
  | [], s => s.joined
  | x :: xs, s =>
    let s := s.joined
    match s.rest with
    | [] | ['\\'] => settle xs (s.leave x xs)
    | _ => s

end Source

/-- What takes something off the start of a script. -/
abbrev Reader := StateT Source (Except SyntaxError)

namespace Reader

/-- The script is malformed. -/
def fail {α : Type} (text : String) : Reader α := fun s => .error { line := s.line, text := text }

/-- The script is malformed at a token, where perhaps another one should be. -/
def unexpected {α : Type} (t : Token) (expected : Option String) : Reader α := fun s =>
  let text := t.name ++ " unexpected" ++ match expected with
    | some e => " (expecting " ++ e ++ ")"
    | none => ""
  let atLineEnd := match t with
    | .newline => true
    | _ => false
  .error ⟨s.line, text, atLineEnd⟩

/-- Repeats a step on a state until there is a result. -/
def repeatUntil {σ β : Type} (step : σ → Reader (σ ⊕ β)) : Nat → σ → Reader β
  | 0, _ => fail "too long"
  | n + 1, x => fun s =>
    match step x s with
    | .error e => .error e
    | .ok (.inl x, s) => repeatUntil step n x s
    | .ok (.inr b, s) => .ok (b, s)

/-- How many steps a text can take at most. -/
def bound : Reader Nat := fun s => .ok (s.size * s.growth + 2, s)

/-- The next character, which stays. -/
def look : Reader (Option Char) := fun s =>
  let s := s.settle s.outers
  .ok (s.rest.head?, s)

/-- Takes a character. -/
def skip : Reader Unit := modify fun s => { s.release with rest := s.rest.tail }

/-- Reads on behind values of aliases until what comes next is suitable. -/
def widen (suits : Octets → Bool) : Reader Unit := modify fun s => s.leaveUntil suits s.outers

/-- Takes the next character, joined lines or not. -/
def takeRaw : Reader (Option Char) := do
  modify Source.release
  widen (!·.isEmpty)
  let next := (← get).rest.head?
  modify fun s => { s with rest := s.rest.tail }
  pure next

/-- Takes characters as long as they fit. -/
def takeWhile (fits : Char → Bool) : Reader Octets := do
  repeatUntil (fun taken => do
    match ← look with
    | some c => if fits c then skip; pure (.inl (c :: taken)) else pure (.inr taken.reverse)
    | none => pure (.inr taken.reverse)) (← bound) []

/-- Begins a line. -/
def nextLine : Reader Unit := modify fun s => { s with line := s.line + 1 }

/-- Puts a token back. -/
def putBack (t : Token) : Reader Unit := modify fun s => { s with ahead := some t }

/-- Reads another text in place of the script, with lines of its own, and then goes on. -/
def within {α : Type} (text : Octets) (line : Nat) (read : Reader α) : Reader α := do
  let outer ← get
  set { outer with
    rest := text, outers := [], size := text.length, line := line, pending := []
    held := outer.inUse, ended := [], chained := false }
  let a ← read
  modify fun s => { outer with documents := s.documents, aliases := s.aliases, ahead := none }
  pure a

end Reader

end ForeignCall.Script
