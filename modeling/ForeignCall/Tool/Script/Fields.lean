import ForeignCall.Tool.Script.Pattern

/-!
# ForeignCall.Tool.Script.Fields

What words become when their parameters are replaced: characters, each of which can be quoted or can
separate fields. Blanks around fields vanish; any other separator ends a field, even an empty one.

* `fieldsOf` — the fields of what a word has become;
* `assignFields` — the fields of a line for a number of variables.
-/

namespace ForeignCall.Script

open Text (Octets octets)

/-- A part of what a word has become. -/
inductive Cell where
  /-- A character; `divisible` tells that it comes from a value that is split into fields. -/
  | char (c : Char) (quoted : Bool) (divisible : Bool)
  /-- A pair of quotes. -/
  | mark
  /-- The end of a parameter that is not quoted. -/
  | gap
  /-- The end of a parameter that is quoted. -/
  | edge
deriving DecidableEq

/-- The cells of a value. -/
def valueCells (quoted : Bool) (text : Octets) : List Cell :=
  text.map fun c => .char c quoted (!quoted)

/-- The text of cells. -/
def cellText (cells : List Cell) : Octets :=
  cells.filterMap fun
    | .char c _ _ => some c
    | .gap | .edge => some ' '
    | .mark => none

/-- The characters of cells for a pattern. -/
def cellMarks (cells : List Cell) : List Marked :=
  cells.filterMap fun
    | .char c quoted _ => some (c, quoted)
    | .gap | .edge => some (' ', true)
    | .mark => none

/-- A separator that vanishes around fields. -/
def isSpace (c : Char) : Bool := c = ' ' || c = '\t' || c = '\n'

/-- Fields that are being put together, from the last to the first and from the last character to
the first. -/
structure Split where
  done : List (List Marked) := []
  current : Option (List Marked) := none
  /-- Whether the last field has been ended by a blank. -/
  afterSpace : Bool := false

namespace Split

/-- Ends the current field, if there is one. -/
def close (x : Split) : Split :=
  match x.current with
  | some field => { done := field.reverse :: x.done, current := none, afterSpace := true }
  | none => x

/-- Adds a character to the current field. -/
def add (x : Split) (c : Marked) : Split :=
  { x with current := some (c :: x.current.getD []), afterSpace := false }

/-- Adds a cell. -/
def step (separators : Octets) (x : Split) : Cell → Split
  | .mark => { x with current := some (x.current.getD []), afterSpace := false }
  | .edge =>
    { done := (x.current.getD []).reverse :: x.done, current := some [], afterSpace := false }
  | .gap => x.close
  | .char c quoted divisible =>
    if divisible ∧ separators.contains c then
      if isSpace c then x.close
      else if x.current.isSome then { x.close with afterSpace := false }
      else if x.afterSpace then { x with afterSpace := false }
      else { x with done := [] :: x.done }
    else x.add (c, quoted)

end Split

/-- The fields of cells. -/
def fieldsOf (separators : Octets) (cells : List Cell) : List (List Marked) :=
  ((cells.foldl (Split.step separators) {}).close.done).reverse

/-! ## Lines for variables -/

/-- A character of a line, and whether it has lost its meaning. -/
abbrev Line := List Marked

/-- Whether a character separates fields. -/
def separates (separators : Octets) : Marked → Bool
  | (c, quoted) => !quoted && separators.contains c

/-- Whether a character is a blank between fields. -/
def blankBetween (separators : Octets) (m : Marked) : Bool :=
  separates separators m && isSpace m.1

/-- The first field of a line, and what follows its end. -/
def firstField (separators : Octets) (line : Line) : Line × Line :=
  let field := line.takeWhile fun m => !separates separators m
  let rest := (line.drop field.length).dropWhile (blankBetween separators)
  match rest with
  | m :: more =>
    if separates separators m then (field, more.dropWhile (blankBetween separators))
    else (field, rest)
  | [] => (field, [])

/-- The fields of a line for a number of variables. The last one gets all that is left: a single
field without what ends it, or several fields without the blanks behind them. -/
def assignFields (separators : Octets) : Nat → Line → List Octets
  | 0, _ => []
  | 1, line =>
    let (field, rest) := firstField separators line
    let kept :=
      if rest.isEmpty then field
      else (line.reverse.dropWhile (blankBetween separators)).reverse
    [kept.map (·.1)]
  | n + 1, line =>
    let (field, rest) := firstField separators line
    field.map (·.1) :: assignFields separators n rest

/-- The fields of a line for a number of variables; blanks in front of them vanish. -/
def lineFields (separators : Octets) (n : Nat) (line : Line) : List Octets :=
  assignFields separators n (line.dropWhile (blankBetween separators))

end ForeignCall.Script
