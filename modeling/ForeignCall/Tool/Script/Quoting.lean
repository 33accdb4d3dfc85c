import ForeignCall.Tool.Script.Source

/-!
# ForeignCall.Tool.Script.Quoting

Reading words. A backslash and single quotes take away the meaning of characters; double quotes
leave it to the dollar sign, the back quote and the backslash. The text of an arithmetic expression
and of a text that stands in the script is read as between double quotes.

* `readWord` — the word at the start of a script.
-/

namespace ForeignCall.Script

open Text (Octets octets)

/-- What ends a text that stands in the script: a line of its own. -/
structure Mark where
  line : Octets
  /-- Whether tabs at the start of lines are dropped. -/
  strip : Bool

/-- Where the pieces of a word stand. -/
structure Place where
  /-- Between double quotes, or where the same rules hold. -/
  quoted : Bool := false
  /-- In the braces of a parameter. -/
  braces : Bool := false
  arithmetic : Bool := false
  /-- In a text that stands in the script. -/
  document : Bool := false
  /-- What ends this text. -/
  mark : Option Mark := none
  /-- In the delimiter of such a text, where nothing is substituted. -/
  delimiter : Bool := false

/-- How commands in a word are read. -/
structure Nested where
  /-- Commands up to a closing parenthesis. -/
  toParen : Reader Command
  /-- Commands up to the end of the text. -/
  toEnd : Reader Command

/-- A character that ends a word. -/
def isBreak (c : Char) : Bool := " \t\n;&|()<>".toList.contains c

namespace Place

/-- Whether a character ends a word here. -/
def breaksAt (p : Place) (c : Char) : Bool := !p.quoted && !p.braces && isBreak c

/-- Whether a backslash takes away the meaning of a character, and nothing of it is left. -/
def escapes (p : Place) (c : Char) : Bool :=
  !p.quoted || c = '\\' || c = '$' || c.toNat = 96 || (c = '"' && (!p.document || p.braces)) ||
    (c = '\x7d' && p.braces)

/-- What is wrong where the script ends here. -/
def complaint (p : Place) : Option String :=
  if p.arithmetic then some "Missing '))'"
  else if p.quoted ∧ !p.document ∧ p.mark.isNone then some "Unterminated quoted string"
  else if p.braces ∨ (p.mark.isSome ∧ !p.document) then some "Missing '\x7d'"
  else none

end Place

namespace Reader

/-- Passes over the line that ends a text, if it comes next. -/
def passMark (m : Mark) : Reader Bool := do
  widen (·.contains '\n')
  modify fun s => { s with rest := if m.strip then s.rest.dropWhile (· = '\t') else s.rest }
  let text := (← get).rest
  if m.line.isPrefixOf text then
    match text.drop m.line.length with
    | [] => modify fun s => { s with rest := [], line := s.line + 1 }; pure true
    | '\n' :: rest => modify fun s => { s with rest := rest, line := s.line + 1 }; pure true
    | _ => pure false
  else pure false

/-- The text between single quotes, where no line can end a text around them. -/
def singleQuotedFreely : Reader Word := do
  widen (·.contains '\'')
  let text := (← get).rest
  let inside := text.takeWhile (· ≠ '\'')
  match text.dropWhile (· ≠ '\'') with
  | [] =>
    modify fun s => { s with rest := [], line := s.line + inside.count '\n' }
    fail "Unterminated quoted string"
  | _ :: rest =>
    modify fun s => { s with rest := rest, line := s.line + inside.count '\n' }
    pure (.quotes :: quotedWord inside)

/-- The text between single quotes. -/
def singleQuoted (p : Place) : Reader Word :=
  match p.mark with
  | none => singleQuotedFreely
  | some m => do
    let stop {α : Type} : Reader α := fail (p.complaint.getD "")
    repeatUntil (fun (text : Octets) => do
      if text.head? = some '\n' then
        if ← passMark m then stop
      match ← takeRaw with
      | none => stop
      | some '\'' => pure (.inr (.quotes :: quotedWord text.reverse))
      | some c =>
        if c = '\n' then nextLine
        pure (.inl (c :: text))) (← bound) []

/-- Reads a character between back quotes, or finds the end; the text is given from the last
character to the first. -/
def backQuotedChar (quoted : Bool) (text : Octets) : Reader (Octets ⊕ Octets) := do
  match ← takeRaw with
  | none => fail "EOF in backquote substitution"
  | some '\\' =>
    match ← takeRaw with
    | none => pure (.inl ('\\' :: text))
    | some '\n' => nextLine; pure (.inl text)
    | some c =>
      let kept := c = '\\' ∨ c = '$' ∨ c.toNat = 96 ∨ (c = '"' ∧ quoted)
      pure (.inl (if kept then c :: text else c :: '\\' :: text))
  | some c =>
    if c.toNat = 96 then pure (.inr text.reverse)
    else
      if c = '\n' then nextLine
      pure (.inl (c :: text))

/-- The output of the commands between back quotes. -/
def backQuotedOutput (nested : Nested) (p : Place) : Reader Word := do
  let text ← repeatUntil (backQuotedChar p.quoted) (← bound) []
  pure [.output (← within text 1 nested.toEnd) p.quoted]

/-- The pieces up to the brace that closes a parameter. -/
def closing (read : Place → Reader Word) (p : Place) (quoted : Bool) : Reader Word :=
  read { p with quoted := quoted, braces := true, arithmetic := false }

/-- What becomes of a parameter, behind its name. -/
def readUse (read : Place → Reader Word) (p : Place) : Reader Use := do
  let fallback (orEmpty : Bool) (c : Char) : Reader (Option Use) := do
    let kind : Option Fallback := match c with
      | '-' => some .default
      | '+' => some .alternative
      | '=' => some .assign
      | '?' => some .require
      | _ => none
    match kind with
    | some kind => do
      skip
      pure (some (.fallback kind orEmpty (← closing read p p.quoted)))
    | none => pure none
  let malformed : Reader Use := do
    let _ ← closing read p p.quoted
    pure .malformed
  match ← look with
  | some '\x7d' => skip; pure .value
  | some ':' =>
    skip
    match ← look with
    | some '\x7d' => skip; let _ ← closing read p p.quoted; pure .value
    | some c =>
      match ← fallback true c with
      | some use => pure use
      | none => skip; malformed
    | none => malformed
  | some c =>
    if c = '%' ∨ c = '#' then
      skip
      let longest := (← look) = some c
      if longest then skip
      pure (.trim (c = '%') longest (← closing read p false))
    else
      match ← fallback false c with
      | some use => pure use
      | none => skip; malformed
  | none => malformed

/-- The name of a parameter in braces. -/
def paramName : Reader (Option Octets) := do
  match ← look with
  | some c =>
    if isNameStart c then some <$> takeWhile isNameChar
    else if c.isDigit then some <$> takeWhile Char.isDigit
    else if isSpecialParam c then skip; pure (some [c])
    else pure none
  | none => pure none

/-- The length of a parameter, behind the sign for it. -/
def readLength (read : Place → Reader Word) (p : Place) (name : Octets) : Reader Piece := do
  if (← look) = some '\x7d' then skip; pure (.param name .length p.quoted)
  else
    let _ ← closing read p p.quoted
    pure (.param name .malformed p.quoted)

/-- A parameter in braces. -/
def bracedParam (read : Place → Reader Word) (p : Place) : Reader Piece := do
  let named (name : Octets) : Reader Piece := do
    pure (.param name (← readUse read p) p.quoted)
  match ← look with
  | some '#' =>
    skip
    match ← look with
    | some c =>
      if isNameChar c then
        match ← paramName with
        | some name => readLength read p name
        | none => named ['#']
      else
        let ahead (text : Octets) : Option Char := (Source.skipJoins text.tail 0).1.head?
        widen fun text => (ahead text).isSome
        let ahead := ahead (← get).rest
        if c ≠ '\x7d' ∧ ahead = some '\x7d' then
          skip
          if isSpecialParam c then readLength read p [c]
          else
            skip
            pure (.param [] .malformed p.quoted)
        else named ['#']
    | none => named ['#']
  | _ =>
    match ← paramName with
    | some name => named name
    | none =>
      unless (← look) = some '\x7d' do skip
      let _ ← closing read p p.quoted
      pure (.param [] .malformed p.quoted)

/-- What stands behind a dollar sign. -/
def afterDollar (nested : Nested) (read : Place → Reader Word) (p : Place) : Reader Word := do
  if p.delimiter then pure [.char '$' p.quoted]
  else
    match ← look with
    | some '(' =>
      skip
      if (← look) = some '(' then
        skip
        let place : Place := { quoted := true, arithmetic := true, mark := p.mark }
        pure [.number (← read place) p.quoted]
      else
        let pending := (← get).pending
        modify fun s => { s with pending := [] }
        let body ← nested.toParen
        modify fun s => { s with pending := pending, ahead := none }
        pure [.output body p.quoted]
    | some '\x7b' => skip; pure [← bracedParam read p]
    | some c =>
      if isNameStart c then pure [.param (← takeWhile isNameChar) .value p.quoted]
      else if isSpecialParam c then skip; pure [.param [c] .value p.quoted]
      else pure [.char '$' p.quoted]
    | none => pure [.char '$' p.quoted]

/-- The pieces of a word that have been read, from the last to the first. -/
structure Pieces where
  read : List Piece := []
  /-- How many parentheses of an expression are open. -/
  depth : Nat := 0
  /-- Between double quotes that stand in braces between double quotes. -/
  inner : Bool := false
  /-- At the start of a line that can end the text. -/
  fresh : Bool := false

/-- The pieces of a text between double quotes. Quotes around all parameters add nothing. -/
def betweenQuotes : Word → Word
  | [.param ['@'] .value true] => [.param ['@'] .value true]
  | w => .quotes :: w

/-- Reads one piece more, or finds the end of the word. -/
def readChar (nested : Nested) (read : Place → Reader Word) (p : Place) (x : Pieces) :
    Reader (Pieces ⊕ Pieces) := do
  let finish : Reader (Pieces ⊕ Pieces) := pure (.inr x)
  let keep (w : Word) : Reader (Pieces ⊕ Pieces) :=
    pure (.inl { x with read := w.reverse ++ x.read })
  match ← look with
  | none =>
    match p.complaint with
    | some text => fail text
    | none =>
      if p.document then modify fun s => { s with cut := true }
      finish
  | some c =>
    if p.breaksAt c then finish
    else
      skip
      if c = '\n' then
        nextLine
        pure (.inl { x with read := .char c p.quoted :: x.read, fresh := p.mark.isSome })
      else if c = '\\' then
        match ← takeRaw with
        | none => keep [.char '\\' true]
        | some d =>
          if d = '\n' then nextLine
          if p.escapes d then keep [.char d true]
          else keep [.char '\\' true, .char d true]
      else if c = '\'' ∧ !p.quoted then keep (← singleQuoted p)
      else if c = '"' ∧ !p.quoted then
        keep (betweenQuotes (← read { quoted := true, mark := p.mark }))
      else if c = '"' ∧ p.braces then pure (.inl { x with inner := !x.inner })
      else if c = '"' ∧ !p.document ∧ !p.arithmetic then finish
      else if c = '$' then keep (← afterDollar nested read p)
      else if c.toNat = 96 ∧ !p.delimiter then keep (← backQuotedOutput nested p)
      else if c = '\x7d' ∧ p.braces ∧ !x.inner then finish
      else if c = '(' ∧ p.arithmetic then
        pure (.inl { x with read := .char c true :: x.read, depth := x.depth + 1 })
      else if c = ')' ∧ p.arithmetic then
        if 0 < x.depth then
          pure (.inl { x with read := .char c true :: x.read, depth := x.depth - 1 })
        else if (← look) = some ')' then skip; finish
        else keep [.char c true]
      else keep [.char c p.quoted]

/-- Reads one piece more, or finds the end of the word, or of the text that it stands in. -/
def readPiece (nested : Nested) (read : Place → Reader Word) (p : Place) (x : Pieces) :
    Reader (Pieces ⊕ Pieces) := do
  match if x.fresh then p.mark else none with
  | none => readChar nested read p x
  | some m =>
    let _ ← look
    if ← passMark m then
      match p.complaint with
      | some text => fail text
      | none => pure (.inr x)
    else readChar nested read p { x with fresh := false }

/-- The pieces at a place, with a bound on how deep places lie in each other. -/
def readPieces (nested : Nested) : Nat → Place → Reader Word
  | 0, _ => fail "too deep"
  | depth + 1, p => do
    let start : Pieces := { fresh := p.document && !p.braces }
    let x ← repeatUntil (readPiece nested (readPieces nested depth) p) (← bound) start
    pure x.read.reverse

/-- The word at the start of a script. -/
def readWord (nested : Nested) (p : Place) : Reader Word := do
  readPieces nested (← bound) p

/-- The text that stands in the script up to a line that ends it. -/
def readDocument (nested : Nested) (m : Mark) : Reader Word :=
  readWord nested { quoted := true, document := true, mark := some m }

/-- The word that a whole text is, taken as between double quotes. -/
def readWhole (nested : Nested) : Reader Word :=
  readWord nested { quoted := true, document := true }

end Reader

end ForeignCall.Script
