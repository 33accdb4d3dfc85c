import ForeignCall.Text.Numeral
import ForeignCall.Text.Octet

/-!
# ForeignCall.Tool.Copy

The program `cat`, which copies texts one after the other. Options make ends of lines, tabs and
other characters visible, number lines, and leave out repeated blank lines.

* `CopyOptions.ofArgs` — the options and the operands of arguments;
* `copyText` — what becomes of one text.
-/

namespace ForeignCall

open Text (Octets octets)

/-- Which lines get numbers. -/
inductive Numbering where
  | none | nonblank | all
deriving DecidableEq, Repr

/-- How texts are copied. -/
structure CopyOptions where
  numbering : Numbering := .none
  /-- Of several blank lines only the first is kept. -/
  squeeze : Bool := false
  /-- A dollar sign marks the end of each line. -/
  ends : Bool := false
  /-- Tabs are made visible. -/
  tabs : Bool := false
  /-- Characters that do not print are made visible. -/
  controls : Bool := false
  /-- Nothing is copied; the program only tells about itself. -/
  info : Bool := false
deriving DecidableEq, Repr

namespace CopyOptions

/-- The options with one more letter. -/
def withLetter (o : CopyOptions) (c : Char) : Option CopyOptions :=
  match c with
  | 'A' => some { o with controls := true, ends := true, tabs := true }
  | 'b' => some { o with numbering := .nonblank }
  | 'e' => some { o with controls := true, ends := true }
  | 'E' => some { o with ends := true }
  | 'n' => some (if o.numbering = .none then { o with numbering := .all } else o)
  | 's' => some { o with squeeze := true }
  | 't' => some { o with controls := true, tabs := true }
  | 'T' => some { o with tabs := true }
  | 'u' => some o
  | 'v' => some { o with controls := true }
  | _ => none

/-- The long names of options, each with its letter. -/
def longNames : List (String × Char) :=
  [("number-nonblank", 'b'), ("number", 'n'), ("squeeze-blank", 's'), ("show-nonprinting", 'v'),
   ("show-ends", 'E'), ("show-tabs", 'T'), ("show-all", 'A'), ("help", 'h'), ("version", 'h')]

/-- The text of an error with the usual hint. -/
def refusal (text : Octets) : Octets :=
  octets "cat: " ++ text ++ octets "\nTry 'cat --help' for more information.\n"

/-- A text between single quotes. -/
def ticked (text : Octets) : Octets := '\'' :: text ++ ['\'']

/-- The options with those of a letter list. -/
def withLetters (o : CopyOptions) : Octets → Except Octets CopyOptions
  | [] => .ok o
  | c :: cs =>
    match o.withLetter c with
    | some o => withLetters o cs
    | none => .error (refusal (octets "invalid option -- " ++ ticked [c]))

/-- The options with one that is given by the start of its long name. -/
def withLong (o : CopyOptions) (arg : Octets) : Except Octets CopyOptions :=
  let name := arg.takeWhile (· ≠ '=')
  let fits := longNames.filter fun (long, _) => name.isPrefixOf long.toList
  let dashed (long : String) : Octets := ticked ('-' :: '-' :: long.toList)
  match fits.filter fun (long, _) => long.toList = name, fits with
  | (long, c) :: _, _ | [], [(long, c)] =>
    if name.length < arg.length then
      .error (refusal (octets "option " ++ dashed long ++ octets " doesn't allow an argument"))
    else .ok ((o.withLetter c).getD { o with info := true })
  | [], [] => .error (refusal (octets "unrecognized option " ++ ticked ('-' :: '-' :: arg)))
  | [], _ =>
    let choices := fits.flatMap fun (long, _) => ' ' :: dashed long
    .error (refusal (octets "option " ++ ticked ('-' :: '-' :: arg) ++
      octets " is ambiguous; possibilities:" ++ choices))

/-- The options and the operands of arguments. Two dashes end the options. -/
def ofArgs (o : CopyOptions) : List Octets → Except Octets (CopyOptions × List Octets)
  | [] => .ok (o, [])
  | ['-', '-'] :: rest => .ok (o, rest)
  | ('-' :: '-' :: name) :: rest => (o.withLong name).bind fun o => ofArgs o rest
  | ('-' :: c :: letters) :: rest => (o.withLetters (c :: letters)).bind fun o => ofArgs o rest
  | file :: rest => (ofArgs o rest).map fun (o, files) => (o, file :: files)

/-- Whether texts are copied as they are. -/
def plain (o : CopyOptions) : Bool :=
  o.numbering = .none && !o.squeeze && !o.ends && !o.tabs && !o.controls

end CopyOptions

/-! ## Lines -/

/-- Where in the lines of its output a copy is. -/
structure CopyState where
  /-- At the start of a line, how many blank lines have come before it; two stand for more. -/
  blanks : Option Nat := some 0
  /-- How many lines have got a number. -/
  line : Nat := 0
  /-- A carriage return has been read that may belong to the end of a line. -/
  heldReturn : Bool := false
  /-- What has been written, from the last character to the first. -/
  written : Octets := []

namespace CopyState

/-- Writes a text. -/
def write (s : CopyState) (text : Octets) : CopyState :=
  { s with written := text.reverse ++ s.written }

/-- Writes the number of the next line. -/
def writeNumber (s : CopyState) : CopyState :=
  let digits := (toString (s.line + 1)).toList
  { s with line := s.line + 1 }.write (List.replicate (6 - digits.length) ' ' ++ digits ++ ['\t'])

/-- Writes the carriage return that is held. -/
def release (s : CopyState) : CopyState :=
  if s.heldReturn then { s with heldReturn := false }.write ['\r'] else s

end CopyState

/-- The visible form of a character below 128. -/
def caretForm (n : Nat) : Octets :=
  if n < 32 then ['^', Char.ofNat (n + 64)]
  else if n = 127 then ['^', '?']
  else [Char.ofNat n]

/-- The form in which a character that ends no line is written. -/
def CopyOptions.form (o : CopyOptions) (c : Char) : Octets :=
  if c = '\t' then if o.tabs then ['^', 'I'] else [c]
  else if o.controls then
    if c.toNat < 128 then caretForm c.toNat else 'M' :: '-' :: caretForm (c.toNat - 128)
  else [c]

/-- Copies one character. -/
def copyChar (o : CopyOptions) (s : CopyState) (c : Char) : CopyState :=
  if c = '\n' then
    let blanks := match s.blanks with
      | none => 0
      | some n => min (n + 1) 2
    let s := { s with blanks := some blanks }
    if blanks = 2 ∧ o.squeeze then s
    else
      let s := if 0 < blanks ∧ o.numbering = .all then s.writeNumber else s
      let s :=
        if o.ends then
          let s := if s.heldReturn then { s with heldReturn := false }.write ['^', 'M'] else s
          s.write ['$']
        else s
      s.write ['\n']
  else
    let s := s.release
    let s := if s.blanks.isSome ∧ o.numbering ≠ .none then s.writeNumber else s
    let s := { s with blanks := none }
    if c = '\r' ∧ o.ends ∧ !o.controls then { s with heldReturn := true }
    else s.write (o.form c)

/-- Copies a text: what has been written, and how the copy goes on. -/
def copyText (o : CopyOptions) (s : CopyState) (text : Octets) : Octets × CopyState :=
  if o.plain then (text, s)
  else
    let s := text.foldl (copyChar o) s
    (s.written.reverse, { s with written := [] })

/-! ## Names in messages -/

/-- A character that does not print. -/
def isHiddenInName (c : Char) : Bool := c.toNat < 32 || 127 ≤ c.toNat

/-- A character that a name is shown in quotes for. -/
def isSpecialInName (first : Bool) (c : Char) : Bool :=
  isHiddenInName c || " !\"$&'()*;<=>?[\\^|:".toList.contains c || c.toNat = 96 ||
    (first && (c = '#' || c = '~'))

/-- A character that does not keep a name from being shown between double quotes. -/
def isQuietInName (first : Bool) (c : Char) : Bool :=
  c.isAlphanum || " '%+,-./:]_".toList.contains c || (first && (c = '#' || c = '~'))

/-- The escape of a character that does not print. -/
def escapeInName (c : Char) : Octets :=
  match c with
  | '\n' => ['\\', 'n']
  | '\t' => ['\\', 't']
  | '\r' => ['\\', 'r']
  | '\x07' => ['\\', 'a']
  | '\x08' => ['\\', 'b']
  | '\x0b' => ['\\', 'v']
  | '\x0c' => ['\\', 'f']
  | c =>
    let digits := Nat.toDigits 8 c.toNat
    '\\' :: List.replicate (3 - digits.length) '0' ++ digits

/-- The characters of a name between single quotes; `escaping` tells that the quotes are left. -/
def quoteName : Bool → Octets → Octets
  | _, [] => ['\'']
  | escaping, c :: cs =>
    if isHiddenInName c then
      (if escaping then [] else "'$'".toList) ++ escapeInName c ++ quoteName true cs
    else if c = '\'' then
      "'\\''".toList ++ quoteName false cs
    else (if escaping then "''".toList else []) ++ c :: quoteName false cs

/-- A name as messages show it: in quotes if it holds a special character. If it holds a quote, its
start is shown as if it came behind its end. -/
def shownName (name : Octets) : Octets :=
  match name with
  | [] => ['\'', '\'']
  | c :: cs =>
    let special := isSpecialInName true c || cs.any (isSpecialInName false)
    if special ∨ name = ['\x7b'] ∨ name = ['\x7d'] then
      if name.contains '\'' ∧ isQuietInName true c ∧ cs.all (isQuietInName false) then
        '"' :: name ++ ['"']
      else
        let hiddenEnd := name.getLast?.any isHiddenInName
        '\'' :: quoteName (name.contains '\'' && hiddenEnd) name
    else name

end ForeignCall
