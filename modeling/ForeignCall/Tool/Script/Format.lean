import ForeignCall.Tool.Script.Fraction

/-!
# ForeignCall.Tool.Script.Format

What `echo` and `printf` write. A format holds directives, each of which takes an argument; as long
as arguments are left, it is used again.

* `unescape` — a text whose backslashes stand for other characters;
* `printFormat` — what a format makes of arguments.
-/

namespace ForeignCall.Script

open Text (Octets octets)

/-! ## Escapes -/

/-- The character of the number of a byte. -/
def byteChar (n : Nat) : Char := Char.ofNat (n % 256)

/-- The character that a letter behind a backslash stands for. -/
def escapeLetter (c : Char) : Option Char :=
  match c with
  | '\\' => some '\\'
  | 'a' => some '\x07'
  | 'b' => some '\x08'
  | 'e' => some '\x1b'
  | 'f' => some '\x0c'
  | 'n' => some '\n'
  | 'r' => some '\r'
  | 't' => some '\t'
  | 'v' => some '\x0b'
  | _ => none

/-- The character of the escape behind a backslash, and what follows it. What is no escape leaves
the backslash as it is. -/
def escapeChar (cs : Octets) : Char × Octets :=
  let digits := (cs.take 3).takeWhile fun c => (Text.digitIn 8 c).isSome
  match Text.ofDigits? 8 digits, cs with
  | some n, _ => (byteChar n, cs.drop digits.length)
  | none, c :: rest =>
    match escapeLetter c with
    | some d => (d, rest)
    | none => ('\\', cs)
  | none, [] => ('\\', [])

/-- A text whose escapes have been replaced, behind what has been read from the last character to
the first, and whether an escape has ended it. A zero comes before the digits of an escape. -/
def unescapeFrom : Nat → Octets → Octets → Octets × Bool
  | 0, read, _ => (read.reverse, false)
  | _, read, [] => (read.reverse, false)
  | fuel + 1, read, c :: cs =>
    if c = '\\' then
      match cs with
      | 'c' :: _ => (read.reverse, true)
      | '0' :: d :: rest =>
        let (e, rest) := escapeChar (if (Text.digitIn 8 d).isSome then d :: rest else cs)
        unescapeFrom fuel (e :: read) rest
      | cs =>
        let (e, rest) := escapeChar cs
        unescapeFrom fuel (e :: read) rest
    else unescapeFrom fuel (c :: read) cs

/-- A text whose escapes have been replaced, and whether an escape has ended it. -/
def unescape (text : Octets) : Octets × Bool := unescapeFrom (text.length + 1) [] text

/-- The text that `echo` writes: arguments with blanks between them, up to an escape that
ends it. -/
def echoText (newline : Bool) : List Octets → Octets
  | [] => if newline then ['\n'] else []
  | [x] =>
    let (text, ended) := unescape x
    if newline ∧ !ended then text ++ ['\n'] else text
  | x :: rest =>
    let (text, ended) := unescape x
    if ended then text else text ++ ' ' :: echoText newline rest

/-! ## Directives -/

/-- How an argument is written. -/
structure Directive where
  flags : Octets := []
  width : Nat := 0
  precision : Option Nat := none

namespace Directive

/-- Whether a flag is given. -/
def has (d : Directive) (flag : Char) : Bool := d.flags.contains flag

/-- A text filled up with blanks to the width. -/
def pad (d : Directive) (text : Octets) : Octets :=
  let blanks := List.replicate (d.width - text.length) ' '
  if d.has '-' then text ++ blanks else blanks ++ text

/-- A text of which at most as many characters are written as the precision says. -/
def string (d : Directive) (text : Octets) : Octets :=
  d.pad (match d.precision with
    | some n => text.take n
    | none => text)

/-- A number: a sign or a base in front, and digits, which can be filled up with zeros. -/
def number (d : Directive) (front digits : Octets) (zeros : Bool) : Octets :=
  let missing :=
    if zeros ∧ d.has '0' ∧ !d.has '-' then d.width - (front.length + digits.length) else 0
  d.pad (front ++ List.replicate missing '0' ++ digits)

/-- The digits of a whole number: at least as many as the precision says. -/
def wholeDigits (d : Directive) (base n : Nat) : Octets :=
  let digits := if n = 0 ∧ d.precision = some 0 then [] else Nat.toDigits base n
  List.replicate (d.precision.getD 0 - digits.length) '0' ++ digits

/-- The sign in front of a number. -/
def sign (d : Directive) (negative : Bool) : Octets :=
  if negative then ['-'] else if d.has '+' then ['+'] else if d.has ' ' then [' '] else []

/-- A number with a sign. -/
def signed (d : Directive) (n : Int) : Octets :=
  d.number (d.sign (n < 0)) (d.wholeDigits 10 n.natAbs) d.precision.isNone

/-- A number without a sign, in the base of its letter. -/
def unsigned (d : Directive) (letter : Char) (n : Nat) : Octets :=
  let whole := d.precision.isNone
  match letter with
  | 'o' =>
    let digits := d.wholeDigits 8 n
    d.number [] (if d.has '#' ∧ digits.head? ≠ some '0' then '0' :: digits else digits) whole
  | 'x' => d.number (if d.has '#' ∧ n ≠ 0 then ['0', 'x'] else []) (d.wholeDigits 16 n) whole
  | 'X' =>
    d.number (if d.has '#' ∧ n ≠ 0 then ['0', 'X'] else [])
      ((d.wholeDigits 16 n).map Char.toUpper) whole
  | _ => d.number [] (d.wholeDigits 10 n) whole

/-! ### Fractions -/

/-- A fraction in the form of a letter. -/
def magnitude (d : Directive) (letter : Char) (num den : Nat) : Octets :=
  let places := d.precision.getD 6
  let point := d.has '#'
  match letter with
  | 'f' => fixed num den places point
  | 'e' =>
    let (e, digits) := scientific num den places
    withExponent e digits point
  | _ =>
    let places := max places 1
    let (e, digits) := scientific num den (places - 1)
    let text :=
      if e < -4 ∨ (places : Int) ≤ e then withExponent e digits point
      else fixed num den ((places : Int) - 1 - e).toNat point
    if point then text else dropPlaces text

/-- A floating point number in the form of a letter. -/
def real (d : Directive) (letter : Char) (x : Real64) : Octets :=
  let upper (text : Octets) : Octets := if letter.isUpper then text.map Char.toUpper else text
  let sign := d.sign x.negative
  match x.magnitude with
  | .undefined => d.number sign (upper ['n', 'a', 'n']) false
  | .infinite => d.number sign (upper ['i', 'n', 'f']) false
  | .finite significand exponent =>
    if letter.toLower = 'a' then
      d.number (sign ++ upper ['0', 'x'])
        (upper (inSixteens significand exponent d.precision (d.has '#'))) true
    else
      let (num, den) := x.magnitude.fraction
      d.number sign (upper (d.magnitude letter.toLower num den)) true

end Directive

/-! ## Arguments -/

/-- A format at work. -/
structure Printer where
  args : List Octets
  /-- What has been written, the last part first. -/
  written : List Octets := []
  /-- What has been reported, the last report first. -/
  warnings : List Octets := []

/-- Why a format stops before its end. -/
inductive PrintStop where
  /-- An escape ends the output. -/
  | ended
  | failed (text : Octets)

/-- What a format does. -/
abbrev PrintM := ExceptT PrintStop (StateM Printer)

namespace PrintM

/-- Writes a text. -/
def emit (text : Octets) : PrintM Unit := modify fun s => { s with written := text :: s.written }

/-- Reports on an argument. -/
def warn (arg : Octets) (text : String) : PrintM Unit :=
  modify fun s => { s with warnings := (arg ++ octets text) :: s.warnings }

/-- The next argument; there is always an empty one. -/
def nextArg : PrintM Octets := do
  let s ← get
  set { s with args := s.args.tail }
  pure (s.args.headD [])

/-- The number that the character behind a quote has. -/
def quotedCode? : Octets → Option Nat
  | q :: rest =>
    if q = '"' ∨ q = '\'' then
      match rest with
      | c :: _ => some c.toNat
      | [] => some 0
    else none
  | [] => none

/-- The next argument as a whole number between two bounds. -/
def wholeArg (least greatest : Int) : PrintM Int := do
  let arg ← nextArg
  match quotedCode? arg with
  | some n => pure n
  | none =>
    match readNumber? arg with
    | some (n, rest) =>
      let clamped := if least ≤ n ∧ n ≤ greatest then n else if n < 0 then least else greatest
      if !rest.isEmpty then warn arg ": not completely converted"
      else if clamped ≠ n then warn arg ": Numerical result out of range"
      pure clamped
    | none =>
      if !arg.isEmpty then warn arg ": expected numeric value"
      pure 0

/-- The next argument as a number with a sign. -/
def signedArg : PrintM Int := wholeArg minNumber maxNumber

/-- The next argument as a number without a sign; one below zero wraps. -/
def unsignedArg : PrintM Nat := do
  let n ← wholeArg (-(2 ^ 64 - 1)) (2 ^ 64 - 1)
  pure (n % 2 ^ 64).toNat

/-- The next argument as a floating point number. -/
def realArg : PrintM Real64 := do
  let arg ← nextArg
  match quotedCode? arg, readReal? arg with
  | some n, _ => pure ⟨false, .ofFraction n 1⟩
  | none, some (x, inRange, rest) =>
    if !rest.isEmpty then warn arg ": not completely converted"
    else if !inRange then warn arg ": Numerical result out of range"
    pure x
  | none, none =>
    if !arg.isEmpty then warn arg ": expected numeric value"
    pure ⟨false, .ofFraction 0 1⟩

/-- A number that stands in the format or is the next argument, and what follows it. -/
def sizeOf (cs : Octets) : PrintM (Int × Octets) := do
  match cs with
  | '*' :: rest => pure (← signedArg, rest)
  | _ =>
    let part := cs.takeWhile fun c => c = '*' || c.isDigit
    pure (((Text.ofDigits? 10 part).getD 0 : Nat), cs.drop part.length)

/-- Writes the next argument as a directive says. -/
def convert (d : Directive) (letter : Char) (text : Octets) : PrintM Unit := do
  if letter = 's' then emit (d.string (← nextArg))
  else if letter = 'c' then
    emit (d.pad [((← nextArg).head?).getD '\x00'])
  else if letter = 'b' then
    let (text, ended) := unescape (← nextArg)
    emit (d.string text)
    if ended then throw .ended
  else if letter = 'd' ∨ letter = 'i' then emit (d.signed (← signedArg))
  else if "ouxX".toList.contains letter then emit (d.unsigned letter (← unsignedArg))
  else if "aAeEfFgG".toList.contains letter then emit (d.real letter (← realArg))
  else throw (.failed (text ++ octets ": invalid directive"))

/-- Carries out the directive behind a percent sign, and gives what follows it. -/
def directive (cs : Octets) : PrintM Octets := do
  let flags := cs.takeWhile fun c => "#-+ 0".toList.contains c
  let (width, rest) ← sizeOf (cs.drop flags.length)
  let flags := if width < 0 then '-' :: flags else flags
  let (precision, rest) ← match rest with
    | '.' :: rest => do
      let (n, rest) ← sizeOf rest
      pure (if n < 0 then none else some n.toNat, rest)
    | rest => pure (none, rest)
  match rest with
  | [] => throw (.failed (octets "missing format character"))
  | letter :: rest =>
    let text := '%' :: cs.take (cs.length - rest.length)
    convert ⟨flags, width.natAbs, precision⟩ letter text
    pure rest

/-- Uses a format once. -/
def once : Nat → Octets → PrintM Unit
  | 0, _ => pure ()
  | _, [] => pure ()
  | fuel + 1, c :: cs => do
    if c = '\\' then
      let (e, rest) := escapeChar cs
      emit [e]
      once fuel rest
    else if c = '%' then
      match cs with
      | '%' :: rest => emit ['%']; once fuel rest
      | _ => once fuel (← directive cs)
    else
      let plain := (c :: cs).takeWhile fun c => c ≠ '\\' && c ≠ '%'
      emit plain
      once fuel ((c :: cs).drop plain.length)

/-- Uses a format again as long as it takes arguments and some are left. -/
def again (format : Octets) : Nat → PrintM Unit
  | 0 => pure ()
  | n + 1 => do
    let before := (← get).args.length
    once (format.length + 1) format
    let after := (← get).args.length
    if after < before ∧ 0 < after then again format n

end PrintM

/-- What a format makes of arguments: the text, the reports, and why it fails. -/
def printFormat (format : Octets) (args : List Octets) : Octets × List Octets × Option Octets :=
  let (result, s) := (PrintM.again format (args.length + 1)).run.run { args := args }
  let failure := match result with
    | .error (.failed text) => some text
    | _ => none
  (s.written.reverse.flatten, s.warnings.reverse, failure)

end ForeignCall.Script
