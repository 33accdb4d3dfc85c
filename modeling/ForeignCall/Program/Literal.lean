import ForeignCall.Constant.Literal
import ForeignCall.Target.Basic

/-!
# ForeignCall.Program.Literal

The values and the types of the literals of a host program.

A string literal has the escapes of C: simple ones, up to three octal digits, and any number of
hexadecimal digits. A numeric escape stands for the character with that code point, which is at most
255. An integer literal has the first type of its candidates that holds its value.

* `decodeString` — the text of a string literal;
* `decodeInt`, `intLiteralType` — the value and the type of an integer literal;
* `fitsWidth` — whether a value fits a type, read as signed or as unsigned.
-/

namespace ForeignCall

/-- Why a literal has no value or no type. -/
inductive LiteralError where
  | unknownEscape (escape : String)
  /-- A numeric escape above 255. -/
  | outOfRange (escape : String)
  | trailingBackslash
  | badInteger (text : String)
  /-- No type of the candidates holds the value. -/
  | tooLarge (text : String)
  /-- The arithmetic of a range ends the program. -/
  | abort (reason : Abort)
deriving DecidableEq, Repr

/-- The text of the error. -/
def LiteralError.message : LiteralError → String
  | .unknownEscape escape => "unknown escape sequence '" ++ escape ++ "'"
  | .outOfRange escape => "escape sequence '" ++ escape ++ "' out of range"
  | .trailingBackslash => "string literal ends with a backslash"
  | .badInteger text => "invalid integer literal '" ++ text ++ "'"
  | .tooLarge text => "integer literal '" ++ text ++ "' is too large for any integer type"
  | .abort reason => reason.message

/-! ## Strings -/

/-- The character of a simple escape. -/
def simpleEscape? (c : Char) : Option Char :=
  if c = 'n' then some '\n'
  else if c = 't' then some '\t'
  else if c = 'r' then some '\r'
  else if c = 'a' then some (Char.ofNat 7)
  else if c = 'b' then some (Char.ofNat 8)
  else if c = 'f' then some (Char.ofNat 12)
  else if c = 'v' then some (Char.ofNat 11)
  else if c = '\\' ∨ c = '"' ∨ c.toNat = 39 ∨ c = '?' then some c
  else none

/-- An octal digit. -/
def isOctal (c : Char) : Bool := (Text.digitIn 8 c).isSome

/-- A hexadecimal digit. -/
def isHex (c : Char) : Bool := (Text.digitIn 16 c).isSome

/-- The character of a numeric escape with the given digits. -/
def numericEscape (base : Nat) (digits : List Char) (escape : String) : Except LiteralError Char :=
  let n := (Text.ofDigits? base digits).getD 0
  if n ≤ 255 then .ok (Char.ofNat n) else .error (.outOfRange escape)

/-- The octal digits at the start of a text, three at most. -/
def octalRun (s : List Char) : List Char := (s.take 3).takeWhile isOctal

/-- The character of the escape behind a backslash, and what follows the escape. -/
def escape : List Char → Except LiteralError (Char × List Char)
  | [] => .error .trailingBackslash
  | c :: cs =>
    match simpleEscape? c with
    | some d => .ok (d, cs)
    | none =>
      if isOctal c then
        let run := octalRun (c :: cs)
        (numericEscape 8 run (String.ofList ('\\' :: run))).map fun d =>
          (d, (c :: cs).drop run.length)
      else if c = 'x' then
        let run := cs.takeWhile isHex
        if run.isEmpty then .error (.unknownEscape "\\x")
        else
          (numericEscape 16 run (String.ofList ('\\' :: 'x' :: run))).map fun d =>
            (d, cs.dropWhile isHex)
      else .error (.unknownEscape (String.ofList ['\\', c]))

/-- The first character that a text stands for, and what follows. -/
def token : List Char → Except LiteralError (Option (Char × List Char))
  | [] => .ok none
  | c :: cs => if c = '\\' then (escape cs).map some else .ok (some (c, cs))

/-- The text of a string literal. Every round takes at least one character, so the length is enough
rounds. -/
def decodeChars : Nat → List Char → Except LiteralError (List Char)
  | 0, _ => .ok []
  | fuel + 1, s =>
    match token s with
    | .error e => .error e
    | .ok none => .ok []
    | .ok (some (c, rest)) => (decodeChars fuel rest).map (c :: ·)

/-- The text of a string literal, given what stands between its quotes. -/
def decodeString (raw : String) : Except LiteralError String :=
  (decodeChars raw.length raw.toList).map String.ofList

/-! ## Integers -/

/-- The value of an integer literal. -/
def decodeInt (text : String) : Except LiteralError Int64 :=
  match intLiteral? text.toList with
  | some v => .ok v
  | none => .error (.badInteger text)

/-- How many bits of an integer type count for its range; there are at most 64. -/
def rangeBits (target : Target) (kind : IntKind) : Except Abort Nat :=
  (target.bitCount kind).map (min · 64)

/-- Whether a value is in the range of some bits, of which one is for the sign if there is a
sign. -/
def inBits (bits : Nat) (signed : Bool) (v : Int) : Bool :=
  if signed then -(2 : Int) ^ (bits - 1) ≤ v && v ≤ 2 ^ (bits - 1) - 1
  else 0 ≤ v && v ≤ 2 ^ bits - 1

/-- Whether a value is in the range of an integer type. Where there is no bit for the sign the range
has no end. -/
def inRange (target : Target) (kind : IntKind) (signed : Bool) (v : Int) : Except Abort Bool :=
  match rangeBits target kind with
  | .error reason => .error reason
  | .ok bits => if signed ∧ bits = 0 then .error .subtract else .ok (inBits bits signed v)

/-- A type of one byte or more has a range, unless its bits are too many to be counted. -/
theorem inRange_of_sized {target : Target} {kind : IntKind} {signed : Bool} {v : Int}
    (hpos : 1 ≤ (target.integral kind).size) (hsize : (target.integral kind).size < 2 ^ 61) :
    inRange target kind signed v =
      .ok (inBits (min ((target.integral kind).size * 8) 64) signed v) := by
  have hbits : min ((target.integral kind).size * 8) 64 ≠ 0 := by omega
  unfold inRange rangeBits
  rw [Target.bitCount_of_lt hsize]
  exact if_neg fun h => hbits h.2

/-- The kinds that an integer literal with a number of `l` letters can have. -/
def literalKinds (longs : Nat) : List IntKind := [IntKind.int, .long, .longLong].drop longs

/-- The signs that a candidate type can have: unsigned only after a `u`, signed only for a decimal
literal, and both, signed first, for any other. -/
def literalSigns (unsigned decimal : Bool) : List Bool :=
  if unsigned then [false] else if decimal then [true] else [true, false]

/-- The type of an integer literal with the given value: the first candidate that holds it. The
candidates behind it are not looked at. -/
def intLiteralType (target : Target) (text : String) (value : Int64) : Except LiteralError CType :=
  let (body, _) := splitSuffix text.toList
  let suffix := text.toList.drop body.length
  let longs := suffix.countP fun c => c = 'l' || c = 'L'
  let unsigned := suffix.any fun c => c = 'u' || c = 'U'
  let decimal := !(1 < body.length && body.head? = some '0')
  let candidates := (literalKinds longs).flatMap fun k =>
    (literalSigns unsigned decimal).map fun s => (k, s)
  match candidates.findM? fun (k, s) => inRange target k s value.toInt with
  | .error reason => .error (.abort reason)
  | .ok (some (k, s)) => .ok (.integral k s)
  | .ok none => .error (.tooLarge text)

/-- Whether a value fits an integer type, read as signed or as unsigned. -/
def fitsKind (target : Target) (kind : IntKind) (v : Int) : Except Abort Bool :=
  if kind = .bool then .ok (0 ≤ v && v ≤ 1)
  else
    match inRange target kind true v with
    | .ok false => inRange target kind false v
    | found => found

/-- Whether a value fits an integer or enum type. -/
def fitsWidth (target : Target) (t : CType) (value : Int64) : Except Abort Bool :=
  match t with
  | .integral kind _ => fitsKind target kind value.toInt
  | .enum .. => fitsKind target .int value.toInt
  | _ => .ok false

end ForeignCall
