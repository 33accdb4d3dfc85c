import ForeignCall.Json.Basic
import ForeignCall.Text.Numeral

/-!
# ForeignCall.Json.Source

JSON text, read as it stands: an object may name a member twice, a number may be out of range, and
the escapes of a string may name no character. A reader decides later which of these it minds,
because parts that nobody looks at may hold any of them.

* `Source.ofText?` — the source tree of a text;
* `Source.toJson?` — the document, unless a part of it has no value; of two members with one name
  the later value counts, at the place of the first.
-/

namespace ForeignCall.Json

/-- The tree of a JSON text. -/
inductive Source where
  | null
  | bool (value : Bool)
  /-- A number; `none` when its value is beyond every floating point number. -/
  | num (value : Option Number)
  /-- A string; `none` when an escape in it names half a character. -/
  | str (value : Option String)
  | arr (items : List Source)
  | obj (members : List (Option String × Source))

namespace Source

instance : Inhabited Source := ⟨.null⟩

/-- Blanks between the tokens of a JSON text. -/
def isSpace (c : Char) : Bool := c = ' ' || c = '\n' || c = '\t' || c = '\r'

/-- The text from its next token on. -/
def skip (s : List Char) : List Char := s.dropWhile isSpace

/-! ## Strings -/

/-- The value of four hexadecimal digits and the text behind them. -/
def hex4 : List Char → Option (Nat × List Char)
  | a :: b :: c :: d :: rest => (Text.ofDigits? 16 [a, b, c, d]).map fun n => (n, rest)
  | _ => none

/-- The character of a simple escape. -/
def simpleEscape (c : Char) : Option Char :=
  if c = '"' ∨ c = '\\' ∨ c = '/' then some c
  else if c = 'b' then some (Char.ofNat 8)
  else if c = 'f' then some (Char.ofNat 12)
  else if c = 'n' then some '\n'
  else if c = 'r' then some '\r'
  else if c = 't' then some '\t'
  else none

/-- The rest of a string behind its opening quote. The first part is `none` from the point where
an escape names half a character. -/
def string : Nat → List Char → Option (Option (List Char) × List Char)
  | 0, _ => none
  | _, [] => none
  | fuel + 1, c :: cs =>
    if c = '"' then some (some [], cs)
    else if c.toNat < 32 then none
    else if c = '\\' then
      match cs with
      | 'u' :: digits =>
        (hex4 digits).bind fun (n, rest) =>
          if 0xD800 ≤ n ∧ n < 0xDC00 then
            match rest with
            | '\\' :: 'u' :: more =>
              (hex4 more).bind fun (m, rest) =>
                if 0xDC00 ≤ m ∧ m < 0xE000 then
                  (string fuel rest).map fun (s, rest) =>
                    (s.map (Char.ofNat (0x10000 + (n - 0xD800) * 1024 + (m - 0xDC00)) :: ·), rest)
                else (string fuel rest).map fun (_, rest) => (none, rest)
            | _ => (string fuel rest).map fun (_, rest) => (none, rest)
          else if 0xDC00 ≤ n ∧ n < 0xE000 then
            (string fuel rest).map fun (_, rest) => (none, rest)
          else (string fuel rest).map fun (s, rest) => (s.map (Char.ofNat n :: ·), rest)
      | e :: rest =>
        (simpleEscape e).bind fun c =>
          (string fuel rest).map fun (s, rest) => (s.map (c :: ·), rest)
      | [] => none
    else (string fuel cs).map fun (s, rest) => (s.map (c :: ·), rest)

/-! ## Numbers -/

/-- The text of a number, in parts. -/
structure Lexeme where
  negative : Bool
  whole : List Char
  fraction : List Char
  /-- The exponent: whether it is negative, and its digits. -/
  exponent : Option (Bool × List Char)

/-- The digits at the start of a text and what follows them. -/
def digits (s : List Char) : List Char × List Char :=
  (s.takeWhile Char.isDigit, s.dropWhile Char.isDigit)

/-- The fraction behind a point, with at least one digit. -/
def fractionOf : List Char → Option (List Char × List Char)
  | '.' :: rest =>
    let (ds, rest) := digits rest
    if ds.isEmpty then none else some (ds, rest)
  | rest => some ([], rest)

/-- The sign of an exponent and what follows it. -/
def exponentSign : List Char → Bool × List Char
  | '-' :: rest => (true, rest)
  | '+' :: rest => (false, rest)
  | rest => (false, rest)

/-- The exponent, with at least one digit. -/
def exponentOf (s : List Char) : Option (Option (Bool × List Char) × List Char) :=
  match s with
  | c :: rest =>
    if c = 'e' ∨ c = 'E' then
      let (negative, rest) := exponentSign rest
      let (ds, rest) := digits rest
      if ds.isEmpty then none else some (some (negative, ds), rest)
    else some (none, s)
  | [] => some (none, s)

/-- A number at the start of a text. A leading zero stands alone. -/
def lexeme (s : List Char) : Option (Lexeme × List Char) :=
  let (negative, s) := match s with
    | '-' :: rest => (true, rest)
    | _ => (false, s)
  let (whole, rest) := digits s
  if whole.isEmpty ∨ (whole.head? = some '0' ∧ 1 < whole.length) then none
  else
    (fractionOf rest).bind fun (fraction, rest) =>
      (exponentOf rest).map fun (exponent, rest) => (⟨negative, whole, fraction, exponent⟩, rest)

/-- Takes digits into a significand as long as it stays a word of 64 bits; gives the significand
and how many digits are left over. -/
def takeDigits : Nat → List Char → Nat × Nat
  | acc, [] => (acc, 0)
  | acc, c :: cs =>
    let next := acc * 10 + (c.toNat - 48)
    if next ≤ maxWord then takeDigits next cs else (acc, cs.length + 1)

/-- The floating point number next to `10 ^ e`, for `e` up to 308. -/
def powerOfTen (e : Nat) : Float := Float.ofScientific 1 false e

/-- A significand times a power of ten, in steps that each round; `none` beyond the largest
number. -/
def scaleFloat : Nat → Float → Int → Option Float
  | 0, x, _ => some x
  | fuel + 1, x, e =>
    if e.natAbs ≤ 308 then
      if 0 ≤ e then
        let y := x * powerOfTen e.natAbs
        if y.isInf then none else some y
      else some (x / powerOfTen e.natAbs)
    else if x == 0 then some x
    else if 0 ≤ e then none
    else scaleFloat fuel (x / powerOfTen 308) (e + 308)

/-- The value of a number; `none` when it is out of range. An integer that fits 64 bits is exact;
any other number is a floating point number, and so is minus zero. -/
def Lexeme.value (l : Lexeme) : Option Number :=
  let (w, dropped) := takeDigits 0 l.whole
  let float (significand : Nat) (e : Int) : Option Number :=
    (scaleFloat 5 (Float.ofNat significand) e).map fun x => .float (if l.negative then -x else x)
  if l.fraction.isEmpty ∧ l.exponent.isNone ∧ dropped = 0 then
    if !l.negative then some (.int w)
    else if 0 < w ∧ w ≤ 2 ^ 63 then some (.int (-w))
    else some (.float (-(Float.ofNat w)))
  else
    let (significand, taken) :=
      if l.fraction.isEmpty then (w, 0)
      else
        let (f, left) := takeDigits w l.fraction
        (f, l.fraction.length - left)
    let start : Int := (dropped : Int) - taken
    match l.exponent with
    | none => float significand start
    | some (negative, ds) =>
      let e := (Text.ofDigits? 10 ds).getD 0
      if 2 ^ 31 ≤ e then
        if significand ≠ 0 ∧ !negative then none
        else some (.float (if l.negative then -0.0 else 0.0))
      else float significand (if negative then start - e else start + e)

/-! ## Values -/

/-- The text behind a keyword. -/
def keyword (word : List Char) (s : List Char) : Option (List Char) :=
  if word.isPrefixOf s then some (s.drop word.length) else none

mutual

/-- A value at the start of a text. -/
def value : Nat → List Char → Option (Source × List Char)
  | 0, _ => none
  | fuel + 1, s =>
    match skip s with
    | [] => none
    | c :: cs =>
      if c = '{' then
        match skip cs with
        | '}' :: rest => some (.obj [], rest)
        | rest => (members fuel rest).map fun (ms, rest) => (.obj ms, rest)
      else if c = '[' then
        match skip cs with
        | ']' :: rest => some (.arr [], rest)
        | rest => (items fuel rest).map fun (js, rest) => (.arr js, rest)
      else if c = '"' then
        (string (cs.length + 1) cs).map fun (t, rest) => (.str (t.map String.ofList), rest)
      else if c = 'n' then (keyword ['u', 'l', 'l'] cs).map fun rest => (.null, rest)
      else if c = 't' then (keyword ['r', 'u', 'e'] cs).map fun rest => (.bool true, rest)
      else if c = 'f' then (keyword ['a', 'l', 's', 'e'] cs).map fun rest => (.bool false, rest)
      else (lexeme (c :: cs)).map fun (l, rest) => (.num l.value, rest)

/-- The items of an array up to its closing bracket; there is at least one. -/
def items : Nat → List Char → Option (List Source × List Char)
  | 0, _ => none
  | fuel + 1, s =>
    (value fuel s).bind fun (j, rest) =>
      match skip rest with
      | ',' :: rest => (items fuel rest).map fun (js, rest) => (j :: js, rest)
      | ']' :: rest => some ([j], rest)
      | _ => none

/-- The members of an object up to its closing brace; there is at least one. -/
def members : Nat → List Char → Option (List (Option String × Source) × List Char)
  | 0, _ => none
  | fuel + 1, s =>
    match skip s with
    | '"' :: cs =>
      (string (cs.length + 1) cs).bind fun (key, rest) =>
        match skip rest with
        | ':' :: rest =>
          (value fuel rest).bind fun (j, rest) =>
            let member := (key.map String.ofList, j)
            match skip rest with
            | ',' :: rest => (members fuel rest).map fun (ms, rest) => (member :: ms, rest)
            | '}' :: rest => some ([member], rest)
            | _ => none
        | _ => none
    | _ => none

end

/-- The tree of a text that holds one value and nothing else. -/
def ofText? (s : String) : Option Source :=
  let cs := s.toList
  (value (2 * cs.length + 2) cs).bind fun (j, rest) => if (skip rest).isEmpty then some j else none

/-! ## Documents -/

mutual

/-- The document of a source tree whose containers are nested at most `depth` deep. -/
def toJson? : Nat → Source → Option Json
  | _, .null => some .null
  | _, .bool b => some (.bool b)
  | _, .num n => n.map .num
  | _, .str s => s.map .str
  | 0, .arr _ => none
  | 0, .obj _ => none
  | depth + 1, .arr js => (itemsToJson? depth js).map .arr
  | depth + 1, .obj ms => (membersToJson? depth [] ms).map .obj

/-- The documents of the items of an array. -/
def itemsToJson? : Nat → List Source → Option (List Json)
  | _, [] => some []
  | depth, j :: js => (toJson? depth j).bind fun j => (itemsToJson? depth js).map (j :: ·)

/-- The members of an object, added to those that came before. -/
def membersToJson? :
    Nat → List (String × Json) → List (Option String × Source) → Option (List (String × Json))
  | _, done, [] => some done
  | depth, done, (k, j) :: ms =>
    k.bind fun k => (toJson? depth j).bind fun j => membersToJson? depth (put done k j) ms

end

mutual

/-- The source tree of a document. -/
def ofJson : Json → Source
  | .null => .null
  | .bool b => .bool b
  | .num n => .num (some n)
  | .str s => .str (some s)
  | .arr js => .arr (ofItems js)
  | .obj ms => .obj (ofMembers ms)

/-- The source trees of the items of an array. -/
def ofItems : List Json → List Source
  | [] => []
  | j :: js => ofJson j :: ofItems js

/-- The source trees of the members of an object. -/
def ofMembers : List (String × Json) → List (Option String × Source)
  | [] => []
  | (k, j) :: ms => (some k, ofJson j) :: ofMembers ms

end

end Source

/-- How deep the containers of a document may be nested. -/
def maxDepth : Nat := 127

/-- The document of a JSON text. -/
def ofText? (s : String) : Option Json := (Source.ofText? s).bind (Source.toJson? maxDepth)

end ForeignCall.Json
