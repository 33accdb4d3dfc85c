import ForeignCall.Text.Blank
import ForeignCall.Text.Numeral
import ForeignCall.Tool.Script.Builtin.Options

/-!
# ForeignCall.Tool.Script.Builtin.Limits

Builtins for what a process passes on to those that it starts: the mask for new files, and limits of
what they can use.

* `maskOf?` — the mask that letters make of another one;
* `limitArgs` — shows or sets limits.
-/

namespace ForeignCall.Script

open Text (Octets octets)

/-! ## Masks -/

/-- The digits of a mask for new files. -/
def maskText (mask : Nat) : Octets :=
  let digits := Nat.toDigits 8 mask
  List.replicate (4 - digits.length) '0' ++ digits

/-- What a mask lets through, for the owner, the group and others. -/
def maskLetters (mask : Nat) : Octets :=
  let letters (shift : Nat) : Octets :=
    [(4, 'r'), (2, 'w'), (1, 'x')].filterMap fun (bit, c) =>
      if (mask >>> shift) &&& bit = 0 then some c else none
  octets "u=" ++ letters 6 ++ octets ",g=" ++ letters 3 ++ octets ",o=" ++ letters 0

/-- The bits of letters that ask for access, given what a mask lets through. -/
def accessBits (mask : Nat) (letters : Octets) : Nat :=
  letters.foldl (fun bits c => bits ||| match c with
    | 'r' => 4
    | 'w' => 2
    | 'x' => 1
    | 'u' => mask >>> 6
    | 'g' => mask >>> 3
    | 'o' => mask
    | 'X' => if mask &&& 0o111 = 0 then 0 else 1
    | _ => 0) 0 &&& 7

/-- What a mask lets through after one more clause of letters, if it is one. -/
def applyClause (mask allowed : Nat) (clause : Octets) : Option Nat :=
  let isWho (c : Char) : Bool := "augo".toList.contains c
  let who := clause.takeWhile isWho
  let places := if who.isEmpty ∨ who.contains 'a' then 0o111 else
    who.foldl (fun places c => places ||| match c with
      | 'u' => 0o100
      | 'g' => 0o10
      | _ => 1) 0
  match clause.dropWhile isWho with
  | sign :: letters =>
    let bits := accessBits mask letters * places
    if !letters.all "rwxugoXs".toList.contains then none
    else
      match sign with
      | '-' => some (allowed &&& (0o777 ^^^ bits))
      | '=' => some (bits ||| (allowed &&& (0o777 ^^^ (places * 7))))
      | '+' => some (allowed ||| bits)
      | _ => none
  | [] => none

/-- The mask that clauses of letters make of another one. -/
def maskOf? (mask : Nat) (text : Octets) : Option Nat :=
  ((Text.splitWhere (· = ',') text).foldlM (applyClause mask) (0o777 ^^^ mask)).map (0o777 ^^^ ·)

/-- Shows or sets the mask for new files. -/
def maskArgs : Builtin := fun args => do
  let (options, operands) ← readOptions ['S'] args
  let s ← get
  let change (mask? : Option Nat) (complaint : String) (text : Octets) : ShellM (Nat × Octets) := do
    match mask? with
    | some mask => set { s with mask := mask % 512 }
    | none => ShellM.fail (octets complaint ++ text)
    pure (0, [])
  match operands with
  | [] =>
    pure (0, (if options.isEmpty then maskText s.mask else maskLetters s.mask) ++ ['\n'])
  | text :: _ =>
    if text.head?.any Char.isDigit then change (Text.ofDigits? 8 text) "Illegal number: " text
    else change (maskOf? s.mask text) "Illegal mode: " text

/-! ## Limits -/

/-- A limit of one of two kinds, in its own unit. -/
def Limit.text (soft : Bool) (x : Limit) : Octets :=
  match if soft then x.soft else x.hard with
  | none => octets "unlimited\n"
  | some n => octets (toString (n / x.factor) ++ "\n")

/-- The number that a limit is set to. -/
def limitOf? (factor : Nat) (text : Octets) : Option (Option Nat) :=
  if text = octets "unlimited" then some none
  else if text.isEmpty then some (some 0)
  else (Text.ofDigits? 10 text).map fun n => some (n * factor % 2 ^ 64)

/-- Whether one limit lies below another one or is the same. -/
def isWithin : Option Nat → Option Nat → Bool
  | _, none => true
  | none, some _ => false
  | some a, some b => a ≤ b

/-- Shows or sets limits: the soft ones, the hard ones, or both. -/
def limitArgs : Builtin := fun args => do
  let s ← get
  let (options, operands) ← readOptions ('H' :: 'S' :: 'a' :: s.limits.map (·.letter)) args
  let kinds := (options.map (·.1)).filter fun c => c = 'H' || c = 'S'
  let soft := kinds.getLast? ≠ some 'H'
  let hard := kinds.getLast? ≠ some 'S'
  let all := options.any (·.1 = 'a')
  let letters := (options.map (·.1)).filter fun c => c ≠ 'H' && c ≠ 'S' && c ≠ 'a'
  let letter := letters.getLast?.getD 'f'
  match operands, s.limits.find? (·.letter = letter) with
  | [], some x =>
    let padded (x : Limit) : Octets :=
      octets x.name ++ List.replicate (20 - x.name.length) ' ' ++ [' ']
    pure (0, if all then s.limits.flatMap fun x => padded x ++ x.text soft else x.text soft)
  | text :: more, some x =>
    if all ∨ !more.isEmpty then ShellM.fail (octets "too many arguments")
    match limitOf? x.factor text with
    | none => ShellM.fail (octets "bad number")
    | some n =>
      let new := { x with soft := if soft then n else x.soft, hard := if hard then n else x.hard }
      if isWithin new.soft new.hard then
        let change (y : Limit) : Limit := if y.letter = letter then new else y
        set { s with limits := s.limits.map change }
        pure (0, [])
      else ShellM.fail (octets "error setting limit (Invalid argument)")
  | _, none => pure (0, [])

end ForeignCall.Script
