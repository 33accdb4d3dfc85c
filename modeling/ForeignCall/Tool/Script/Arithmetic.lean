import ForeignCall.Instances
import ForeignCall.Text.Numeral
import ForeignCall.Tool.Script.Basic

/-!
# ForeignCall.Tool.Script.Arithmetic

Expressions with numbers of 64 bits, which wrap. They hold numbers in base ten, eight and sixteen,
variables, assignments and the operators of C without those that count up and down. What does not
count for the value is read, but not evaluated.

* `evaluateText` — the value of an expression, and the assignments that it makes.
-/

namespace ForeignCall.Script

open Text (Octets octets)

/-- A token of an expression. -/
inductive Symbol where
  | number (n : Int64)
  | name (text : Octets)
  | sign (text : String)
  /-- A character that no expression holds. -/
  | other
deriving DecidableEq

/-- Why an expression has no value. -/
inductive ArithmeticError where
  /-- The expression is malformed or divides by zero. -/
  | expression (text : String)
  /-- A variable holds something else than a number. -/
  | illegalNumber (text : Octets)
  /-- The least number is divided by minus one, which no processor does. -/
  | tooLarge
deriving DecidableEq

/-! ## Numbers -/

/-- The greatest and the least number. -/
def maxNumber : Int := 2 ^ 63 - 1

/-- The least number. -/
def minNumber : Int := -(2 ^ 63)

/-- A blank around a number. -/
def isNumberBlank (c : Char) : Bool := c = ' ' || (9 ≤ c.toNat && c.toNat ≤ 13)

/-- A text without a sign, and whether it is a minus sign. -/
def splitSign : Octets → Bool × Octets
  | '-' :: rest => (true, rest)
  | '+' :: rest => (false, rest)
  | cs => (false, cs)

/-- A number with a sign. -/
def withSign (negative : Bool) (n : Nat) : Int := if negative then -(n : Int) else n

/-- The number in base ten that a whole text is, with blanks around it. -/
def decimalOf? (text : Octets) : Option Int :=
  let (negative, body) := splitSign (text.dropWhile isNumberBlank)
  let n := (Text.ofDigits? 10 (body.takeWhile Char.isDigit)).map (withSign negative)
  n.filter fun n =>
    (body.dropWhile Char.isDigit).all isNumberBlank && minNumber ≤ n && n ≤ maxNumber

/-- The base of a number that is written down, its digits and what follows them. -/
def splitDigits (cs : Octets) : Nat × Octets × Octets :=
  let split (base : Nat) (cs : Octets) : Nat × Octets × Octets :=
    let fits (c : Char) : Bool := (Text.digitIn base c).isSome
    (base, cs.takeWhile fits, cs.dropWhile fits)
  match cs with
  | '0' :: x :: c :: rest =>
    if (x = 'x' ∨ x = 'X') ∧ (Text.digitIn 16 c).isSome then split 16 (c :: rest) else split 8 cs
  | '0' :: _ => split 8 cs
  | _ => split 10 cs

/-- The number at the start of a text, with blanks and a sign in front of it, and what follows it;
`none` if there is no digit. -/
def readNumber? (cs : Octets) : Option (Int × Octets) :=
  let (negative, body) := splitSign (cs.dropWhile isNumberBlank)
  let (base, digits, rest) := splitDigits body
  (Text.ofDigits? base digits).map fun n => (withSign negative n, rest)

/-- A number brought into the range. -/
def clampNumber (n : Int) : Int64 := Int64.ofInt (max minNumber (min maxNumber n))

/-- The number that a whole text is, with blanks around it; nothing stands for zero. -/
def numberOf? (text : Octets) : Option Int64 :=
  match readNumber? text with
  | some (n, rest) =>
    if rest.all isNumberBlank ∧ minNumber ≤ n ∧ n ≤ maxNumber then some (Int64.ofInt n) else none
  | none => if text.all isNumberBlank then some 0 else none

/-! ## Tokens -/

/-- The signs, longer ones before their beginnings. -/
def signs : List String :=
  ["<<=", ">>=", "<<", ">>", "<=", ">=", "==", "!=", "&&", "||", "*=", "/=", "%=", "+=", "-=", "&=",
   "|=", "^=", "<", ">", "=", "!", "*", "/", "%", "+", "-", "&", "|", "^", "~", "?", ":", "(", ")"]

/-- The tokens of a text. -/
def symbols : Nat → Octets → List Symbol
  | 0, _ => []
  | _, [] => []
  | fuel + 1, c :: cs =>
    if c = ' ' ∨ c = '\t' ∨ c = '\n' then symbols fuel cs
    else if c.isDigit then
      match readNumber? (c :: cs) with
      | some (n, rest) => .number (clampNumber n) :: symbols fuel rest
      | none => [.other]
    else if isNameStart c then
      .name ((c :: cs).takeWhile isNameChar) :: symbols fuel ((c :: cs).dropWhile isNameChar)
    else
      match signs.find? fun sign => sign.toList.isPrefixOf (c :: cs) with
      | some sign => .sign sign :: symbols fuel ((c :: cs).drop sign.length)
      | none => [.other]

/-! ## Values -/

/-- An expression that is being evaluated. -/
structure Calculation where
  rest : List Symbol
  /-- The values of variables. -/
  lookup : Octets → Option Octets
  /-- The assignments that have been made, the last one first. -/
  assigned : List (Octets × Octets) := []

/-- What takes something off an expression. -/
abbrev Calc := EStateM ArithmeticError Calculation

namespace Calc

/-- The expression has no value. -/
def fail {α : Type} (text : String) : Calc α := throw (.expression text)

/-- The next token, which stays. -/
def look : Calc (Option Symbol) := do pure (← get).rest.head?

/-- Takes a token. -/
def skip : Calc Unit := modify fun s => { s with rest := s.rest.tail }

/-- The number that a variable holds. -/
def valueOf (name : Octets) : Calc Int64 := do
  let s ← get
  let text := ((s.assigned.lookup name) <|> s.lookup name).getD []
  match numberOf? text with
  | some n => pure n
  | none => throw (.illegalNumber text)

/-- The number for a truth value. -/
def ofBool (b : Bool) : Int64 := if b then 1 else 0

/-- Finds whether a number can be divided by another one. -/
def checkDivision (a b : Int64) : Calc Unit := do
  if b = 0 then fail "division by zero"
  if a = Int64.minValue ∧ b = -1 then throw .tooLarge

/-- The value of an operator. -/
def binary (sign : String) (a b : Int64) : Calc Int64 :=
  match sign with
  | "*" => pure (a * b)
  | "/" => do checkDivision a b; pure (a / b)
  | "%" => do checkDivision a b; pure (a % b)
  | "+" => pure (a + b)
  | "-" => pure (a - b)
  | "<<" => pure (a <<< b)
  | ">>" => pure (a >>> b)
  | "<" => pure (ofBool (a < b))
  | "<=" => pure (ofBool (a ≤ b))
  | ">" => pure (ofBool (b < a))
  | ">=" => pure (ofBool (b ≤ a))
  | "==" => pure (ofBool (a = b))
  | "!=" => pure (ofBool (a ≠ b))
  | "&" => pure (a &&& b)
  | "^" => pure (a ^^^ b)
  | "|" => pure (a ||| b)
  | _ => pure b

/-- The operators with two sides, those that bind weakest first. -/
def levels : List (List String) :=
  [["|"], ["^"], ["&"], ["==", "!="], ["<", "<=", ">", ">="], ["<<", ">>"], ["+", "-"],
   ["*", "/", "%"]]

/-- The operators that assign, each with the one that it applies first. -/
def assignments : List (String × String) :=
  [("=", ""), ("*=", "*"), ("/=", "/"), ("%=", "%"), ("+=", "+"), ("-=", "-"), ("<<=", "<<"),
   (">>=", ">>"), ("&=", "&"), ("^=", "^"), ("|=", "|")]

/-- Repeats a step on a value as long as there is one. -/
def repeatWhile (step : Int64 → Calc (Option Int64)) : Nat → Int64 → Calc Int64
  | 0, a => pure a
  | n + 1, a => do
    match ← step a with
    | some b => repeatWhile step n b
    | none => pure a

/-- How many steps an expression can take at most. -/
def bound : Calc Nat := do pure ((← get).rest.length + 1)

/-- A number, a variable, an expression in parentheses, or one of these behind signs. With `idle`
nothing is evaluated. -/
def primary (whole : Bool → Calc Int64) (idle : Bool) : Nat → Calc Int64
  | 0 => fail "expecting primary"
  | n + 1 => do
    let symbol ← look
    skip
    match symbol with
    | some (.number v) => pure v
    | some (.name text) => if idle then pure 0 else valueOf text
    | some (.sign "(") =>
      let v ← whole idle
      if (← look) = some (.sign ")") then skip; pure v
      else fail "expecting ')'"
    | some (.sign "+") => primary whole idle n
    | some (.sign "-") => do pure (-(← primary whole idle n))
    | some (.sign "!") => do pure (ofBool ((← primary whole idle n) = 0))
    | some (.sign "~") => do pure (~~~(← primary whole idle n))
    | _ => fail "expecting primary"

/-- Operators with two sides. -/
def operators (whole : Bool → Calc Int64) (idle : Bool) : List (List String) → Calc Int64
  | [] => do primary whole idle (← bound)
  | level :: higher => do
    let first ← operators whole idle higher
    repeatWhile (fun a => do
      match ← look with
      | some (.sign sign) =>
        if level.contains sign then
          skip
          let b ← operators whole idle higher
          some <$> (if idle then pure b else binary sign a b)
        else pure none
      | _ => pure none) (← bound) first

/-- Expressions that are joined by one of the logical operators; `stops` tells for which values the
rest does not count. -/
def logical (sign : String) (stops : Int64 → Bool) (result : Int64 → Int64 → Bool)
    (part : Bool → Calc Int64) (idle : Bool) : Calc Int64 := do
  let first ← part idle
  repeatWhile (fun a => do
    if (← look) = some (.sign sign) then
      skip
      let b ← part (idle || stops a)
      pure (some (ofBool (result a b)))
    else pure none) (← bound) first

/-- Conjunctions. -/
def conjunction (whole : Bool → Calc Int64) : Bool → Calc Int64 :=
  logical "&&" (· = 0) (fun a b => a ≠ 0 && b ≠ 0) fun idle => operators whole idle levels

/-- Disjunctions. -/
def disjunction (whole : Bool → Calc Int64) : Bool → Calc Int64 :=
  logical "||" (· ≠ 0) (fun a b => a ≠ 0 || b ≠ 0) (conjunction whole)

/-- A choice between two expressions. -/
def choice (whole : Bool → Calc Int64) : Nat → Bool → Calc Int64
  | 0, _ => fail "expecting primary"
  | n + 1, idle => do
    let a ← disjunction whole idle
    if (← look) = some (.sign "?") then
      skip
      let b ← whole (idle || a = 0)
      if (← look) = some (.sign ":") then
        skip
        let c ← choice whole n (idle || a ≠ 0)
        pure (if a ≠ 0 then b else c)
      else fail "expecting ':'"
    else pure a

/-- The operator of an assignment, and what it assigns to. -/
def assignment? : List Symbol → Option (Octets × String)
  | .name text :: .sign sign :: _ => (assignments.lookup sign).map fun op => (text, op)
  | _ => none

/-- An expression, with a bound on how deep expressions lie in each other. -/
def expression : Nat → Bool → Calc Int64
  | 0, _ => fail "expecting primary"
  | n + 1, idle => do
    match assignment? (← get).rest with
    | some (name, op) =>
      skip
      skip
      let v ← expression n idle
      if idle then pure v
      else
        let v ← if op.isEmpty then pure v else binary op (← valueOf name) v
        modify fun s => { s with assigned := (name, (toString v).toList) :: s.assigned }
        pure v
    | none => choice (expression n) (n + 1) idle

end Calc

/-- The value of an expression, and the assignments that it makes; they are made up to an error,
too. -/
def evaluateText (lookup : Octets → Option Octets) (text : Octets) :
    Except ArithmeticError Int64 × List (Octets × Octets) :=
  let tokens := symbols (text.length + 1) text
  match (Calc.expression (tokens.length + 2) false).run { rest := tokens, lookup := lookup } with
  | .error e s => (.error e, s.assigned.reverse)
  | .ok v s =>
    (if s.rest.isEmpty then .ok v else .error (.expression "expecting EOF"), s.assigned.reverse)

/-- The text of an error, in an expression. -/
def ArithmeticError.message (expression : Octets) : ArithmeticError → Octets
  | .expression text =>
    octets ("arithmetic expression: " ++ text ++ ": \"") ++ expression ++ ['"']
  | .illegalNumber text => octets "Illegal number: " ++ text
  | .tooLarge => octets "Floating point exception"

end ForeignCall.Script
