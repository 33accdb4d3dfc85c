import ForeignCall.Tool.Script.Arithmetic

/-!
# ForeignCall.Tool.Script.Condition

Conditions of a shell: comparisons of texts and numbers, questions about files, and what is put
together from these with `!`, `-a`, `-o` and parentheses. What looks like an operator can be an
operand, depending on how many arguments there are.

* `testArgs` — whether the condition that arguments make up holds.
-/

namespace ForeignCall.Script

open Text (Octets octets)

/-- What an argument of a condition is. -/
inductive TestToken where
  | endOfArgs | operand | no | conjunction | disjunction | openParen | closeParen
  | unary (letter : Char)
  | binary (name : String)
deriving DecidableEq

/-- The operators with two sides. -/
def binaryTests : List String :=
  ["=", "!=", "<", ">", "-eq", "-ne", "-gt", "-ge", "-lt", "-le", "-nt", "-ot", "-ef"]

/-- The letters of the operators with one side. -/
def unaryTests : List Char := "rwxefdcbpugkstznhOGLS".toList

/-- The operator that a text is. -/
def testOperator? (text : Octets) : Option TestToken :=
  match String.ofList text with
  | "!" => some .no
  | "-a" => some .conjunction
  | "-o" => some .disjunction
  | "(" => some .openParen
  | ")" => some .closeParen
  | name =>
    if binaryTests.contains name then some (.binary name)
    else
      match text with
      | ['-', c] => if unaryTests.contains c then some (.unary c) else none
      | _ => none

/-- Whether an operator with one side is taken for an operand, because of what follows it. -/
def isOperandBefore : List Octets → Bool
  | [] => true
  | [_] => false
  | next :: _ =>
    match testOperator? next with
    | some (.binary _) => true
    | _ => false

/-- What the first of the arguments is. -/
def testToken : List Octets → TestToken
  | [] => .endOfArgs
  | text :: rest =>
    match testOperator? text with
    | some (.unary c) => if isOperandBefore rest then .operand else .unary c
    | some .openParen => if rest.isEmpty then .operand else .openParen
    | some t => t
    | none => .operand

/-- What reads arguments of a condition, from the current one on; it can find them malformed. -/
abbrev TestM := StateT (List Octets) (Except Octets)

/-- What a condition asks about its surroundings. -/
structure Surroundings where
  /-- Whether a file is what a letter asks for. -/
  isFile : Char → Octets → Bool
  /-- Whether two paths lead to the same file. -/
  isSame : Octets → Octets → Bool

namespace TestM

/-- The arguments are malformed at one of them. -/
def fail {α : Type} (at? : Octets) (text : String) : TestM α :=
  throw (if at?.isEmpty then octets text else at? ++ octets (": " ++ text))

/-- Goes on to the next argument. -/
def advance : TestM Unit := modify List.tail

/-- The current argument. -/
def current : TestM Octets := do pure ((← get).headD [])

/-- The number that a text is. -/
def number (text : Octets) : TestM Int :=
  match decimalOf? text with
  | some n => pure n
  | none => throw (octets "Illegal number: " ++ text)

/-- The value of an operator with two sides. All files have the same age. -/
def compare (around : Surroundings) (name : String) (a b : Octets) : TestM Bool := do
  match name with
  | "=" => pure (a = b)
  | "!=" => pure (a ≠ b)
  | "<" => pure (decide (a < b))
  | ">" => pure (decide (b < a))
  | "-eq" => do pure ((← number a) = (← number b))
  | "-ne" => do pure ((← number a) ≠ (← number b))
  | "-gt" => do pure (decide ((← number b) < (← number a)))
  | "-ge" => do pure (decide ((← number b) ≤ (← number a)))
  | "-lt" => do pure (decide ((← number a) < (← number b)))
  | "-le" => do pure (decide ((← number a) ≤ (← number b)))
  | "-ef" => pure (around.isSame a b)
  | _ => pure false

/-- A comparison, from its left side on. -/
def comparison (around : Surroundings) (name : String) : TestM Bool := do
  let a ← current
  advance
  let operator ← current
  advance
  match ← get with
  | [] => fail operator "argument expected"
  | b :: _ => compare around name a b

/-- The smallest parts of a condition. No descriptor is a terminal. -/
def primary (around : Surroundings) (whole : TestToken → TestM Bool) (t : TestToken) :
    TestM Bool := do
  match t with
  | .endOfArgs => pure false
  | .openParen =>
    advance
    let t := testToken (← get)
    if t = .closeParen then pure false
    else
      let result ← whole t
      advance
      if testToken (← get) = .closeParen then pure result
      else fail [] "closing paren expected"
  | .unary c =>
    let operator ← current
    advance
    match ← get with
    | [] => fail operator "argument expected"
    | x :: _ =>
      match c with
      | 'z' => pure x.isEmpty
      | 'n' => pure !x.isEmpty
      | 't' => do
        let _ ← number x
        pure false
      | c => pure (around.isFile c x)
  | _ =>
    match testToken (← get).tail with
    | .binary name => comparison around name
    | _ => pure !(← current).isEmpty

/-- A part with or without negations. -/
def negated (around : Surroundings) (whole : TestToken → TestM Bool) :
    Nat → TestToken → TestM Bool
  | 0, t => primary around whole t
  | n + 1, t => do
    if t = .no then
      let next := testToken (← get).tail
      if next ≠ .endOfArgs then advance
      pure !(← negated around whole n next)
    else primary around whole t

/-- Parts that are joined by an operator. -/
def joined (joint : TestToken) (join : Bool → Bool → Bool) (part : TestToken → TestM Bool) :
    Nat → Bool → TestToken → TestM Bool
  | 0, result, _ => pure result
  | n + 1, result, t => do
    let result := join result (← part t)
    if testToken (← get).tail = joint then
      advance
      advance
      joined joint join part n result (testToken (← get))
    else pure result

/-- A condition, with a bound on how deep conditions lie in each other. -/
def condition (around : Surroundings) : Nat → TestToken → TestM Bool
  | 0, _ => pure false
  | n + 1, t =>
    let conjunction := joined .conjunction (· && ·) (negated around (condition around n) (n + 1))
      (n + 1) true
    joined .disjunction (· || ·) conjunction (n + 1) false t

end TestM

/-- Whether the condition of arguments holds, from a token on. -/
def evaluateTest (around : Surroundings) (t : TestToken) (args : List Octets) :
    Except Octets Bool :=
  match (TestM.condition around (args.length + 1) t).run args with
  | .error e => .error e
  | .ok (result, rest) =>
    match rest with
    | [] :: _ :: _ => .error (octets "unexpected operator")
    | x :: _ :: _ => .error (x ++ octets ": unexpected operator")
    | _ => .ok result

/-- Whether the condition that arguments make up holds. With three or four arguments parentheses and
a negation around them come first. -/
def testArgs (around : Surroundings) : List Octets → Except Octets Bool
  | [] => .ok false
  | [a, b, c] =>
    match testOperator? b with
    | some (.binary _) => evaluateTest around .operand [a, b, c]
    | _ =>
      if a = ['('] ∧ c = [')'] then evaluateTest around (testToken [b]) [b]
      else if a = ['!'] then (testArgs around [b, c]).map (!·)
      else evaluateTest around (testToken [a, b, c]) [a, b, c]
  | [a, b, c, d] =>
    if a = ['('] ∧ d = [')'] then evaluateTest around (testToken [b, c]) [b, c]
    else if a = ['!'] then (testArgs around [b, c, d]).map (!·)
    else evaluateTest around (testToken [a, b, c, d]) [a, b, c, d]
  | args => evaluateTest around (testToken args) args

end ForeignCall.Script
