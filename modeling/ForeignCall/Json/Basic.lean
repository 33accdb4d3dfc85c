import ForeignCall.Instances

/-!
# ForeignCall.Json.Basic

JSON documents. The members of an object keep their order, and each name occurs once.

* `Json.get?` — the member of an object;
* `Json.put` — sets a member, which keeps its place if the object has it already.
-/

namespace ForeignCall

/-- A JSON number: an integer that fits a signed or an unsigned word of 64 bits, or a floating
point number. -/
inductive Json.Number where
  | int (value : Int)
  | float (value : Float)

/-- A JSON document. -/
inductive Json where
  | null
  | bool (value : Bool)
  | num (value : Json.Number)
  | str (value : String)
  | arr (items : List Json)
  | obj (members : List (String × Json))

namespace Json

instance : Inhabited Json := ⟨.null⟩

/-- The largest unsigned word of 64 bits. -/
def maxWord : Nat := 2 ^ 64 - 1

/-- The document of an integer. -/
def int (n : Int) : Json := .num (.int n)

/-- The document of a natural number. -/
def nat (n : Nat) : Json := .num (.int n)

/-- The document of an optional value; absence is null. -/
def opt {α : Type} (encode : α → Json) : Option α → Json
  | none => .null
  | some a => encode a

/-- The members of an object with `key` set to `value`. A member that is there keeps its place. -/
def put (members : List (String × Json)) (key : String) (value : Json) : List (String × Json) :=
  if members.any (·.1 = key) then members.map fun m => if m.1 = key then (key, value) else m
  else members ++ [(key, value)]

/-- The value of the first member that is called `key`. -/
def lookup (key : String) (members : List (String × Json)) : Option Json :=
  (members.find? (·.1 = key)).map (·.2)

/-- The member `key` of an object. -/
def get? (key : String) : Json → Option Json
  | .obj members => lookup key members
  | _ => none

/-- The members of an object. -/
def members? : Json → Option (List (String × Json))
  | .obj members => some members
  | _ => none

/-- The items of an array. -/
def items? : Json → Option (List Json)
  | .arr items => some items
  | _ => none

/-- The text of a string. -/
def str? : Json → Option String
  | .str s => some s
  | _ => none

/-- The value of a Boolean. -/
def bool? : Json → Option Bool
  | .bool b => some b
  | _ => none

/-- An integer from 0 to 2⁶⁴ − 1. -/
def word? : Json → Option UInt64
  | .num (.int n) => if 0 ≤ n ∧ n ≤ maxWord then some (UInt64.ofNat n.toNat) else none
  | _ => none

/-- An integer from −2⁶³ to 2⁶³ − 1. -/
def int64? : Json → Option Int64
  | .num (.int n) => if -(2 : Int) ^ 63 ≤ n ∧ n < 2 ^ 63 then some (Int64.ofInt n) else none
  | _ => none

end Json

end ForeignCall
