import ForeignCall.Json.Source

/-!
# ForeignCall.Json.Reader

Reading records and tagged alternatives from a JSON source tree.

A record is an object with its members by name, or an array with all of them in order. In an object
an optional member may be missing and unknown members are ignored, but none of the record's members
may occur twice. An alternative is an object with one member, whose name tells which it is.
-/

namespace ForeignCall.Json.Source

/-- The text of a string. -/
def string? : Source → Option String
  | .str s => s
  | _ => none

/-- The value of a Boolean. -/
def bool? : Source → Option Bool
  | .bool b => some b
  | _ => none

/-- An integer from zero up to a limit. -/
def nat? (limit : Nat) : Source → Option Nat
  | .num (some (.int n)) => if 0 ≤ n ∧ n ≤ limit then some n.toNat else none
  | _ => none

/-- The items of an array. -/
def items? : Source → Option (List Source)
  | .arr items => some items
  | _ => none

/-- The strings of an array. -/
def strings? (j : Source) : Option (List String) := j.items?.bind fun items => items.mapM string?

/-- What null or a missing member stands for, or a value. -/
def optional {α : Type} (read : Source → Option α) : Option Source → Option (Option α)
  | none | some .null => some none
  | some j => (read j).map some

/-- The name and the content of an alternative. -/
def alternative? : Source → Option (String × Source)
  | .obj [(some tag, body)] => some (tag, body)
  | _ => none

/-- The value of the one member with a given name; `some none` without such a member, and `none` if
there are several. -/
def member? (name : String) (members : List (Option String × Source)) : Option (Option Source) :=
  match members.filter (·.1 = some name) with
  | [] => some none
  | [m] => some (some m.2)
  | _ => none

/-- The members of a record. As an array it has to have at least `least` items. -/
def record? (names : List String) (least : Nat) : Source → Option (List (Option Source))
  | .obj members =>
    if members.any (·.1.isNone) then none else names.mapM fun name => member? name members
  | .arr items =>
    if least ≤ items.length ∧ items.length ≤ names.length then
      some (items.map some ++ List.replicate (names.length - items.length) none)
    else none
  | _ => none

/-- The members of a record that is the content of an alternative. Only where records may be
`positional` in that place can it be an array. -/
def content? (positional : Bool) (names : List String) (j : Source) :
    Option (List (Option Source)) :=
  match j with
  | .arr _ => if positional then record? names names.length j else none
  | _ => record? names names.length j

/-- An alternative without content: its name alone, or an object with null. -/
def unitAlternative? (depth : Nat) : Source → Option String
  | .str s => s
  | .obj [(some tag, .null)] => if 0 < depth then some tag else none
  | _ => none

end ForeignCall.Json.Source
