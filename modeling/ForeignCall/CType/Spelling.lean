import ForeignCall.Abort
import ForeignCall.CType.Basic

/-!
# ForeignCall.CType.Spelling

The type that a list of keywords spells. The keywords of an integer type may stand in any order,
and the signed and the natural size may be left out: `unsigned long long int`, `long unsigned long`
and `long long unsigned` spell one type. So the keywords are counted, and only the counts matter.

Each count is kept in a byte. A keyword that does not fit its count any more ends the program, even
if the list would spell no type anyway. A word that is no keyword of an integer type ends the
counting, and then the list spells nothing.
-/

namespace ForeignCall.CType

/-- How often each keyword of an integer type occurs. -/
structure KeywordCounts where
  signed : Nat := 0
  unsigned : Nat := 0
  short : Nat := 0
  long : Nat := 0
  int : Nat := 0
  char : Nat := 0
deriving DecidableEq, Repr

/-- The sum of two counts, if it is a byte again. -/
def addCounts (n m : Nat) : Except Abort Nat := if n + m ≤ 255 then .ok (n + m) else .error .add

/-- Counts one keyword; `none` for a word that is no keyword of an integer type. -/
def KeywordCounts.add (n : KeywordCounts) (word : String) : Option (Except Abort KeywordCounts) :=
  match word with
  | "signed" | "__signed__" | "__signed" =>
    some ((addCounts n.signed 1).map fun count => { n with signed := count })
  | "unsigned" => some ((addCounts n.unsigned 1).map fun count => { n with unsigned := count })
  | "short" => some ((addCounts n.short 1).map fun count => { n with short := count })
  | "long" => some ((addCounts n.long 1).map fun count => { n with long := count })
  | "int" => some ((addCounts n.int 1).map fun count => { n with int := count })
  | "char" => some ((addCounts n.char 1).map fun count => { n with char := count })
  | _ => none

/-- Counts the keywords of a list one after the other; `none` if one of its words is no keyword of
an integer type. -/
def KeywordCounts.addAll (n : KeywordCounts) : List String → Except Abort (Option KeywordCounts)
  | [] => .ok (some n)
  | word :: words =>
    match n.add word with
    | none => .ok none
    | some (.error reason) => .error reason
    | some (.ok n') => n'.addAll words

/-- The kind of integer that the size keywords name. -/
def KeywordCounts.kind? (n : KeywordCounts) : Option IntKind :=
  match n.short, n.long, n.char with
  | 0, 0, 1 => some .char
  | 1, 0, 0 => some .short
  | 0, 0, 0 => some .int
  | 0, 1, 0 => some .long
  | 0, 2, 0 => some .longLong
  | _, _, _ => none

/-- The integer type that the counted keywords spell, given how many of them stand for a sign. At
most one sign and one `int` may occur, none beside `char`, and the empty list spells nothing. A type
without a sign keyword is signed. -/
def KeywordCounts.type? (n : KeywordCounts) (signs : Nat) : Option CType :=
  if 1 < signs ∨ 1 < n.int then none
  else
    match n.kind? with
    | none => none
    | some kind =>
      if kind = .char ∧ 0 < n.int then none
      else if kind = .int ∧ n.int = 0 ∧ signs = 0 then none
      else some (.integral kind (n.unsigned = 0))

/-- The integer type that a list of keywords spells. -/
def ofKeywords (words : List String) : Except Abort (Option CType) :=
  match KeywordCounts.addAll {} words with
  | .error reason => .error reason
  | .ok none => .ok none
  | .ok (some n) => (addCounts n.signed n.unsigned).map n.type?

/-- The type of a word that stands alone. -/
def standalone? : String → Option CType
  | "void" => some .void
  | "float" => some (.floating .float)
  | "double" => some (.floating .double)
  | "_Bool" => some bool
  | "__builtin_va_list" => some vaList
  | _ => none

/-- The type of words that spell a type without being counted. -/
def uncounted? : List String → Option CType
  | ["long", "double"] | ["double", "long"] => some (.floating .longDouble)
  | [word] => standalone? word
  | _ => none

/-- The type that a list of keywords spells, without qualifiers. -/
def ofSpelling (words : List String) : Except Abort (Option CType) :=
  match uncounted? words with
  | some t => .ok (some t)
  | none => ofKeywords words

end ForeignCall.CType
