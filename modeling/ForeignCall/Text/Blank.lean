/-!
# ForeignCall.Text.Blank

White space, words and lines.

Blank characters are those of the Unicode property White_Space, and a line ends at a line feed or
at the end of the text; one carriage return before the line feed belongs to the line ending.

* `isBlank_of_isWhitespace` — every character that the core library calls white space is blank.
-/

namespace ForeignCall.Text

/-- The Unicode property White_Space. -/
def isBlank (c : Char) : Bool :=
  let n := c.toNat
  (9 ≤ n && n ≤ 13) || n == 0x20 || n == 0x85 || n == 0xA0 || n == 0x1680 ||
    (0x2000 ≤ n && n ≤ 0x200A) || n == 0x2028 || n == 0x2029 || n == 0x202F || n == 0x205F ||
    n == 0x3000

/-- Core's white space is blank. -/
theorem isBlank_of_isWhitespace {c : Char} (h : c.isWhitespace = true) : isBlank c = true := by
  simp only [Char.isWhitespace, Bool.or_eq_true, decide_eq_true_eq] at h
  rcases h with ((rfl | rfl) | rfl) | rfl <;> decide

/-- The text without the blanks at its start. -/
def trimLeft (s : List Char) : List Char := s.dropWhile isBlank

/-- The text without the blanks at its end. -/
def trimRight (s : List Char) : List Char := (s.reverse.dropWhile isBlank).reverse

/-- The text without the blanks around it. -/
def trim (s : List Char) : List Char := trimRight (trimLeft s)

/-! ## Parts -/

/-- The parts of a text between separators; there is always at least one. -/
def splitWhere {α : Type} (isSeparator : α → Bool) : List α → List (List α)
  | [] => [[]]
  | c :: cs =>
    if isSeparator c then [] :: splitWhere isSeparator cs
    else
      match splitWhere isSeparator cs with
      | p :: ps => (c :: p) :: ps
      | [] => [[c]]

/-- The text up to the first separator, and what follows it. -/
def splitFirst? (separator : Char) : List Char → Option (List Char × List Char)
  | [] => none
  | c :: cs =>
    if c = separator then some ([], cs)
    else (splitFirst? separator cs).map fun (a, b) => (c :: a, b)

/-- The parts of a text that are not empty. -/
def partsWhere (isSeparator : Char → Bool) (s : List Char) : List (List Char) :=
  (splitWhere isSeparator s).filter (!·.isEmpty)

/-- The parts of a text between blanks. -/
def words (s : List Char) : List (List Char) := partsWhere isBlank s

/-! ## Lines -/

/-- The pieces of a text between line feeds; there is always at least one. -/
def pieces (s : List Char) : List (List Char) := splitWhere (· = '\n') s

/-- A line without the carriage return that belongs to its ending. -/
def dropReturn (line : List Char) : List Char :=
  if line.getLast? = some '\r' then line.dropLast else line

/-- The lines that pieces stand for: the last piece has no ending, so it keeps a carriage return,
and it is no line when it is empty. -/
def endings : List (List Char) → List (List Char)
  | [] => []
  | [p] => if p.isEmpty then [] else [p]
  | p :: ps => dropReturn p :: endings ps

/-- The lines of a text, without their endings. -/
def lines (s : List Char) : List (List Char) := endings (pieces s)

/-- The lines of a text, as strings. -/
def linesOf (s : String) : List String := (lines s.toList).map String.ofList

/-- Every pair of a carriage return and a line feed becomes one line feed. -/
def unixEndings : List Char → List Char
  | '\r' :: '\n' :: cs => '\n' :: unixEndings cs
  | c :: cs => c :: unixEndings cs
  | [] => []

end ForeignCall.Text
