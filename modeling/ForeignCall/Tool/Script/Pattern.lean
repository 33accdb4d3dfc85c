import ForeignCall.Tool.Script.Basic

/-!
# ForeignCall.Tool.Script.Pattern

Patterns of a shell: a star stands for any text, a question mark for one character, brackets for one
character of a set; all else stands for itself. A set that begins with an exclamation mark holds
the characters that are not listed.

* `Pattern.ofChars` — the pattern of characters, some of which have lost their meaning;
* `Pattern.accepts` — whether a text is one of those that a pattern stands for;
* `Pattern.trim` — a text without what a pattern matches at one of its ends.
-/

namespace ForeignCall.Script

open Text (Octets octets)

/-- A character, and whether it has lost its meaning. -/
abbrev Marked := Char × Bool

/-- Characters that a set lists. -/
inductive SetItem where
  | range (first last : Char)
  | named (name : Octets)
deriving DecidableEq

/-- What stands for characters of a text. -/
inductive PatternItem where
  | any
  | one
  | char (c : Char)
  | set (inverted : Bool) (items : List SetItem)
deriving DecidableEq

/-- A pattern. -/
abbrev Pattern := List PatternItem

/-- Whether a character belongs to a class that has a name. -/
def inClass (name : Octets) (c : Char) : Bool :=
  let n := c.toNat
  match String.ofList name with
  | "alnum" => c.isAlphanum
  | "alpha" => c.isAlpha
  | "blank" => n = 9 || n = 32
  | "cntrl" => n < 32 || n = 127
  | "digit" => c.isDigit
  | "graph" => 32 < n && n < 127
  | "lower" => c.isLower
  | "print" => 32 ≤ n && n < 127
  | "punct" => 32 < n && n < 127 && !c.isAlphanum
  | "space" => (9 ≤ n && n ≤ 13) || n = 32
  | "upper" => c.isUpper
  | "xdigit" => c.isDigit || ('a' ≤ c && c ≤ 'f') || ('A' ≤ c && c ≤ 'F')
  | _ => false

/-- Whether a set lists a character. -/
def SetItem.holds (c : Char) : SetItem → Bool
  | range first last => first ≤ c && c ≤ last
  | named name => inClass name c

namespace Pattern

/-- The names of the classes. -/
def classNames : List String :=
  ["alnum", "alpha", "blank", "cntrl", "digit", "graph", "lower", "print", "punct", "space",
   "upper", "xdigit"]

/-- The name of a class between colons and brackets, and what follows it. -/
def className (cs : List Marked) : Option (Octets × List Marked) :=
  match cs with
  | (':', false) :: rest =>
    let name := (rest.map (·.1)).takeWhile (·.isAlpha)
    match rest.drop name.length with
    | (':', false) :: (']', false) :: rest =>
      if classNames.contains (String.ofList name) then some (name, rest) else none
    | _ => none
  | _ => none

/-- The items of a set up to its closing bracket, and what follows it. A bracket that comes first
is an item. -/
def setItems : Nat → Bool → List Marked → Option (List SetItem × List Marked)
  | 0, _, _ => none
  | _, _, [] => none
  | fuel + 1, first, (c, quoted) :: cs =>
    let go (item : SetItem) (rest : List Marked) : Option (List SetItem × List Marked) :=
      (setItems fuel false rest).map fun (items, rest) => (item :: items, rest)
    if c = ']' ∧ !quoted ∧ !first then some ([], cs)
    else
      match (if c = '[' ∧ !quoted then className cs else none), cs with
      | some (name, rest), _ => go (.named name) rest
      | none, ('-', false) :: (last, lastQuoted) :: rest =>
        if last = ']' ∧ !lastQuoted then go (.range c c) cs else go (.range c last) rest
      | none, rest => go (.range c c) rest

/-- The pattern of characters. A bracket without a closing one stands for itself. -/
def ofMarked : Nat → List Marked → Pattern
  | 0, _ => []
  | _, [] => []
  | fuel + 1, (c, true) :: cs => .char c :: ofMarked fuel cs
  | fuel + 1, ('*', false) :: cs => .any :: ofMarked fuel cs
  | fuel + 1, ('?', false) :: cs => .one :: ofMarked fuel cs
  | fuel + 1, ('[', false) :: cs =>
    let (inverted, inside) := match cs with
      | ('!', false) :: rest => (true, rest)
      | _ => (false, cs)
    match setItems (inside.length + 1) true inside with
    | some (items, rest) => .set inverted items :: ofMarked fuel rest
    | none => .char '[' :: ofMarked fuel cs
  | fuel + 1, (c, false) :: cs => .char c :: ofMarked fuel cs

/-- The characters where a backslash takes away the meaning of the next one. -/
def unescape : List Marked → List Marked
  | ('\\', false) :: (c, _) :: cs => (c, true) :: unescape cs
  | c :: cs => c :: unescape cs
  | [] => []

/-- The pattern of characters, some of which have lost their meaning. -/
def ofChars (cs : List Marked) : Pattern :=
  let cs := unescape cs
  ofMarked (cs.length + 1) cs

/-- Whether some end of a text fits. -/
def someEnd (fits : Octets → Bool) : Octets → Bool
  | [] => fits []
  | c :: cs => fits (c :: cs) || someEnd fits cs

/-- Whether a pattern stands for a text. -/
def accepts : Pattern → Octets → Bool
  | [], cs => cs.isEmpty
  | .any :: ps, cs => someEnd (accepts ps) cs
  | .one :: ps, _ :: cs => accepts ps cs
  | .char p :: ps, c :: cs => p = c && accepts ps cs
  | .set inverted items :: ps, c :: cs => (items.any (·.holds c) != inverted) && accepts ps cs
  | _ :: _, [] => false

/-- A text without what a pattern matches at one of its ends: as much or as little as it can. -/
def trim (p : Pattern) (atEnd longest : Bool) (text : Octets) : Octets :=
  let n := text.length
  let sizes := if longest then (List.range (n + 1)).reverse else List.range (n + 1)
  if atEnd then
    match sizes.find? fun k => p.accepts (text.drop (n - k)) with
    | some k => text.take (n - k)
    | none => text
  else
    match sizes.find? fun k => p.accepts (text.take k) with
    | some k => text.drop k
    | none => text

end Pattern

end ForeignCall.Script
