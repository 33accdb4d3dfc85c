import ForeignCall.Json.Basic
import ForeignCall.Text.Numeral
import ForeignCall.Text.Shortest

/-!
# ForeignCall.Json.Render

The compact text of a JSON document: no blanks, members in their order, and in strings only the
double quote, the backslash and control characters escaped.
-/

namespace ForeignCall.Json

/-- The text of one character inside a string. -/
def charText (c : Char) : List Char :=
  if c = '"' then ['\\', '"']
  else if c = '\\' then ['\\', '\\']
  else if c = '\n' then ['\\', 'n']
  else if c = '\t' then ['\\', 't']
  else if c = '\r' then ['\\', 'r']
  else if c.toNat = 8 then ['\\', 'b']
  else if c.toNat = 12 then ['\\', 'f']
  else if c.toNat < 32 then '\\' :: 'u' :: (Text.padHex 4 c.toNat).toList
  else [c]

/-- The text of a string. -/
def strText (s : String) : List Char :=
  '"' :: s.toList.flatMap charText ++ ['"']

/-- The text of a number. -/
def Number.text : Number → String
  | .int n => toString n
  | .float x => Text.floatText x

mutual

/-- The characters of a document's compact text. -/
def chars : Json → List Char
  | .null => ['n', 'u', 'l', 'l']
  | .bool true => ['t', 'r', 'u', 'e']
  | .bool false => ['f', 'a', 'l', 's', 'e']
  | .num n => n.text.toList
  | .str s => strText s
  | .arr items => '[' :: itemChars items ++ [']']
  | .obj members => '{' :: memberChars members ++ ['}']

/-- The items of an array, with commas between them. -/
def itemChars : List Json → List Char
  | [] => []
  | [j] => chars j
  | j :: js => chars j ++ ',' :: itemChars js

/-- The members of an object, with commas between them. -/
def memberChars : List (String × Json) → List Char
  | [] => []
  | [(k, j)] => strText k ++ ':' :: chars j
  | (k, j) :: ms => strText k ++ ':' :: chars j ++ ',' :: memberChars ms

end

/-- The compact text of a document. -/
def render (j : Json) : String := String.ofList j.chars

end ForeignCall.Json
