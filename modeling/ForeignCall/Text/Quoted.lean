import ForeignCall.Text.Hidden

/-!
# ForeignCall.Text.Quoted

A string in double quotes, for messages. A backslash, a double quote, the null character, a line
feed, a carriage return and a tab have short escapes; any other character that does not show on its
own is written as a number in braces.

* `quoted` — the quoted text of a string.
-/

namespace ForeignCall.Text

/-- The digits of a number in base sixteen, in lower case. -/
def hexDigits (n : Nat) : List Char := Nat.toDigits 16 n

/-- The text of one character inside double quotes. -/
def quotedChar (c : Char) : List Char :=
  if c = '\\' then ['\\', '\\']
  else if c = '"' then ['\\', '"']
  else if c = '\n' then ['\\', 'n']
  else if c = '\r' then ['\\', 'r']
  else if c = '\t' then ['\\', 't']
  else if c.toNat = 0 then ['\\', '0']
  else if isHidden c then ['\\', 'u', '{'] ++ hexDigits c.toNat ++ ['}']
  else [c]

/-- A string in double quotes. -/
def quoted (s : String) : String :=
  String.ofList ('"' :: s.toList.flatMap quotedChar ++ ['"'])

end ForeignCall.Text
