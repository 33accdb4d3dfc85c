import ForeignCall.Text.Octet

/-!
# ForeignCall.Tool.Script.Basic

Scripts in the command language of a shell. A word is put together from pieces: characters, some of
them quoted, parameters, the output of commands, and numbers. Commands are simple ones, which have
words and redirections, and those that join others.
-/

namespace ForeignCall

open Text (Octets octets)

namespace Script

/-- When a parameter gives way to a word. -/
inductive Fallback where
  /-- The word stands in for a missing value. -/
  | default
  /-- The word stands in for a value. -/
  | alternative
  /-- The word stands in for a missing value and becomes the value. -/
  | assign
  /-- The word is the report on a missing value. -/
  | require
deriving DecidableEq, Repr

/-- What a redirection does with its descriptor. -/
inductive Flow where
  | read
  | write
  /-- Writes to a file even if there is one that is not to be overwritten. -/
  | overwrite
  | append
  | readWrite
  /-- Makes the descriptor stand for what another one stands for. -/
  | copy
  /-- Reads a text that stands in the script. -/
  | document (number : Nat)
deriving DecidableEq, Repr

/-- A connection between two commands. -/
inductive Joint where
  | always | success | failure
deriving DecidableEq, Repr

mutual

/-- A part of a word. -/
inductive Piece where
  | char (c : Char) (quoted : Bool)
  /-- A pair of quotes, which makes a field even where nothing stands between them. -/
  | quotes
  | param (name : Octets) (use : Use) (quoted : Bool)
  /-- The output of commands. -/
  | output (body : Command) (quoted : Bool)
  /-- The value of an expression. -/
  | number (expression : List Piece) (quoted : Bool)

/-- What becomes of the value of a parameter. -/
inductive Use where
  | value
  | length
  /-- Gives way to a word; `orEmpty` tells that an empty value counts as missing. -/
  | fallback (kind : Fallback) (orEmpty : Bool) (word : List Piece)
  /-- Loses what a pattern matches at one of its ends. -/
  | trim (atEnd longest : Bool) (pattern : List Piece)
  | malformed

/-- A redirection. -/
inductive Redirect where
  | mk (descriptor : Nat) (flow : Flow) (target : List Piece)

/-- A branch of a case: patterns and a command. -/
inductive Branch where
  | mk (patterns : List (List Piece)) (body : Command)

/-- A command; the numbers are lines. -/
inductive Command where
  | nothing
  | simple (line : Nat) (assignments : List (Octets × List Piece)) (words : List (List Piece))
      (redirects : List Redirect)
  | pipeline (stages : List Command)
  | negation (body : Command)
  | join (joint : Joint) (first second : Command)
  | background (line : Nat) (body : Command)
  | subshell (line : Nat) (body : Command) (redirects : List Redirect)
  | redirected (line : Nat) (body : Command) (redirects : List Redirect)
  | cond (test yes no : Command)
  /-- Runs the body while the test ends with success, or until it does. -/
  | loop (untilSuccess : Bool) (test body : Command)
  | each (line : Nat) (name : Octets) (words : List (List Piece)) (body : Command)
  | select (line : Nat) (subject : List Piece) (branches : List Branch)
  | function (line : Nat) (name : Octets) (body : Command)

end

/-- A word of a script. -/
abbrev Word := List Piece

/-- The word of characters without a special meaning. -/
def quotedWord (text : Octets) : Word := text.map fun c => .char c true

/-! ## Names -/

/-- A character that a name can start with. -/
def isNameStart (c : Char) : Bool := c.isAlpha || c = '_'

/-- A character of a name. -/
def isNameChar (c : Char) : Bool := c.isAlphanum || c = '_'

/-- Whether a text is a name. -/
def isName : Octets → Bool
  | [] => false
  | c :: cs => isNameStart c && cs.all isNameChar

/-- A parameter that is named by one character other than a letter. -/
def isSpecialParam (c : Char) : Bool := "!#$*-?@".toList.contains c || c.isDigit

/-- The names of the builtins that are not special. -/
def plainBuiltins : List String :=
  ["[", "alias", "bg", "cd", "chdir", "command", "echo", "false", "fg", "getopts", "hash", "jobs",
   "kill", "printf", "pwd", "read", "test", "true", "type", "ulimit", "umask", "unalias", "wait"]

/-- The names of the special builtins; their errors end a script. -/
def specialBuiltins : List String :=
  [".", ":", "break", "continue", "eval", "exec", "exit", "export", "local", "readonly", "return",
   "set", "shift", "times", "trap", "unset"]

/-- The character of a piece that is not quoted. -/
def Piece.plain? : Piece → Option Char
  | .char c false => some c
  | _ => none

/-- The text of a word without quotes, parameters and outputs. -/
def plainText? (w : Word) : Option Octets := w.mapM Piece.plain?

/-- The name and the value of a word that assigns one. -/
def assignment? (w : Word) : Option (Octets × Word) :=
  let plain := (w.takeWhile fun p => p.plain?.isSome).filterMap Piece.plain?
  let name := plain.takeWhile isNameChar
  if isName name ∧ plain[name.length]? = some '=' then some (name, w.drop (name.length + 1))
  else none

end Script

end ForeignCall
