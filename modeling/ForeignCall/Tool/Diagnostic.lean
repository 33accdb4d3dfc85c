import ForeignCall.Instances
import ForeignCall.Text.Blank
import ForeignCall.Text.Numeral

/-!
# ForeignCall.Tool.Diagnostic

Syntax errors that a parser reports as `file:line:column: message`. The name of the file may start
with the letter of a drive and a colon; what follows holds no further colon.

* `Diagnostic.ofText?` — the place and the message of a report.
-/

namespace ForeignCall

/-- A syntax error with its place. -/
structure Diagnostic where
  file : String
  line : Nat
  column : Nat
  message : String
deriving DecidableEq, Repr

namespace Diagnostic

/-- The text of the error. -/
def display (d : Diagnostic) : String :=
  "File \"" ++ d.file ++ "\", line " ++ toString d.line ++ ", column " ++ toString d.column ++
    ": " ++ d.message

/-- The drive at the start of a text, and what follows it. -/
def splitDrive : List Char → List Char × List Char
  | c :: ':' :: rest => if c.isAlpha then ([c, ':'], rest) else ([], c :: ':' :: rest)
  | s => ([], s)

/-- The largest line and column. -/
def limit : Nat := 2 ^ 32 - 1

/-- The parts of a report without blanks around it. -/
def ofTrimmed? (s : List Char) : Option Diagnostic := do
  let (drive, rest) := splitDrive s
  let (file, rest) ← Text.splitFirst? ':' rest
  if file.isEmpty then none
  else
    let (line, rest) ← Text.splitFirst? ':' rest
    let line ← Text.readDecimal limit line
    let (column, rest) ← Text.splitFirst? ':' rest
    let column ← Text.readDecimal limit column
    some ⟨String.ofList (drive ++ file), line, column, String.ofList (Text.trim rest)⟩

/-- The place and the message of a report. -/
def ofText? (text : String) : Option Diagnostic := ofTrimmed? (Text.trim text.toList)

end Diagnostic

end ForeignCall
