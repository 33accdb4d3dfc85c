import ForeignCall.Tool.Diagnostic

/-!
# ForeignCall.Tool.Error

Why a tool that runs outside has no result: it cannot be started, talking to it fails, or it fails
itself. A parser can also reject its input, or give out something that is no tree.
-/

namespace ForeignCall

/-- Why a tool has no output. -/
inductive ToolError where
  /-- The program cannot be started. -/
  | launch (tool reason : String)
  /-- Its input or output breaks off. -/
  | io (tool reason : String)
  /-- It ends without success; a program that is stopped from outside has no exit code. -/
  | failed (tool : String) (exitCode : Option Int) (stderr : String)
deriving DecidableEq, Repr

/-- The text of the error. -/
def ToolError.message : ToolError → String
  | .launch tool reason => "unable to invoke '" ++ tool ++ "': " ++ reason
  | .io tool reason => "I/O error talking to '" ++ tool ++ "': " ++ reason
  | .failed tool exitCode stderr =>
    let code := match exitCode with
      | some n => " (exit code " ++ toString n ++ ")"
      | none => ""
    let report :=
      if stderr.isEmpty then "" else "\n\n" ++ String.ofList (Text.trimRight stderr.toList)
    "'" ++ tool ++ "' failed" ++ code ++ report

/-- The texts of the causes of the error. -/
def ToolError.causes : ToolError → List String
  | .launch _ reason | .io _ reason => [reason]
  | .failed .. => []

/-- Why a parser gives no tree. -/
inductive ParserError where
  /-- The text is not accepted. -/
  | rejected (report : Diagnostic)
  | tool (error : ToolError)
  /-- The output is no tree. -/
  | invalidTree (reason : String)
deriving DecidableEq, Repr

/-- The text of the error. -/
def ParserError.message : ParserError → String
  | .rejected d => "parse error: " ++ d.display
  | .tool e => e.message
  | .invalidTree reason => "parser produced an invalid declaration tree: " ++ reason

/-- The texts of the causes of the error. -/
def ParserError.causes : ParserError → List String
  | .rejected d => [d.display]
  | .tool e => e.message :: e.causes
  | .invalidTree _ => []

end ForeignCall
