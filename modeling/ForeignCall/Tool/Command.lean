import ForeignCall.Declaration.Document
import ForeignCall.Text.Utf8
import ForeignCall.Tool.Error
import ForeignCall.Tool.Runner

/-!
# ForeignCall.Tool.Command

A command is a program with arguments. It takes a text as its input; what it leaves behind is read
as a preprocessed text or as a declaration tree.

* `Command.preprocess` — the text that a preprocessor writes;
* `Command.parse` — the declarations that a parser writes.

A preprocessor has to take all of its input. A parser that fails may leave the rest of its input
alone.
-/

namespace ForeignCall

/-- A program with its arguments. -/
structure Command where
  program : String
  args : List String
deriving DecidableEq, Repr

/-- The failure to run a program. -/
def RunFailure.error (failure : RunFailure) (tool : String) : ToolError :=
  match failure with
  | .launch reason => .launch tool reason
  | .io reason => .io tool reason

/-- The failure of a program. -/
def Outcome.failure (o : Outcome) (tool : String) : ToolError :=
  let code := match o.ending with
    | .exit n => some (n : Int)
    | .signal _ => none
  .failed tool code (Text.decodeLossy o.stderr)

/-- The text that a program has written, with one line feed at the end of each line. -/
def Outcome.text (o : Outcome) (tool : String) : Except ToolError String :=
  match o.refusal with
  | some reason => .error (.io tool reason)
  | none =>
    if o.succeeded then
      .ok (String.ofList (Text.unixEndings (Text.decodeLossy o.stdout).toList))
    else .error (o.failure tool)

/-- The declarations that bytes stand for: a tree in well-formed text. -/
def readTree? (bytes : List UInt8) : Option TranslationUnit :=
  (Text.decode? bytes).bind fun text =>
    (Json.Source.ofText? text).bind (readUnit true Json.maxDepth)

/-- The declarations that a program has written. If it fails, the first line that reports a place in
the text is the reason. -/
def Outcome.unit (o : Outcome) (tool : String) : Except ParserError TranslationUnit :=
  if o.succeeded then
    match o.refusal, readTree? o.stdout with
    | some reason, _ => .error (.tool (.io tool reason))
    | none, some unit => .ok unit
    | none, none => .error (.invalidTree "not a declaration tree")
  else
    match (Text.linesOf (Text.decodeLossy o.stderr)).findSome? Diagnostic.ofText? with
    | some report => .error (.rejected report)
    | none => .error (.tool (o.failure tool))

namespace Command

variable {μ : Type → Type} [Monad μ]

/-- What tells commands apart in the keys of the cache. -/
def identity (c : Command) : String := c.program ++ " " ++ " ".intercalate c.args

/-- What a command leaves behind, with further arguments. -/
def run (runner : Runner μ) (c : Command) (extra : List String) (input : String) :
    μ (Except ToolError Outcome) :=
  return (← runner c.program (c.args ++ extra) input).mapError fun failure =>
    failure.error c.program

/-- The text that a preprocessor makes of a source. -/
def preprocess (runner : Runner μ) (c : Command) (source : String) (extra : List String) :
    μ (Except ToolError String) :=
  return (← c.run runner extra source).bind fun o => o.text c.program

/-- The declarations that a parser finds in a text. -/
def parse (runner : Runner μ) (c : Command) (text : String) :
    μ (Except ParserError TranslationUnit) :=
  return ((← c.run runner [] text).mapError .tool).bind fun o => o.unit c.program

end Command

/-- The arguments that make system headers readable for a parser of plain declarations. -/
def defaultPreprocessorArgs : List String := ["-x", "c", "-D__extension__=", "-D__attribute__(x)="]

/-- The argument that asks a preprocessor for its macros. -/
def dumpMacrosArg : String := "-dM"

/-- The source that includes a header. -/
def includeSource (header : String) : String := "#include <" ++ header ++ ">\n"

end ForeignCall
