import ForeignCall.Extraction.Options
import ForeignCall.Session.LogFilter

/-!
# ForeignCall.Session.Config

The configuration of a session, as variables set it.

| Variable | Meaning |
|---|---|
| `FFIC_CPP` | the preprocessor |
| `FFIC_CPP_ARGS` | its arguments, between blanks |
| `FFIC_PARSER` | the parser; without one no header is extracted |
| `FFIC_CACHE_DIR` | the directory of the cache |
| `FFIC_NO_CACHE` | whether there is no cache |
| `FFIC_PACK` | the packing width, a power of two |
| `FFIC_LOG`, `RUST_LOG` | the log filter; the first that is set counts |

* `Config.ofVariables` — the configuration that variables describe.
-/

namespace ForeignCall

/-- The configuration of a session. -/
structure Config where
  extract : ExtractOptions := {}
  parser : Option String := none
  parserArgs : List String := []
  logFilter : Option String := none
deriving DecidableEq, Repr

/-- A variable whose value cannot be used. -/
structure ConfigError where
  name : String
  value : String
  expected : String
deriving DecidableEq, Repr

/-- The text of the error. -/
def ConfigError.message (e : ConfigError) : String :=
  e.name ++ "=" ++ Text.quoted e.value ++ ": expected " ++ e.expected

namespace Config

/-- A truth value; upper and lower case are the same. -/
def flag? (s : String) : Option Bool :=
  let text := String.ofList ((Text.trim s.toList).map Char.toLower)
  if ["1", "true", "yes", "on"].contains text then some true
  else if ["", "0", "false", "no", "off"].contains text then some false
  else none

/-- A packing width that is a power of two. -/
def pack? (s : String) : Option Nat :=
  (Text.readDecimal Json.maxWord (Text.trim s.toList)).filter validPack

/-- A log filter. -/
def filter? (s : String) : Option String := if LogFilter.isValid s then some s else none

/-- The value of a variable that is set, or the error if it cannot be read. -/
def readVariable {α : Type} (lookup : String → Option String) (name expected : String)
    (read : String → Option α) : Except ConfigError (Option α) :=
  match lookup name with
  | none => .ok none
  | some value =>
    match read value with
    | some a => .ok (some a)
    | none => .error ⟨name, value, expected⟩

/-- The configuration that variables describe. -/
def ofVariables (lookup : String → Option String) : Except ConfigError Config := do
  let noCache ← readVariable lookup "FFIC_NO_CACHE" "a boolean" flag?
  let pack ← readVariable lookup "FFIC_PACK" "a power of two" pack?
  let log := if (lookup "FFIC_LOG").isSome then "FFIC_LOG" else "RUST_LOG"
  let logFilter ← readVariable lookup log "tracing filter directives" filter?
  let args := match lookup "FFIC_CPP_ARGS" with
    | some text => (Text.words text.toList).map String.ofList
    | none => defaultPreprocessorArgs
  .ok {
    extract := {
      preprocessor := ⟨(lookup "FFIC_CPP").getD "cpp", args⟩
      cacheDir := lookup "FFIC_CACHE_DIR"
      noCache := noCache.getD false
      pack := pack.getD defaultPack }
    parser := lookup "FFIC_PARSER"
    logFilter }

/-- The configuration with another parser. -/
def withParser (c : Config) (program : String) (args : List String) : Config :=
  { c with parser := some program, parserArgs := args }

end Config

end ForeignCall
