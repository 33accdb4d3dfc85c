import ForeignCall.Bytecode.Compiler
import ForeignCall.Registry.Basic
import ForeignCall.Session.Config

/-!
# ForeignCall.Session.Basic

A session compiles programs. It knows some headers and extracts others when a program asks for them,
if it has an extractor.

* `Session.extract`, `Session.resolve`, `Session.compile` — what a session does;
* `Session.loadTags` — takes the numbering of the tags from `ffi.h`.
-/

namespace ForeignCall

/-- Why a session fails. -/
inductive SessionError where
  | config (error : ConfigError)
  | extract (error : ExtractError)
  | resolve (error : ResolveError)
  | compile (error : CompileError)
  | tags (error : TagError)
  /-- A header is asked for, and nothing can extract it. -/
  | noExtractor (header : String)
deriving DecidableEq

namespace SessionError

/-- The text of the error. -/
def message : SessionError → String
  | .config e => "invalid configuration: " ++ e.message
  | .extract e => e.message
  | .resolve e => e.message
  | .compile e => e.message
  | .tags e => e.message
  | .noExtractor header =>
    "cannot extract '" ++ header ++ "': no declaration parser configured"

/-- The texts of the causes of the error. -/
def causes : SessionError → List String
  | .config e => [e.message]
  | .extract e => e.message :: e.causes
  | .resolve e => e.message :: e.causes
  | .compile e => e.message :: e.causes
  | .tags e => [e.message]
  | .noExtractor _ => []

end SessionError

/-- What a session knows. -/
structure Session (μ : Type → Type) where
  extractor : Option (Extractor μ) := none
  registry : Registry := .builtin
  /-- The directory of the cache. -/
  directory : Directory := none
  target : Target := .host
  tags : TagTable := .standard

/-- An activity of a session. -/
abbrev SessionM (μ : Type → Type) := ExceptT SessionError (StateT (Session μ) μ)

/-- The header that numbers the tags. -/
def tagHeader : String := "ffi.h"

namespace Session

variable {μ : Type → Type} [Monad μ] {α : Type}

/-- The session of a configuration; `usual` is the usual directory of the cache. -/
def ofConfig (c : Config) (runner : Runner μ) (usual : String) : Session μ where
  extractor := c.parser.map fun program => c.extract.extractor runner usual ⟨program, c.parserArgs⟩

/-- Where the headers of a session come from. -/
def source (s : Session μ) : HeaderSource (StateT Directory μ) where
  extract := s.extractor.map fun x name => (x.extract name).run

/-- Something done with the cache. -/
def onDirectory (act : ExceptT ExtractError (StateT Directory μ) α) : SessionM μ α :=
  ExceptT.mk fun s => do
    let (result, directory) ← act.run.run s.directory
    return (result.mapError SessionError.extract, { s with directory })

/-- Something done with the registry and the cache. -/
def onRegistry {ε : Type} (wrap : ε → SessionError)
    (act : Session μ → ExceptT ε (StateT Registry (StateT Directory μ)) α) : SessionM μ α :=
  ExceptT.mk fun s => do
    let ((result, registry), directory) ← ((act s).run.run s.registry).run s.directory
    return (result.mapError wrap, { s with registry, directory })

/-- Extracts a header. -/
def extract (name : String) : SessionM μ Header := do
  match (← get).extractor with
  | none => throw (.noExtractor name)
  | some x => onDirectory (x.extract name)

/-- A function of a header. -/
def resolve (name symbol : String) : SessionM μ (Shared Function) :=
  onRegistry .resolve fun s => s.source.resolve name symbol

/-- The bytecode of a program. -/
def compile (p : Program) : SessionM μ Bytecode :=
  onRegistry .compile fun s => p.compile s.source.resolver ⟨s.target, s.tags⟩

/-- Takes the numbering of the tags from the header that defines it. -/
def loadTags : SessionM μ Unit := do
  let h ← extract tagHeader
  match TagTable.ofHeader h with
  | .ok tags => modify fun s => { s with tags }
  | .error e => throw (.tags e)

/-- Removes all headers from the cache, and counts them. -/
def invalidate : SessionM μ Nat := do
  match (← get).extractor with
  | none => return 0
  | some x => onDirectory x.invalidate

end Session

end ForeignCall
