import ForeignCall.Cache.Directory
import ForeignCall.Extraction.Error
import ForeignCall.Tool.Command

/-!
# ForeignCall.Extraction.Basic

Extracting headers. A source text that includes the header goes through the preprocessor twice, once
for the macros and once for the declarations; the parser makes a tree of the declarations, and the
tree is added to the macros. The result is kept in the cache, under a key that tells apart all
settings of the extractor that are part of the environment.

* `Extractor.run` — a header, without the cache;
* `Extractor.extract` — a header, from the cache if it is there;
* `Extractor.extractFresh` — a header that takes the place of what is in the cache.

The tools may have effects of `μ`.
-/

namespace ForeignCall

/-- A preprocessor and a parser, with the texts that identify them. -/
structure Tools (μ : Type → Type) where
  preprocessor : String
  parser : String
  preprocess : String → List String → μ (Except ToolError String)
  parse : String → μ (Except ParserError TranslationUnit)

/-- The tools that a machine runs as commands. -/
def Tools.ofCommands {μ : Type → Type} [Monad μ] (runner : Runner μ)
    (preprocessor parser : Command) : Tools μ where
  preprocessor := preprocessor.identity
  parser := parser.identity
  preprocess := preprocessor.preprocess runner
  parse := parser.parse runner

/-- How headers are extracted. -/
structure Extractor (μ : Type → Type) where
  tools : Tools μ
  target : Target := .host
  pack : Nat := defaultPack
  /-- The directory of the cache, unless there is none. -/
  cache : Option String := none

/-- The version of the extraction, which changes when its results do. -/
def extractionVersion : String := "0.1.0-alpha.1"

/-- The header that macros and declarations make up. -/
def assemble (target : Target) (pack : Nat) (name : String) (macros : List Macro)
    (unit : TranslationUnit) : Except ExtractError Header :=
  let start : Builder := ⟨name, {}, .empty⟩
  match (translateUnit target pack unit).run.run (start.addMacros macros) with
  | (.ok _, b) => .ok b.freeze
  | (.error e, _) => .error (.translation e)

namespace Extractor

variable {μ : Type → Type} [Monad μ]

/-- What the result depends on beside the name of the header. -/
def environment (x : Extractor μ) : String :=
  "ffic=" ++ extractionVersion ++ ";cpp=" ++ x.tools.preprocessor ++ ";parser=" ++ x.tools.parser ++
    ";pack=" ++ toString x.pack

/-- The text that describes the extractor. -/
def display (x : Extractor μ) : String :=
  let cache := match x.cache with
    | some dir => "Some(" ++ Text.quoted dir ++ ")"
    | none => "None"
  "HeaderExtractor \x7b preprocessor: " ++ Text.quoted x.tools.preprocessor ++ ", parser: " ++
    Text.quoted x.tools.parser ++ ", cache: " ++ cache ++ ", pack: " ++ toString x.pack ++
    ", .. \x7d"

/-- The text that the preprocessor makes of the source of a header. -/
def preprocess (x : Extractor μ) (name : String) (extra : List String) :
    ExceptT ExtractError μ String :=
  ExceptT.mk do return (← x.tools.preprocess (includeSource name) extra).mapError .tool

/-- The declarations of a text. -/
def parse (x : Extractor μ) (text : String) : ExceptT ExtractError μ TranslationUnit :=
  ExceptT.mk do return (← x.tools.parse text).mapError .ofParser

/-- Extracts a header without the cache. -/
def run (x : Extractor μ) (name : String) : ExceptT ExtractError μ Header := do
  let dump ← x.preprocess name [dumpMacrosArg]
  let text ← x.preprocess name []
  let unit ← x.parse text
  ExceptT.mk (pure (assemble x.target x.pack name (scanMacros dump).macros unit))

/-- Extracts a header without a look into the cache. -/
def runOver (x : Extractor μ) (name : String) :
    ExceptT ExtractError (StateT Directory μ) Header :=
  ExceptT.mk fun d => do return (← (x.run name).run, d)

/-- Extracts a header and stores it in the directory. -/
def runAndStore (x : Extractor μ) (dir name : String) :
    ExceptT ExtractError (StateT Directory μ) Header := do
  let h ← x.runOver name
  let _path ← ExceptT.mk fun d =>
    let (result, d) := d.store dir h x.environment
    return (result.mapError ExtractError.cache, d)
  return h

/-- Extracts a header that takes the place of what is in the cache. -/
def extractFresh (x : Extractor μ) (name : String) :
    ExceptT ExtractError (StateT Directory μ) Header :=
  match x.cache with
  | none => x.runOver name
  | some dir => x.runAndStore dir name

/-- Extracts a header, or takes it from the cache if it is there. -/
def extract (x : Extractor μ) (name : String) :
    ExceptT ExtractError (StateT Directory μ) Header :=
  match x.cache with
  | none => x.runOver name
  | some dir => do
    let stored ← ExceptT.mk fun d =>
      return ((d.load dir name x.environment).mapError ExtractError.cache, d)
    match stored with
    | some h => return h
    | none => x.runAndStore dir name

/-- Extracts headers in order, up to the first that fails. -/
def extractAll (x : Extractor μ) : List String →
    ExceptT ExtractError (StateT Directory μ) (List Header)
  | [] => return []
  | name :: names => do
    let h ← x.extract name
    return h :: (← x.extractAll names)

/-- Removes all headers from the cache, and counts them. -/
def invalidate (x : Extractor μ) : ExceptT ExtractError (StateT Directory μ) Nat :=
  match x.cache with
  | none => return 0
  | some dir => ExceptT.mk fun d =>
    let (result, d) := d.invalidate dir
    return (result.mapError ExtractError.cache, d)

end Extractor

end ForeignCall
