import ForeignCall.Extraction.Basic

/-!
# ForeignCall.Extraction.Options

The settings of an extractor that runs commands.
-/

namespace ForeignCall

/-- The settings of an extractor. -/
structure ExtractOptions where
  preprocessor : Command := ⟨"cpp", defaultPreprocessorArgs⟩
  /-- The directory of the cache; `none` stands for the usual place. -/
  cacheDir : Option String := none
  /-- Whether nothing is kept on disk. -/
  noCache : Bool := false
  pack : Nat := defaultPack
deriving DecidableEq, Repr

/-- The extractor with these settings and a parser; `usual` is the directory of the cache that is
taken when none is set. -/
def ExtractOptions.extractor {μ : Type → Type} [Monad μ] (o : ExtractOptions) (runner : Runner μ)
    (usual : String) (parser : Command) : Extractor μ where
  tools := .ofCommands runner o.preprocessor parser
  pack := o.pack
  cache := if o.noCache then none else some (o.cacheDir.getD usual)

end ForeignCall
