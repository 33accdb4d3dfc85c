import ForeignCall.Cache.Error
import ForeignCall.Header.Translation
import ForeignCall.Tool.Error

/-!
# ForeignCall.Extraction.Error

Why a header cannot be extracted.
-/

namespace ForeignCall

/-- Why a header cannot be extracted. -/
inductive ExtractError where
  | tool (error : ToolError)
  /-- The parser does not accept the text of the header. -/
  | rejected (report : Diagnostic)
  /-- The output of the parser is no tree. -/
  | invalidTree (reason : String)
  | translation (error : TranslationError)
  | cache (error : CacheError)
deriving DecidableEq

namespace ExtractError

/-- The text of the error. -/
def message : ExtractError → String
  | .tool e => e.message
  | .rejected d => "parse error: " ++ d.display
  | .invalidTree reason => "invalid declaration tree: " ++ reason
  | .translation e => e.message
  | .cache e => e.message

/-- The texts of the causes of the error. -/
def causes : ExtractError → List String
  | .tool e => e.message :: e.causes
  | .rejected d => [d.display]
  | .invalidTree _ => []
  | .translation e => e.causes
  | .cache e => [e.message]

/-- The failure of the parser as a failure of the extraction. -/
def ofParser : ParserError → ExtractError
  | .rejected d => .rejected d
  | .tool e => .tool e
  | .invalidTree reason => .invalidTree reason

end ExtractError

end ForeignCall
