/-!
# ForeignCall.Cache.Error

Why the cache of headers fails.
-/

namespace ForeignCall

/-- Why an operation of the cache fails. -/
inductive CacheError where
  /-- A file or directory cannot be read, written or removed. -/
  | io (path reason : String)
  /-- A header cannot be written. -/
  | encode (header reason : String)
deriving DecidableEq, Repr

/-- The text of the error. -/
def CacheError.message : CacheError → String
  | .io path reason => "header cache I/O error at '" ++ path ++ "': " ++ reason
  | .encode header reason => "cannot encode '" ++ header ++ "' for the header cache: " ++ reason

end ForeignCall
