import ForeignCall.Extraction.Error

/-!
# ForeignCall.Registry.Function

A function that a header declares, as a program imports it, and why an import can fail.
-/

namespace ForeignCall

/-- A function of a header. -/
structure Function where
  name : String
  header : String
  /-- The library that holds the function, if it is known. -/
  library : Option String
  ret : CType
  params : List (Member CType)
  variadic : Bool
deriving DecidableEq

namespace Function

/-- How many arguments every call has at least. -/
def arity (f : Function) : Nat := f.params.length

/-- The type of the function. -/
def type (f : Function) : CType := .func f.params f.ret f.variadic

/-- What tells functions apart: two with the same header and name are the same. -/
def key (f : Function) : String × String := (f.header, f.name)

/-- The text of the function. -/
def display (f : Function) : String :=
  let texts := f.params.map (fun p => p.type.display) ++ if f.variadic then ["..."] else []
  f.header ++ ": " ++ f.ret.display ++ " " ++ f.name ++ "(" ++ ", ".intercalate texts ++ ")"

end Function

/-- Why a function cannot be imported. -/
inductive ResolveError where
  | notFound (header symbol : String)
  | unknownHeader (header : String)
  | extract (header : String) (error : ExtractError)
deriving DecidableEq

/-- The text of the error. -/
def ResolveError.message : ResolveError → String
  | .notFound header symbol =>
    "can't find definition of function '" ++ symbol ++ "' in '" ++ header ++ "'"
  | .unknownHeader header => "unknown header '" ++ header ++ "'"
  | .extract header e => "failed to extract '" ++ header ++ "': " ++ e.message

/-- The texts of the causes of the error. -/
def ResolveError.causes : ResolveError → List String
  | .extract _ e => e.message :: e.causes
  | _ => []

end ForeignCall
