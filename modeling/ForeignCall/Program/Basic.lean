/-!
# ForeignCall.Program.Basic

Host programs: statements that call imported functions with literals and with the results of other
calls. A block has imports of its own. Forms that the library does not model are kept as the name of
their kind and their source text.
-/

namespace ForeignCall

/-- The functions that are imported from a header. -/
structure Import where
  header : String
  names : List String
deriving DecidableEq, Repr

/-- An expression of a program. -/
inductive Term where
  /-- A string literal: what stands between its quotes. -/
  | str (raw : String)
  /-- An integer literal as it is written. -/
  | int (text : String)
  | name (name : String)
  | call (callee : Term) (args : List Term)
  /-- Any other form, with its source text. -/
  | other (kind text : String)

instance : Inhabited Term := ⟨.int "0"⟩

/-- A statement of a program. -/
inductive Statement where
  | expr (term : Term)
  | block (imports : List Import) (body : List Statement)
  /-- Any other form, with its source text. -/
  | other (kind text : String)

/-- A program: its imports and then its statements. -/
structure Program where
  imports : List Import
  body : List Statement

/-- The text of a form that the library does not model. -/
def unknownForm (kind text : String) : String := "<" ++ kind ++ "> " ++ text

mutual

/-- The text of an expression. -/
def Term.display : Term → String
  | .str raw => "\"" ++ raw ++ "\""
  | .int text => text
  | .name name => name
  | .call callee args => callee.display ++ "(" ++ ", ".intercalate (argTexts args) ++ ")"
  | .other kind text => unknownForm kind text

/-- The texts of arguments. -/
def argTexts : List Term → List String
  | [] => []
  | t :: ts => t.display :: argTexts ts

end

end ForeignCall
