import ForeignCall.CType.Basic

/-!
# ForeignCall.Declaration.Basic

The declaration tree of a parsed C file.

A tree holds the shapes that this library understands. Any other shape is kept as the name of its
kind and its source text, so that it can be reported. An expression refers to types by whatever
stands for a type: a node of the tree, or something that has been made of it.

* `TypeNode` — how a type is written; `Expr` — how a constant is written;
* `Declaration` — one declaration at the top level of a file.
-/

namespace ForeignCall

/-- A place in a source file. -/
structure Coord where
  file : String
  line : Nat
  column : Nat
deriving DecidableEq, Repr

/-- The text of a place. -/
def Coord.text (c : Coord) : String :=
  c.file ++ ":" ++ toString c.line ++ ":" ++ toString c.column

/-- The kinds of literals. -/
inductive LiteralKind where
  | int | char | float | string
deriving DecidableEq, Repr

/-- A constant expression; `τ` stands for the types in it. -/
inductive Expr (τ : Type) where
  /-- A literal with its spelling. -/
  | literal (kind : LiteralKind) (text : String)
  | ident (name : String)
  | unary (op : String) (operand : Expr τ)
  | binary (op : String) (lhs rhs : Expr τ)
  | sizeofType (type : τ)
  | cast (type : τ) (operand : Expr τ)
  /-- Any other form, with its source text. -/
  | other (kind text : String)
deriving DecidableEq

/-- A name with its type, and the place where it is declared. -/
structure Declarator (τ : Type) where
  name : Option String
  type : τ
  coord : Option Coord
deriving DecidableEq

/-- An enumerator, with the expression of its value if it is given. -/
structure Enumerator (ε : Type) where
  name : String
  value : Option ε
deriving DecidableEq

/-- A type as it is written. -/
inductive TypeNode where
  /-- Keywords of a type without qualifiers, or the name of a typedef. -/
  | identifier (words : List String)
  | pointer (base : TypeNode)
  | array (base : TypeNode) (dim : Option (Expr TypeNode))
  /-- A function; without a parameter list it has no prototype. -/
  | function (params : Option (List (Declarator TypeNode))) (ret : TypeNode) (variadic : Bool)
  | aggregate (kind : TagKind) (tag : Option String) (fields : Option (List (Declarator TypeNode)))
  | enum (tag : Option String) (enumerators : Option (List (Enumerator (Expr TypeNode))))
  /-- Any other form, with its source text. -/
  | other (kind text : String)

instance : Inhabited TypeNode := ⟨.identifier []⟩

/-- One declaration at the top level of a file. -/
inductive Declaration where
  /-- A variable, a function, or a tag alone. -/
  | decl (d : Declarator TypeNode)
  | typedef (d : Declarator TypeNode)
  | pragma (text : String)
  /-- A function with its body, of which only the declaration is used. -/
  | funcDef (d : Declarator TypeNode)
  /-- Any other form, with its source text. -/
  | other (kind text : String)

/-- The declarations of a file, in order. -/
abbrev TranslationUnit := List Declaration

/-! ## Text -/

/-- The text of a construct of unknown form. -/
def otherText (kind text : String) : String := "<" ++ kind ++ "> " ++ text

/-- The text of a tagged type: its keyword, its tag, and dots in braces for a body. -/
def taggedText (keyword : String) (tag : Option String) (body : Bool) : String :=
  keyword ++ (match tag with | some n => " " ++ n | none => "") ++
    if body then " \x7b...\x7d" else ""

/-- The text of an expression, given the texts of the types in it. -/
def Expr.display {τ : Type} (type : τ → String) : Expr τ → String
  | .literal _ text => text
  | .ident name => name
  | .unary op operand => op ++ "(" ++ operand.display type ++ ")"
  | .binary op lhs rhs => "(" ++ lhs.display type ++ " " ++ op ++ " " ++ rhs.display type ++ ")"
  | .sizeofType t => "sizeof(" ++ type t ++ ")"
  | .cast t operand => "(" ++ type t ++ ")(" ++ operand.display type ++ ")"
  | .other kind text => otherText kind text

mutual

/-- The text of a type. -/
def TypeNode.display : TypeNode → String
  | .identifier words => " ".intercalate words
  | .pointer base => base.display ++ "*"
  | .array base none => base.display ++ "[]"
  | .array base (some dim) => base.display ++ "[" ++ exprText dim ++ "]"
  | .function none ret variadic => ret.display ++ "(" ++ (if variadic then "..." else "") ++ ")"
  | .function (some params) ret variadic =>
    ret.display ++ "(" ++
      ", ".intercalate (paramTexts params ++ if variadic then ["..."] else []) ++ ")"
  | .aggregate kind tag fields => taggedText kind.keyword tag fields.isSome
  | .enum tag enumerators => taggedText "enum" tag enumerators.isSome
  | .other kind text => otherText kind text

/-- The text of an expression of the tree. -/
def exprText : Expr TypeNode → String
  | .literal _ text => text
  | .ident name => name
  | .unary op operand => op ++ "(" ++ exprText operand ++ ")"
  | .binary op lhs rhs => "(" ++ exprText lhs ++ " " ++ op ++ " " ++ exprText rhs ++ ")"
  | .sizeofType t => "sizeof(" ++ t.display ++ ")"
  | .cast t operand => "(" ++ t.display ++ ")(" ++ exprText operand ++ ")"
  | .other kind text => otherText kind text

/-- The texts of parameters: the type and the name, if there is one. -/
def paramTexts : List (Declarator TypeNode) → List String
  | [] => []
  | ⟨none, t, _⟩ :: ps => t.display :: paramTexts ps
  | ⟨some n, t, _⟩ :: ps => (t.display ++ " " ++ n) :: paramTexts ps

end

/-- The text of a declaration. -/
def Declaration.display : Declaration → String
  | .decl d | .funcDef d =>
    match d.name with
    | some n => d.type.display ++ " " ++ n
    | none => d.type.display
  | .typedef d => "typedef " ++ d.type.display ++ " " ++ d.name.getD "<unnamed>"
  | .pragma text => "#pragma " ++ text
  | .other kind text => otherText kind text

/-- The text of an expression of the tree is its text with the texts of its types. -/
theorem exprText_eq (e : Expr TypeNode) : exprText e = e.display TypeNode.display := by
  induction e <;> simp_all [exprText, Expr.display]

end ForeignCall
