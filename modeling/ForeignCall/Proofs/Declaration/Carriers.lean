import ForeignCall.Proofs.Declaration.EnumBodies

/-!
# ForeignCall.Proofs.Declaration.Carriers

Where the enumerators of a file go. An enumerator is part of the type that its enum is written in,
of a tagged type around it, or of neither: nothing holds on to an enum without a tag in an operand
of `sizeof` or of a cast, or in a `struct` that has neither a tag nor a name.

* `TypeNode.carried` — the enumerators that are part of a type;
* `TypeNode.anchored` — the enumerators that are part of a tagged type;
* `unitKept` — the enumerators that are part of the type of a name or of a tagged type;
* `unitLasting` — those that do not get lost when a name gets another type.
-/

namespace ForeignCall

mutual

/-- The enumerators that are part of a type. Those in the dimension of an array are not. -/
def TypeNode.carried : TypeNode → List String
  | .identifier _ | .other .. => []
  | .pointer base | .array base _ => base.carried
  | .function none ret _ => ret.carried
  | .function (some params) ret _ => memberCarried params ++ ret.carried
  | .aggregate _ _ none | .enum _ none => []
  | .aggregate _ _ (some fields) => memberCarried fields
  | .enum _ (some es) => es.map (·.name)

/-- The enumerators that are part of the types of members or parameters. -/
def memberCarried : List (Declarator TypeNode) → List String
  | [] => []
  | ⟨_, t, _⟩ :: ds => t.carried ++ memberCarried ds

end

mutual

/-- The enumerators that are part of a tagged type that is defined in a type. -/
def TypeNode.anchored : TypeNode → List String
  | .identifier _ | .other .. => []
  | .pointer base | .array base none => base.anchored
  | .array base (some dim) => base.anchored ++ exprAnchored dim
  | .function none ret _ => ret.anchored
  | .function (some params) ret _ => memberAnchored params ++ ret.anchored
  | .aggregate _ _ none | .enum _ none => []
  | .aggregate _ none (some fields) => memberAnchored fields
  | .aggregate _ (some _) (some fields) => memberCarried fields ++ memberAnchored fields
  | .enum none (some es) => valueAnchored es
  | .enum (some _) (some es) => es.map (·.name) ++ valueAnchored es

/-- The enumerators that are part of a tagged type in the types of members or parameters. -/
def memberAnchored : List (Declarator TypeNode) → List String
  | [] => []
  | ⟨_, t, _⟩ :: ds => t.anchored ++ memberAnchored ds

/-- The enumerators that are part of a tagged type in the values of enumerators. -/
def valueAnchored : List (Enumerator (Expr TypeNode)) → List String
  | [] => []
  | ⟨_, none⟩ :: es => valueAnchored es
  | ⟨_, some e⟩ :: es => exprAnchored e ++ valueAnchored es

/-- The enumerators that are part of a tagged type in an expression. -/
def exprAnchored : Expr TypeNode → List String
  | .literal .. | .ident _ | .other .. => []
  | .unary _ operand => exprAnchored operand
  | .binary _ lhs rhs => exprAnchored lhs ++ exprAnchored rhs
  | .sizeofType t => t.anchored
  | .cast t operand => t.anchored ++ exprAnchored operand

end

/-! ## Declarations -/

/-- What a declaration gives a type to. -/
inductive Place where
  /-- A variable or a function. -/
  | ordinary (name : String)
  | typedef (name : String)
deriving DecidableEq

/-- The enumerators that are part of the type of a name. -/
def Declarator.carried (d : Declarator TypeNode) : List String :=
  if d.name.isSome then d.type.carried else []

/-- The enumerators of an enum without a tag that is declared alone. -/
def Declarator.alone : Declarator TypeNode → List String
  | ⟨none, .enum none (some es), _⟩ => es.map (·.name)
  | _ => []

namespace Declaration

/-- What a declaration gives a type to, if it has a name. -/
def place? : Declaration → Option Place
  | .decl d | .funcDef d => d.name.map .ordinary
  | .typedef d => d.name.map .typedef
  | .pragma _ | .other .. => none

/-- The enumerators that are part of the type of the name of a declaration. -/
def carried : Declaration → List String
  | .decl d | .funcDef d | .typedef d => d.carried
  | .pragma _ | .other .. => []

/-- The enumerators that are part of a tagged type in a declaration, or of an enum that is declared
alone. -/
def anchored : Declaration → List String
  | .decl d | .funcDef d => d.alone ++ d.type.anchored
  | .typedef d => d.type.anchored
  | .pragma _ | .other .. => []

/-- The enumerators that are stored with a declaration. -/
def kept (d : Declaration) : List String := d.carried ++ d.anchored

end Declaration

/-- The enumerators that a file declares. -/
def unitEnumerators (unit : TranslationUnit) : List String :=
  (unit.flatMap Declaration.enumBodies).flatten

/-- The enumerators that are stored with the declarations of a file. -/
def unitKept (unit : TranslationUnit) : List String := unit.flatMap Declaration.kept

/-- The enumerators that are stored with the declarations of a file, without those that are part of
the type of a name that gets another type later. -/
def unitLasting : TranslationUnit → List String
  | [] => []
  | d :: ds =>
    (if d.place? ∈ ds.map Declaration.place? then d.anchored else d.kept) ++ unitLasting ds

end ForeignCall
