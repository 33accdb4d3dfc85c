import ForeignCall.Declaration.Basic

/-!
# ForeignCall.Proofs.Declaration.EnumBodies

The bodies of enums in a declaration tree, wherever an enum can be written: as the type of a
declaration, inside another type, or in an operand of `sizeof` or of a cast.

* `TypeNode.enumBodies`, `Declaration.enumBodies` — the names of the enumerators of each body.
-/

namespace ForeignCall

mutual

/-- The names of the enumerators of each enum body in a type. -/
def TypeNode.enumBodies : TypeNode → List (List String)
  | .identifier _ | .other .. => []
  | .pointer base | .array base none => base.enumBodies
  | .array base (some dim) => base.enumBodies ++ exprBodies dim
  | .function none ret _ => ret.enumBodies
  | .function (some params) ret _ => memberBodies params ++ ret.enumBodies
  | .aggregate _ _ none | .enum _ none => []
  | .aggregate _ _ (some fields) => memberBodies fields
  | .enum _ (some es) => es.map (·.name) :: valueBodies es

/-- The enum bodies in the types of members or parameters. -/
def memberBodies : List (Declarator TypeNode) → List (List String)
  | [] => []
  | ⟨_, t, _⟩ :: ds => t.enumBodies ++ memberBodies ds

/-- The enum bodies in the values of enumerators. -/
def valueBodies : List (Enumerator (Expr TypeNode)) → List (List String)
  | [] => []
  | ⟨_, none⟩ :: es => valueBodies es
  | ⟨_, some e⟩ :: es => exprBodies e ++ valueBodies es

/-- The enum bodies in an expression. -/
def exprBodies : Expr TypeNode → List (List String)
  | .literal .. | .ident _ | .other .. => []
  | .unary _ operand => exprBodies operand
  | .binary _ lhs rhs => exprBodies lhs ++ exprBodies rhs
  | .sizeofType t => t.enumBodies
  | .cast t operand => t.enumBodies ++ exprBodies operand

end

/-- The enum bodies in a declaration. -/
def Declaration.enumBodies : Declaration → List (List String)
  | .decl d | .typedef d | .funcDef d => d.type.enumBodies
  | .pragma _ | .other .. => []

end ForeignCall
