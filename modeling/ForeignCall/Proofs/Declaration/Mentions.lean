import ForeignCall.CType.Completion
import ForeignCall.Declaration.Basic

/-!
# ForeignCall.Proofs.Declaration.Mentions

The tags of structs and unions in a declaration tree, with a body or without one, wherever a type
can be written.

* `TypeNode.mentions`, `Declaration.mentions`, `unitMentions` — the tags that are mentioned.
-/

namespace ForeignCall

mutual

/-- The tags of structs and unions in a type. -/
def TypeNode.mentions : TypeNode → List Tag
  | .identifier _ | .other .. => []
  | .pointer base | .array base none => base.mentions
  | .array base (some dim) => base.mentions ++ exprMentions dim
  | .function none ret _ => ret.mentions
  | .function (some params) ret _ => memberMentions params ++ ret.mentions
  | .aggregate kind tag none => tag.toList.map (Tag.mk kind)
  | .aggregate kind tag (some fields) => memberMentions fields ++ tag.toList.map (Tag.mk kind)
  | .enum _ none => []
  | .enum _ (some es) => valueMentions es

/-- The tags in the types of members or parameters. -/
def memberMentions : List (Declarator TypeNode) → List Tag
  | [] => []
  | ⟨_, t, _⟩ :: ds => t.mentions ++ memberMentions ds

/-- The tags in the values of enumerators. -/
def valueMentions : List (Enumerator (Expr TypeNode)) → List Tag
  | [] => []
  | ⟨_, none⟩ :: es => valueMentions es
  | ⟨_, some e⟩ :: es => exprMentions e ++ valueMentions es

/-- The tags in an expression. -/
def exprMentions : Expr TypeNode → List Tag
  | .literal .. | .ident _ | .other .. => []
  | .unary _ operand => exprMentions operand
  | .binary _ lhs rhs => exprMentions lhs ++ exprMentions rhs
  | .sizeofType t => t.mentions
  | .cast t operand => exprMentions operand ++ t.mentions

end

/-- The tags in a declaration. -/
def Declaration.mentions : Declaration → List Tag
  | .decl d | .typedef d | .funcDef d => d.type.mentions
  | .pragma _ | .other .. => []

/-- The tags in the declarations of a file. -/
def unitMentions (unit : TranslationUnit) : List Tag := unit.flatMap Declaration.mentions

end ForeignCall
