import ForeignCall.Header.Translation
import ForeignCall.Proofs.Results

/-!
# ForeignCall.Proofs.Header.Sizeofs

The `sizeof` expressions that are evaluated while declarations are translated, each with the header
as it is at that moment. An expression behind a part that fails is not evaluated, and one behind a
part that succeeds is evaluated with the header that this part leaves.

* `Sizeof` — an expression that is evaluated;
* `TypeNode.sizeofs`, `Declaration.sizeofs`, `unitSizeofs` — the expressions that are evaluated.
-/

namespace ForeignCall

/-! ## Evaluated expressions -/

/-- A `sizeof` that is evaluated: its operand, and the header before the operand is translated. -/
structure Sizeof where
  context : Context
  operand : TypeNode
  start : Builder

namespace Sizeof

/-- The type of the operand, and the header afterwards. -/
def denoted (s : Sizeof) : Except TranslationError CType × Builder :=
  runFrom s.start (s.operand.translate s.context)

/-- The value of the expression. -/
def value (s : Sizeof) : Except TranslationError Int64 :=
  (runFrom s.start (s.context.sizeOf ⟨s.operand.display, s.operand.translate s.context⟩)).1

end Sizeof

/-- The expressions that are evaluated, from the header at the start. -/
abbrev Sizeofs := Builder → List Sizeof

namespace Sizeofs

/-- Nothing is evaluated. -/
def none : Sizeofs := fun _ => []

/-- What is evaluated during a step, and behind it if it succeeds. -/
def andThen {α : Type} (first : Sizeofs) (x : Build α) (rest : α → Sizeofs) : Sizeofs := fun b =>
  first b ++
    match runFrom b x with
    | (.ok a, b') => rest a b'
    | (.error _, _) => []

end Sizeofs

mutual

/-- What is evaluated while a type is translated. -/
def TypeNode.sizeofs (cx : Context) : TypeNode → Sizeofs
  | .pointer base | .array base none => base.sizeofs cx
  | .array base (some dim) =>
    (base.sizeofs cx).andThen (base.translate cx) fun _ => exprSizeofs cx dim
  | .function none ret _ => ret.sizeofs cx
  | .function (some params) ret _ =>
    if isVoidList params then ret.sizeofs cx
    else (memberSizeofs cx params).andThen (translateMembers cx params) fun _ => ret.sizeofs cx
  | .aggregate _ _ (some fields) => memberSizeofs cx fields
  | .enum tag (some es) => valueSizeofs cx tag 0 es
  | .identifier _ | .aggregate _ _ none | .enum _ none | .other .. => .none

/-- What is evaluated while members or parameters are translated. -/
def memberSizeofs (cx : Context) : List (Declarator TypeNode) → Sizeofs
  | [] => .none
  | ⟨_, t, _⟩ :: ds => (t.sizeofs cx).andThen (t.translate cx) fun _ => memberSizeofs cx ds

/-- What is evaluated while enumerators get their values. -/
def valueSizeofs (cx : Context) (tag : Option String) :
    Int64 → List (Enumerator (Expr TypeNode)) → Sizeofs
  | _, [] => .none
  | next, ⟨name, none⟩ :: es =>
    Sizeofs.none.andThen (Context.addEnumerator tag name next) fun after =>
      valueSizeofs cx tag after es
  | _, ⟨name, some e⟩ :: es =>
    (exprSizeofs cx e).andThen (cx.constant (lower cx e)) fun value =>
      Sizeofs.none.andThen (Context.addEnumerator tag name value) fun after =>
        valueSizeofs cx tag after es

/-- What is evaluated as a part of an expression. -/
def exprSizeofs (cx : Context) : Expr TypeNode → Sizeofs
  | .unary _ operand => exprSizeofs cx operand
  | .binary op lhs rhs =>
    match binaryOp? op with
    | some _ =>
      (exprSizeofs cx lhs).andThen ((lower cx lhs).evaluate cx.environment) fun _ =>
        exprSizeofs cx rhs
    | none => .none
  | .sizeofType t => fun b => ⟨cx, t, b⟩ :: t.sizeofs cx b
  | .cast t operand =>
    (exprSizeofs cx operand).andThen ((lower cx operand).evaluate cx.environment) fun _ =>
      t.sizeofs cx
  | .literal .. | .ident _ | .other .. => .none

end

/-- What is evaluated while a declaration is translated. -/
def Declaration.sizeofs (target : Target) (pack : Nat) : Declaration → Sizeofs
  | .decl d | .funcDef d => d.type.sizeofs ⟨target, pack, d.coord⟩
  | .typedef d => if d.name.isSome then d.type.sizeofs ⟨target, pack, d.coord⟩ else .none
  | .pragma _ | .other .. => .none

/-- What is evaluated while the declarations of a file are translated. -/
def unitSizeofs (target : Target) (pack : Nat) : TranslationUnit → Sizeofs
  | [] => .none
  | d :: ds =>
    (d.sizeofs target pack).andThen (d.translate target pack) fun _ => unitSizeofs target pack ds

end ForeignCall
