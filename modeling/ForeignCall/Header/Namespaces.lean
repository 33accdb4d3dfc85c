import ForeignCall.CType.Completion
import ForeignCall.Macro.Basic
import ForeignCall.Namespace

/-!
# ForeignCall.Header.Namespaces

The named declarations of a header: one map for macros, functions, variables, typedefs, structs,
unions and enums each.

* `Namespaces.complete` — the completion of a type by the structs and unions;
* `Namespaces.enumerators` — all enumerators that occur in the declarations.
-/

namespace ForeignCall

/-- The value of an enumerator and the tag of its enum. -/
structure EnumValue where
  value : Int64
  owner : Option String
deriving DecidableEq

/-- The named declarations of a header. -/
structure Namespaces where
  macros : Namespace Macro := .empty
  functions : Namespace CType := .empty
  globals : Namespace CType := .empty
  types : Namespace CType := .empty
  structs : Namespace CType := .empty
  unions : Namespace CType := .empty
  enums : Namespace CType := .empty
deriving DecidableEq

namespace Namespaces

instance : Inhabited Namespaces := ⟨{}⟩

/-- The map of the structs or of the unions. -/
def aggregates (ns : Namespaces) : TagKind → Namespace CType
  | .struct => ns.structs
  | .union => ns.unions

/-- The declarations with another map of structs or unions. -/
def withAggregates (ns : Namespaces) (kind : TagKind) (map : Namespace CType) : Namespaces :=
  match kind with
  | .struct => { ns with structs := map }
  | .union => { ns with unions := map }

/-- The definitions of structs and unions. -/
def definitions (ns : Namespaces) : Definitions :=
  ns.structs.entries.map (fun e => (⟨.struct, e.1⟩, e.2)) ++
    ns.unions.entries.map fun e => (⟨.union, e.1⟩, e.2)

/-- The completion of a type by the structs and unions. -/
def complete (ns : Namespaces) (t : CType) : CType := t.complete ns.definitions

/-! ## Enumerators -/

mutual

/-- The enumerators that occur in a type, each with its value and the tag of its enum. -/
def enumeratorsOf : CType → List (String × EnumValue)
  | .enum tag values => values.map fun (n, v) => (n, ⟨v, tag⟩)
  | .pointer base => enumeratorsOf base
  | .array base _ => enumeratorsOf base
  | .aggregate _ _ members => enumeratorsOfMembers members
  | .func params ret _ => enumeratorsOfMembers params ++ enumeratorsOf ret
  | _ => []

/-- The enumerators that occur in the types of members. -/
def enumeratorsOfMembers : List (Member CType) → List (String × EnumValue)
  | [] => []
  | ⟨_, t⟩ :: ms => enumeratorsOf t ++ enumeratorsOfMembers ms

end

/-- All types of the declarations, in the order in which their enumerators count. -/
def allTypes (ns : Namespaces) : List CType :=
  ns.functions.values ++ ns.globals.values ++ ns.types.values ++ ns.structs.values ++
    ns.unions.values ++ ns.enums.values

/-- All enumerators of the declarations. Of two with one name the later counts. -/
def enumerators (ns : Namespaces) : Namespace EnumValue :=
  .ofList (ns.allTypes.flatMap enumeratorsOf)

end Namespaces

end ForeignCall
