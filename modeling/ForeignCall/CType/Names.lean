import ForeignCall.CType.Basic

/-!
# ForeignCall.CType.Names

The names of types: the canonical name of a type without parts, and the text of a type in messages.

* `CType.canonicalName` — the name of an atomic type;
* `CType.ofCanonical?` — the atomic type with a given canonical name;
* `CType.display` — the text of any type.
-/

namespace ForeignCall

/-- The keywords of an integer type without its sign. -/
def IntKind.spelling : IntKind → String
  | .bool => "_Bool"
  | .char => "char"
  | .short => "short"
  | .int => "int"
  | .long => "long"
  | .longLong => "long long"

/-- The keywords of a floating point type. -/
def FloatKind.spelling : FloatKind → String
  | .float => "float"
  | .double => "double"
  | .longDouble => "long double"

namespace CType

/-- The name of an integer type, with its sign unless it is the type of truth values. -/
def integralName (kind : IntKind) (signed : Bool) : String :=
  match kind with
  | .bool => kind.spelling
  | _ => (if signed then "signed " else "unsigned ") ++ kind.spelling

/-- The name of a type that has no parts; `none` for any other type. -/
def canonicalName : CType → Option String
  | .void => some "void"
  | .special name => some name.text
  | .integral kind signed => some (integralName kind signed)
  | .floating kind => some kind.spelling
  | _ => none

/-- The atomic types other than special ones, with their canonical names. -/
def atomicTypes : List (String × CType) :=
  [("void", .void), ("_Bool", bool), ("va_list", vaList),
   ("float", .floating .float), ("double", .floating .double),
   ("long double", .floating .longDouble),
   ("signed char", .integral .char true), ("unsigned char", .integral .char false),
   ("signed short", .integral .short true), ("unsigned short", .integral .short false),
   ("signed int", .integral .int true), ("unsigned int", .integral .int false),
   ("signed long", .integral .long true), ("unsigned long", .integral .long false),
   ("signed long long", .integral .longLong true),
   ("unsigned long long", .integral .longLong false)]

/-- The atomic type with a canonical name; of the special types only the argument list is among
them. -/
def ofCanonical? (name : String) : Option CType :=
  (atomicTypes.find? (·.1 = name)).map (·.2)

/-- The tag of a type, or dots in braces when it has none. -/
def tagText : Option String → String
  | some tag => tag
  | none => "\x7b...\x7d"

mutual

/-- The text of a type in messages. A struct, union or enum is named by its tag. -/
def display : CType → String
  | .void => "void"
  | .special name => name.text
  | .integral kind signed => integralName kind signed
  | .floating kind => kind.spelling
  | .pointer base => base.display ++ "*"
  | .array base (some dim) => base.display ++ "[" ++ toString dim.toNat ++ "]"
  | .array base none => base.display ++ "[]"
  | .aggregate kind tag _ => kind.keyword ++ " " ++ tagText tag
  | .placeholder kind tag => kind.keyword ++ " " ++ tag
  | .enum tag _ => "enum " ++ tagText tag
  | .func params ret variadic =>
    let texts := displayParams params ++ if variadic then ["..."] else []
    ret.display ++ "(" ++ ", ".intercalate texts ++ ")"

/-- The texts of the types of parameters. -/
def displayParams : List (Member CType) → List String
  | [] => []
  | ⟨_, t⟩ :: ps => t.display :: displayParams ps

end

end CType

end ForeignCall
