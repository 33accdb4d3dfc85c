/-!
# ForeignCall.CType.Basic

The types of C as they occur in the declarations of a header.

A type is a tree and is compared by its shape. A struct or union that is only known by its tag is a
placeholder; a store of definitions can replace it later (`ForeignCall.CType.Completion`).

* `CType.decEq` — equality of types is decidable;
* `CType.decayed` — the type that an argument has after an array or a function has become a pointer.
-/

namespace ForeignCall

/-- The integer types without their signedness, by rank. -/
inductive IntKind where
  | bool | char | short | int | long | longLong
deriving DecidableEq, Repr

/-- The floating point types. -/
inductive FloatKind where
  | float | double | longDouble
deriving DecidableEq, Repr

/-- The two kinds of aggregates; each has its own tags. -/
inductive TagKind where
  | struct | union
deriving DecidableEq, Repr

/-- The keyword in front of a tag. -/
def TagKind.keyword : TagKind → String
  | .struct => "struct"
  | .union => "union"

/-! ## Names of special types -/

/-- Keywords that stand for other types or qualify them, so no special type has their names. -/
def reservedNames : List String :=
  ["void", "_Bool", "char", "short", "int", "long", "signed", "unsigned", "float", "double",
   "struct", "union", "enum", "const", "volatile"]

/-- A letter of the alphabet, or an underscore. -/
def isIdentifierStart (c : Char) : Bool := c.isAlpha || c = '_'

/-- A character that can follow in an identifier. -/
def isIdentifierChar (c : Char) : Bool := c.isAlphanum || c = '_'

/-- An identifier that is no reserved name. -/
def isSpecialName (name : String) : Bool :=
  match name.toList with
  | [] => false
  | c :: cs => isIdentifierStart c && cs.all isIdentifierChar && !reservedNames.contains name

/-- The name of a type of which nothing else is known. -/
structure SpecialName where
  text : String
  valid : isSpecialName text = true
deriving DecidableEq

/-- The special name with a given text, if the text is an identifier and not reserved. -/
def SpecialName.ofString? (name : String) : Option SpecialName :=
  if h : isSpecialName name = true then some ⟨name, h⟩ else none

/-- The list of a variadic function's arguments. -/
def SpecialName.vaList : SpecialName := ⟨"va_list", by decide +kernel⟩

/-! ## Types -/

/-- A member of an aggregate, or a parameter of a function. -/
structure Member (τ : Type) where
  name : Option String
  type : τ
deriving DecidableEq, Repr

/-- A type of C. -/
inductive CType where
  | void
  /-- A type that is known by its name only. -/
  | special (name : SpecialName)
  | integral (kind : IntKind) (signed : Bool)
  | floating (kind : FloatKind)
  | pointer (base : CType)
  /-- An array; without a dimension it is incomplete. -/
  | array (base : CType) (dim : Option UInt64)
  /-- A struct or union with its members. -/
  | aggregate (kind : TagKind) (tag : Option String) (members : List (Member CType))
  /-- A struct or union of which only the tag is known. -/
  | placeholder (kind : TagKind) (tag : String)
  /-- An enum with its enumerators in the order of their declaration. -/
  | enum (tag : Option String) (values : List (String × Int64))
  | func (params : List (Member CType)) (ret : CType) (variadic : Bool)

namespace CType

instance : Inhabited CType := ⟨.void⟩

/-! ## Equality -/

mutual

/-- Types are equal when they have the same shape. -/
def decEq : (a b : CType) → Decidable (a = b)
  | .void, b => by cases b <;> first | exact isTrue rfl | exact isFalse nofun
  | .special n, b => by
    cases b with
    | special m =>
      exact if h : n = m then isTrue (h ▸ rfl) else isFalse fun e => h (by cases e; rfl)
    | _ => exact isFalse nofun
  | .integral k s, b => by
    cases b with
    | integral k' s' =>
      exact if h : k = k' ∧ s = s' then isTrue (by rw [h.1, h.2])
        else isFalse fun e => h (by cases e; exact ⟨rfl, rfl⟩)
    | _ => exact isFalse nofun
  | .floating k, b => by
    cases b with
    | floating k' =>
      exact if h : k = k' then isTrue (h ▸ rfl) else isFalse fun e => h (by cases e; rfl)
    | _ => exact isFalse nofun
  | .pointer a, b => by
    cases b with
    | pointer a' =>
      exact match decEq a a' with
        | isTrue h => isTrue (h ▸ rfl)
        | isFalse h => isFalse fun e => h (by cases e; rfl)
    | _ => exact isFalse nofun
  | .array a d, b => by
    cases b with
    | array a' d' =>
      exact match decEq a a' with
        | isTrue h =>
          if h' : d = d' then isTrue (by rw [h, h']) else isFalse fun e => h' (by cases e; rfl)
        | isFalse h => isFalse fun e => h (by cases e; rfl)
    | _ => exact isFalse nofun
  | .aggregate k t ms, b => by
    cases b with
    | aggregate k' t' ms' =>
      exact match decEqMembers ms ms' with
        | isTrue h =>
          if h' : k = k' ∧ t = t' then isTrue (by rw [h, h'.1, h'.2])
          else isFalse fun e => h' (by cases e; exact ⟨rfl, rfl⟩)
        | isFalse h => isFalse fun e => h (by cases e; rfl)
    | _ => exact isFalse nofun
  | .placeholder k t, b => by
    cases b with
    | placeholder k' t' =>
      exact if h : k = k' ∧ t = t' then isTrue (by rw [h.1, h.2])
        else isFalse fun e => h (by cases e; exact ⟨rfl, rfl⟩)
    | _ => exact isFalse nofun
  | .enum t vs, b => by
    cases b with
    | enum t' vs' =>
      exact if h : t = t' ∧ vs = vs' then isTrue (by rw [h.1, h.2])
        else isFalse fun e => h (by cases e; exact ⟨rfl, rfl⟩)
    | _ => exact isFalse nofun
  | .func ps r v, b => by
    cases b with
    | func ps' r' v' =>
      exact match decEqMembers ps ps', decEq r r' with
        | isTrue h, isTrue h' =>
          if h'' : v = v' then isTrue (by rw [h, h', h''])
          else isFalse fun e => h'' (by cases e; rfl)
        | isFalse h, _ => isFalse fun e => h (by cases e; rfl)
        | _, isFalse h => isFalse fun e => h (by cases e; rfl)
    | _ => exact isFalse nofun

/-- Lists of members are equal when their names and types are. -/
def decEqMembers : (a b : List (Member CType)) → Decidable (a = b)
  | [], [] => isTrue rfl
  | [], _ :: _ => isFalse nofun
  | _ :: _, [] => isFalse nofun
  | ⟨n, t⟩ :: ms, ⟨n', t'⟩ :: ms' =>
    match decEq t t', decEqMembers ms ms' with
    | isTrue h, isTrue h' =>
      if h'' : n = n' then isTrue (by rw [h, h', h'']) else isFalse fun e => h'' (by cases e; rfl)
    | isFalse h, _ => isFalse fun e => h (by cases e; rfl)
    | _, isFalse h => isFalse fun e => h (by cases e; rfl)

end

instance : DecidableEq CType := decEq

/-! ## Common types -/

/-- The type of truth values. -/
def bool : CType := .integral .bool false

/-- A character without a sign. -/
def uchar : CType := .integral .char false

/-- A signed integer of the natural size. -/
def int : CType := .integral .int true

/-- An unsigned integer of the natural size. -/
def uint : CType := .integral .int false

/-- The floating point type of double precision. -/
def double : CType := .floating .double

/-- The list of a variadic function's arguments. -/
def vaList : CType := .special .vaList

/-- A pointer to anything. -/
def voidPointer : CType := .pointer .void

/-- A string of the host program: a pointer to unsigned characters. -/
def stringPointer : CType := .pointer uchar

/-! ## Classes of types -/

/-- The type `void`. -/
def isVoid : CType → Bool
  | .void => true
  | _ => false

/-- An integer type; an enum is none. -/
def isIntegral : CType → Bool
  | .integral .. => true
  | _ => false

/-- A floating point type. -/
def isFloating : CType → Bool
  | .floating _ => true
  | _ => false

/-- A type with implicit arithmetic conversions. -/
def isArithmetic : CType → Bool
  | .integral .. | .floating _ | .enum .. => true
  | _ => false

/-- A character type, signed or not. -/
def isCharacter : CType → Bool
  | .integral .char _ => true
  | _ => false

/-- A pointer. -/
def isPointer : CType → Bool
  | .pointer _ => true
  | _ => false

/-- What a pointer points to, or the elements of an array. -/
def pointee : CType → Option CType
  | .pointer base | .array base _ => some base
  | _ => none

/-- The kind of a struct or union, complete or not. -/
def tagKind : CType → Option TagKind
  | .aggregate kind .. | .placeholder kind _ => some kind
  | _ => none

/-- The type of an argument: an array becomes a pointer to its elements, a function a pointer to
itself. -/
def decayed : CType → CType
  | .array base _ => .pointer base
  | .func ps r v => .pointer (.func ps r v)
  | t => t

end CType

/-- The value of an enumerator of an enum. -/
def enumValue (values : List (String × Int64)) (name : String) : Option Int64 :=
  (values.find? (·.1 = name)).map (·.2)

end ForeignCall
