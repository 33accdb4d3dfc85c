import ForeignCall.Header.Basic
import ForeignCall.Target.Basic

/-!
# ForeignCall.Bytecode.Tags

The tags that tell the executor how a value is passed. Every type that can be passed belongs to a
class, and a table numbers the classes; the header `ffi.h` can define another numbering.

* `ValueClass.of` — the class of a type;
* `TagTable.ofHeader` — the numbering that a header defines.
-/

namespace ForeignCall

/-- The classes of values that cross a call, in their standard order. -/
inductive ValueClass where
  | void | int | float | double | longDouble | uint8 | sint8 | uint16 | sint16 | uint32 | sint32
  | uint64 | sint64 | struct | pointer
deriving DecidableEq, Repr

namespace ValueClass

/-- All classes in their standard order. -/
def all : List ValueClass :=
  [.void, .int, .float, .double, .longDouble, .uint8, .sint8, .uint16, .sint16, .uint32, .sint32,
   .uint64, .sint64, .struct, .pointer]

/-- The end of the name of the macro that numbers the class. -/
def suffix : ValueClass → String
  | .void => "VOID"
  | .int => "INT"
  | .float => "FLOAT"
  | .double => "DOUBLE"
  | .longDouble => "LONGDOUBLE"
  | .uint8 => "UINT8"
  | .sint8 => "SINT8"
  | .uint16 => "UINT16"
  | .sint16 => "SINT16"
  | .uint32 => "UINT32"
  | .sint32 => "SINT32"
  | .uint64 => "UINT64"
  | .sint64 => "SINT64"
  | .struct => "STRUCT"
  | .pointer => "POINTER"

/-- The name of the macro that numbers the class. -/
def macroName (c : ValueClass) : String := "FFI_TYPE_" ++ c.suffix

/-- The class of an integer of a given size. -/
def ofInt (size : Nat) (signed : Bool) : Option ValueClass :=
  match size, signed with
  | 1, false => some .uint8
  | 1, true => some .sint8
  | 2, false => some .uint16
  | 2, true => some .sint16
  | 4, false => some .uint32
  | 4, true => some .sint32
  | 8, false => some .uint64
  | 8, true => some .sint64
  | _, _ => none

/-- The class of a type that can be passed. -/
def of (target : Target) : CType → Option ValueClass
  | .void => some .void
  | .integral kind signed => ofInt (target.integral kind).size signed
  | .enum .. => ofInt target.int.size true
  | .floating .float => some .float
  | .floating .double => some .double
  | .floating .longDouble => some .longDouble
  | .pointer _ | .array .. | .func .. => some .pointer
  | .special name => if name.text = "va_list" then some .pointer else none
  | .aggregate .. => some .struct
  | .placeholder .. => none

end ValueClass

/-- A numbering of the classes. -/
structure TagTable where
  id : ValueClass → UInt8

/-- Why a header does not number the classes. -/
inductive TagError where
  | missing (name : String)
  | outOfRange (name : String) (value : Int64)
deriving DecidableEq, Repr

/-- The text of the error. -/
def TagError.message : TagError → String
  | .missing name => "ffi.h does not define " ++ name
  | .outOfRange name value => name ++ " = " ++ toString value.toInt ++ " does not fit in a tag byte"

namespace TagTable

/-- The numbering by the standard order. -/
def standard : TagTable where
  id
    | .void => 0
    | .int => 1
    | .float => 2
    | .double => 3
    | .longDouble => 4
    | .uint8 => 5
    | .sint8 => 6
    | .uint16 => 7
    | .sint16 => 8
    | .uint32 => 9
    | .sint32 => 10
    | .uint64 => 11
    | .sint64 => 12
    | .struct => 13
    | .pointer => 14

/-- The tag of a type that can be passed. -/
def tagOf (tags : TagTable) (target : Target) (t : CType) : Option UInt8 :=
  (ValueClass.of target t).map tags.id

/-- The value of a macro that is an integer or another name for one, at most `fuel` names away. -/
def aliasValue? (h : Header) : Nat → String → Option Int64
  | 0, _ => none
  | fuel + 1, name =>
    match h.constant? name with
    | some v => some v
    | none =>
      (h.spaces.macros.get? name).bind fun d =>
        aliasValue? h fuel (String.ofList (Text.trim d.replacement.toList))

/-- How many names are followed to the value of a macro. -/
def maxAliases : Nat := 8

/-- The number of a class in a header. -/
def readId (h : Header) (c : ValueClass) : Except TagError UInt8 :=
  match aliasValue? h maxAliases c.macroName with
  | none => .error (.missing c.macroName)
  | some v =>
    if 0 ≤ v.toInt ∧ v.toInt ≤ 255 then .ok (UInt8.ofNat v.toInt.toNat)
    else .error (.outOfRange c.macroName v)

/-- The numbering that a header defines. -/
def ofHeader (h : Header) : Except TagError TagTable := do
  let ids ← ValueClass.all.mapM fun c => (readId h c).map fun n => (c, n)
  .ok ⟨fun c => (ids.lookup c).getD 0⟩

end TagTable

end ForeignCall
