import ForeignCall.Abort
import ForeignCall.CType.Basic

/-!
# ForeignCall.Target.Basic

The sizes and alignments of the primitive types of a target machine.

* `Target.lp64`, `Target.llp64` — the two common tables of 64-bit machines;
* `Target.scalar` — the layout of a type that does not depend on packing;
* `Target.bitCount` — how many bits an integer type has.
-/

namespace ForeignCall

/-- A size and an alignment in bytes. -/
structure Layout where
  size : Nat
  align : Nat
deriving DecidableEq, Repr

/-- The layouts of the primitive types of one target. -/
structure Target where
  bool : Layout
  char : Layout
  short : Layout
  int : Layout
  long : Layout
  longLong : Layout
  float : Layout
  double : Layout
  longDouble : Layout
  pointer : Layout
deriving DecidableEq, Repr

namespace Target

/-- A target whose `long` has 64 bits. -/
def lp64 : Target where
  bool := ⟨1, 1⟩
  char := ⟨1, 1⟩
  short := ⟨2, 2⟩
  int := ⟨4, 4⟩
  long := ⟨8, 8⟩
  longLong := ⟨8, 8⟩
  float := ⟨4, 4⟩
  double := ⟨8, 8⟩
  longDouble := ⟨16, 16⟩
  pointer := ⟨8, 8⟩

/-- A target whose `long` has 32 bits and whose `long double` is a `double`. -/
def llp64 : Target := { lp64 with long := ⟨4, 4⟩, longDouble := ⟨8, 8⟩ }

/-- The machine that the program runs on. -/
def host : Target := lp64

/-- The layout of an integer type. -/
def integral (target : Target) : IntKind → Layout
  | .bool => target.bool
  | .char => target.char
  | .short => target.short
  | .int => target.int
  | .long => target.long
  | .longLong => target.longLong

/-- How many bits an integer type has. The count is a word of 64 bits. -/
def bitCount (target : Target) (kind : IntKind) : Except Abort Nat :=
  let bits := (target.integral kind).size * 8
  if bits < 2 ^ 64 then .ok bits else .error .multiply

theorem bitCount_of_lt {target : Target} {kind : IntKind}
    (h : (target.integral kind).size < 2 ^ 61) :
    target.bitCount kind = .ok ((target.integral kind).size * 8) := if_pos (by omega)

/-- The layout of a floating point type. -/
def floating (target : Target) : FloatKind → Layout
  | .float => target.float
  | .double => target.double
  | .longDouble => target.longDouble

/-- The layout of a type that does not depend on packing. An enum is laid out as an `int`. -/
def scalar (target : Target) : CType → Option Layout
  | .integral kind _ => some (target.integral kind)
  | .floating kind => some (target.floating kind)
  | .pointer _ => some target.pointer
  | .enum .. => some target.int
  | _ => none

/-- The primitive types by name, with their layouts. -/
def entries (target : Target) : List (String × Layout) :=
  [("_Bool", target.bool), ("char", target.char), ("short", target.short), ("int", target.int),
   ("long", target.long), ("long long", target.longLong), ("float", target.float),
   ("double", target.double), ("long double", target.longDouble), ("pointer", target.pointer)]

/-- The target with another layout for the primitive type of a given name. -/
def withEntry (target : Target) (name : String) (layout : Layout) : Target :=
  match name with
  | "_Bool" => { target with bool := layout }
  | "char" => { target with char := layout }
  | "short" => { target with short := layout }
  | "int" => { target with int := layout }
  | "long" => { target with long := layout }
  | "long long" => { target with longLong := layout }
  | "float" => { target with float := layout }
  | "double" => { target with double := layout }
  | "long double" => { target with longDouble := layout }
  | "pointer" => { target with pointer := layout }
  | _ => target

end Target

end ForeignCall
