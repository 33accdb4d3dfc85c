import ForeignCall.Layout.Error
import ForeignCall.Instances
import ForeignCall.Target.Basic

/-!
# ForeignCall.Layout.Basic

Where the parts of a type lie in memory.

Every member of a struct starts at the next multiple of its effective alignment, which is the
smaller of its own alignment and the packing width. A struct is as long as a multiple of its
alignment, and a union as long as its longest member. The members of a struct or union without a
name count as members of the aggregate around it.

* `CType.place` — size, alignment and the offsets of the members;
* `CType.layout`, `CType.offsets`, `CType.elementOffset` — the questions that can be asked.

Sizes and offsets fit 64 bits; a struct or an array that would be longer has none. Nothing can be
rounded up to a multiple of an alignment that is zero, and no size can be compared with its
multiples: there the program ends.
-/

namespace ForeignCall

/-- The packing width when none is given. -/
def defaultPack : Nat := 8

/-- The largest size and offset. -/
def maxSize : Nat := 2 ^ 64 - 1

/-- The offsets of named members, in the order of their declaration. -/
abbrev Offsets := List (String × Nat)

/-- The offset of a member. -/
def Offsets.get? (offsets : Offsets) (name : String) : Option Nat :=
  (offsets.find? (·.1 = name)).map (·.2)

/-- The layout of a type and the offsets of its members, if it has any. -/
structure Placement where
  layout : Layout
  offsets : Offsets
deriving DecidableEq, Repr

/-- The least multiple of a positive `align` that is at least `n`. -/
def roundUp (n align : Nat) : Nat := (n + align - 1) / align * align

/-- A size or offset, if it fits 64 bits. -/
def checked (type : CType) (n : Nat) : Except LayoutError Nat :=
  if n ≤ maxSize then .ok n else .error (.overflow type)

/-- The next place behind `n` that is aligned, if it fits 64 bits. -/
def alignUp (type : CType) (n align : Nat) : Except LayoutError Nat :=
  if align = 0 then .error (.abort .divide) else checked type (roundUp n align)

/-- Whether a packing width is a power of two. -/
def validPack (pack : Nat) : Bool := 0 < pack && 2 ^ pack.log2 == pack

/-- The offsets that a member brings into the aggregate around it, whose start it follows by
`offset`: its own if it has a name, else those of its members. -/
def memberOffsets (name : Option String) (type : CType) (placement : Placement) (offset : Nat) :
    Except LayoutError Offsets :=
  match name, type with
  | some n, _ => .ok [(n, offset)]
  | none, .aggregate .. => .ok (placement.offsets.map fun (n, o) => (n, offset + o))
  | none, t => .error (.unnamedScalar t)

/-! ## One step -/

/-- The struct that is laid out so far: its end, its alignment and the offsets of its members. -/
structure StructState where
  stop : Nat
  align : Nat
  offsets : Offsets
deriving DecidableEq, Repr

/-- A struct before its first member. -/
def StructState.start : StructState := ⟨0, 1, []⟩

/-- Adds a member to the struct `whole`. -/
def StructState.add (whole : CType) (pack : Nat) (s : StructState) (name : Option String)
    (type : CType) (p : Placement) : Except LayoutError StructState := do
  let effective := min pack p.layout.align
  let offset ← alignUp whole s.stop effective
  let stop ← checked whole (offset + p.layout.size)
  let own ← memberOffsets name type p offset
  .ok ⟨stop, max s.align effective, s.offsets ++ own⟩

/-- The struct behind its last member; it has at least one byte. -/
def StructState.finish (whole : CType) (s : StructState) : Except LayoutError Placement :=
  (alignUp whole s.stop s.align).map fun size => ⟨⟨max size 1, s.align⟩, s.offsets⟩

/-- Adds a member to a union. -/
def unionAdd (pack : Nat) (u : Placement) (name : Option String) (type : CType) (p : Placement) :
    Except LayoutError Placement := do
  let own ← memberOffsets name type p 0
  .ok ⟨⟨max u.layout.size p.layout.size, max u.layout.align (min pack p.layout.align)⟩,
    u.offsets ++ own⟩

/-- The union behind its last member; a union of size zero has no layout. -/
def unionFinish (whole : CType) (u : Placement) : Except LayoutError Placement :=
  if u.layout.size = 0 then .error (.emptyUnion whole) else .ok u

/-- The array of `dim` elements. -/
def arrayOf (whole : CType) (dim : Nat) (element : Placement) : Except LayoutError Placement :=
  let l := element.layout
  if l.align = 0 then .error (.abort .remainder)
  else if l.size % l.align ≠ 0 then .error (.misalignedElement whole l.size l.align)
  else (checked whole (l.size * dim)).map fun size => ⟨⟨size, l.align⟩, []⟩

/-- Why a type has no layout whatever the packing; `none` for a scalar or a type made of parts. -/
def CType.shapeless : CType → Option LayoutError
  | .void => some .void
  | .special n => some (.noNativeLayout (.special n))
  | .placeholder k n => some (.unknownBody (.placeholder k n))
  | .func ps r v => some (.function (.func ps r v))
  | .array base none => some (.incompleteArray (.array base none))
  | _ => none

/-! ## Whole types -/

namespace CType

mutual

/-- Where the parts of a type lie, for a valid packing width. -/
def place (target : Target) (pack : Nat) : CType → Except LayoutError Placement
  | .array base (some dim) =>
    match place target pack base with
    | .error e => .error e
    | .ok element => arrayOf (.array base (some dim)) dim.toNat element
  | .aggregate .struct tag members =>
    let whole := .aggregate .struct tag members
    match placeStruct target pack whole .start members with
    | .error e => .error e
    | .ok s => s.finish whole
  | .aggregate .union tag members =>
    match placeUnion target pack ⟨⟨0, 1⟩, []⟩ members with
    | .error e => .error e
    | .ok u => unionFinish (.aggregate .union tag members) u
  | t =>
    match target.scalar t, t.shapeless with
    | some layout, _ => .ok ⟨layout, []⟩
    | none, some e => .error e
    | none, none => .error (.noNativeLayout t)

/-- Lays out the members of a struct behind those that are placed already. -/
def placeStruct (target : Target) (pack : Nat) (whole : CType) (s : StructState) :
    List (Member CType) → Except LayoutError StructState
  | [] => .ok s
  | ⟨name, t⟩ :: ms =>
    match place target pack t with
    | .error e => .error e
    | .ok p =>
      match s.add whole pack name t p with
      | .error e => .error e
      | .ok s' => placeStruct target pack whole s' ms

/-- Lays out the members of a union beside those that are placed already. -/
def placeUnion (target : Target) (pack : Nat) (u : Placement) :
    List (Member CType) → Except LayoutError Placement
  | [] => .ok u
  | ⟨name, t⟩ :: ms =>
    match place target pack t with
    | .error e => .error e
    | .ok p =>
      match unionAdd pack u name t p with
      | .error e => .error e
      | .ok u' => placeUnion target pack u' ms

end

/-- The size and alignment of a type. -/
def layout (target : Target) (pack : Nat) (t : CType) : Except LayoutError Layout :=
  if validPack pack then (place target pack t).map (·.layout) else .error (.invalidPack pack)

/-- The offsets of the members of a struct or union. -/
def offsets (target : Target) (pack : Nat) (t : CType) : Except LayoutError Offsets :=
  match t with
  | .aggregate .. =>
    if validPack pack then (place target pack t).map (·.offsets) else .error (.invalidPack pack)
  | _ => .error (.notAggregate t)

/-- The offset of an element of an array of known dimension. -/
def elementOffset (target : Target) (pack : Nat) (t : CType) (index : Nat) :
    Except LayoutError Nat :=
  match t with
  | .array base (some dim) =>
    if dim.toNat ≤ index then .error (.indexOutOfBounds t index)
    else
      match layout target pack base with
      | .error e => .error e
      | .ok l => checked t (l.size * index)
  | .array _ none => .error (.incompleteArray t)
  | _ => .error (.notAggregate t)

end CType

end ForeignCall
