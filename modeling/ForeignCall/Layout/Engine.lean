import ForeignCall.Layout.Basic

/-!
# ForeignCall.Layout.Engine

A layout engine that remembers what it has computed. It has two tables, one for the layouts of
arrays, structs and unions, and one for the offsets of structs and unions. Both are kept per type
and packing width, also for the parts of a type that has no layout itself.

The layout of a struct or union is entered behind its offsets. So who has a layout finds the offsets
in the other table: a member without a name asks for them when its own layout is known.

* `Engine.layoutOf` — the layout of a type with the help of the tables;
* `Engine.layout`, `Engine.offsets`, `Engine.elementOffset` — the questions of
  `ForeignCall.Layout.Basic`.
-/

namespace ForeignCall

/-- What is known of types under packing widths. -/
abbrev Table (α : Type) := List ((CType × Nat) × α)

/-- The tables of an engine. -/
structure Memory where
  layouts : Table Layout := []
  offsets : Table Offsets := []

namespace Memory

/-- Enters a layout. -/
def putLayout (memory : Memory) (t : CType) (pack : Nat) (l : Layout) : Memory :=
  { memory with layouts := ((t, pack), l) :: memory.layouts }

/-- Enters offsets. -/
def putOffsets (memory : Memory) (t : CType) (pack : Nat) (os : Offsets) : Memory :=
  { memory with offsets := ((t, pack), os) :: memory.offsets }

end Memory

/-- A question that is answered with the help of the tables; what it enters stays in any case. -/
abbrev Recall := ExceptT LayoutError (StateM Memory)

namespace Recall

/-- A result that needs no tables. -/
def of {α : Type} (result : Except LayoutError α) : Recall α := ExceptT.mk (pure result)

/-- The layout that is in the table, or the one that is computed and then entered. -/
def layout (t : CType) (pack : Nat) (compute : Recall Layout) : Recall Layout := do
  match (← get).layouts.lookup (t, pack) with
  | some l => return l
  | none =>
    let l ← compute
    modify fun memory => memory.putLayout t pack l
    return l

/-- Enters the offsets of a struct or union and gives its layout. -/
def enter (t : CType) (pack : Nat) (p : Placement) : Recall Layout := do
  modify fun memory => memory.putOffsets t pack p.offsets
  return p.layout

/-- The offsets that are in the table, at the latest when the layout has been asked for. -/
def offsets (t : CType) (pack : Nat) (layout : Recall Layout) : Recall Offsets := do
  match (← get).offsets.lookup (t, pack) with
  | some os => return os
  | none =>
    let _ ← layout
    match (← get).offsets.lookup (t, pack) with
    | some os => return os
    | none => throw (.notAggregate t)

/-- The offsets that a member brings into the aggregate around it, whose start it follows by
`offset`. A member without a name has its own looked up. -/
def memberOffsets (name : Option String) (t : CType) (pack : Nat) (layout : Recall Layout)
    (offset : Nat) : Recall Offsets :=
  match name, t with
  | some n, _ => return [(n, offset)]
  | none, .aggregate .. => do
    return (← offsets t pack layout).map fun (n, o) => (n, offset + o)
  | none, _ => throw (.unnamedScalar t)

end Recall

/-- Where the next member of a struct starts, and the struct with its bytes but without its
offsets. -/
def StructState.extend (whole : CType) (pack : Nat) (s : StructState) (l : Layout) :
    Except LayoutError (Nat × StructState) := do
  let effective := min pack l.align
  let offset ← alignUp whole s.stop effective
  let stop ← checked whole (offset + l.size)
  .ok (offset, { s with stop, align := max s.align effective })

/-- A layout engine for one target. -/
structure Engine where
  target : Target
  memory : Memory

namespace Engine

/-- An engine that remembers nothing yet. -/
def new (target : Target) : Engine := ⟨target, {}⟩

/-- How many layouts the engine remembers. -/
def size (engine : Engine) : Nat := engine.memory.layouts.length

mutual

/-- The layout of a type, for a valid packing width. -/
def layoutOf (target : Target) (pack : Nat) : CType → Recall Layout
  | .array base (some dim) =>
    let whole := .array base (some dim)
    Recall.layout whole pack do
      let element ← layoutOf target pack base
      .of ((arrayOf whole dim.toNat ⟨element, []⟩).map (·.layout))
  | .aggregate .struct tag members =>
    let whole := .aggregate .struct tag members
    Recall.layout whole pack do
      let s ← layoutStruct target pack whole .start members
      Recall.enter whole pack (← .of (s.finish whole))
  | .aggregate .union tag members =>
    let whole := .aggregate .union tag members
    Recall.layout whole pack do
      let u ← layoutUnion target pack ⟨⟨0, 1⟩, []⟩ members
      Recall.enter whole pack (← .of (unionFinish whole u))
  | t => .of ((t.place target pack).map (·.layout))

/-- Lays out the members of a struct behind those that are placed already. -/
def layoutStruct (target : Target) (pack : Nat) (whole : CType) (s : StructState) :
    List (Member CType) → Recall StructState
  | [] => return s
  | ⟨name, t⟩ :: ms => do
    let l ← layoutOf target pack t
    let (offset, s') ← .of (s.extend whole pack l)
    let own ← Recall.memberOffsets name t pack (layoutOf target pack t) offset
    layoutStruct target pack whole { s' with offsets := s.offsets ++ own } ms

/-- Lays out the members of a union beside those that are placed already. -/
def layoutUnion (target : Target) (pack : Nat) (u : Placement) :
    List (Member CType) → Recall Placement
  | [] => return u
  | ⟨name, t⟩ :: ms => do
    let l ← layoutOf target pack t
    let own ← Recall.memberOffsets name t pack (layoutOf target pack t) 0
    layoutUnion target pack ⟨⟨max u.layout.size l.size, max u.layout.align (min pack l.align)⟩,
      u.offsets ++ own⟩ ms

end

/-- The layout of a type, if the packing width is valid. -/
def checkedLayout (target : Target) (pack : Nat) (t : CType) : Recall Layout :=
  if validPack pack then layoutOf target pack t else throw (.invalidPack pack)

/-- The answer to a question, and the engine with the tables afterwards. -/
def pose {α : Type} (engine : Engine) (question : Recall α) : Except LayoutError α × Engine :=
  let (result, memory) := question.run.run engine.memory
  (result, { engine with memory })

/-- The size and alignment of a type. -/
def layout (engine : Engine) (pack : Nat) (t : CType) : Except LayoutError Layout × Engine :=
  engine.pose (checkedLayout engine.target pack t)

/-- The size of a type. -/
def sizeOf (engine : Engine) (pack : Nat) (t : CType) : Except LayoutError Nat × Engine :=
  let (result, engine) := engine.layout pack t
  (result.map (·.size), engine)

/-- The alignment of a type. -/
def alignOf (engine : Engine) (pack : Nat) (t : CType) : Except LayoutError Nat × Engine :=
  let (result, engine) := engine.layout pack t
  (result.map (·.align), engine)

/-- The offsets of the members of a struct or union. -/
def offsets (engine : Engine) (pack : Nat) (t : CType) : Except LayoutError Offsets × Engine :=
  match t with
  | .aggregate .. => engine.pose (Recall.offsets t pack (checkedLayout engine.target pack t))
  | _ => (.error (.notAggregate t), engine)

/-- The offset of an element of an array of known dimension. -/
def elementOffset (engine : Engine) (pack : Nat) (t : CType) (index : Nat) :
    Except LayoutError Nat × Engine :=
  match t with
  | .array base (some dim) =>
    if dim.toNat ≤ index then (.error (.indexOutOfBounds t index), engine)
    else
      match engine.sizeOf pack base with
      | (.error e, engine) => (.error e, engine)
      | (.ok size, engine) => (checked t (size * index), engine)
  | .array _ none => (.error (.incompleteArray t), engine)
  | _ => (.error (.notAggregate t), engine)

end Engine

end ForeignCall
