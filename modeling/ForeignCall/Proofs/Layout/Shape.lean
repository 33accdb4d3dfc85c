import ForeignCall.Proofs.Layout.Structs

/-!
# ForeignCall.Proofs.Layout.Shape

What the layout of a type depends on. What pointers point to, the signs of integers, enumerators,
tags and the names of members take no part in it; an error speaks of types, which differ as the
types that have been asked for.

* `CType.shape` — a type without all that, and `CType.mapPointees`: other types behind pointers;
* `CType.layout_shape`, `CType.offsets_shape` — the layout of the shape of a type;
* `CType.layout_of_shape` — types of one shape have one layout.
-/

namespace ForeignCall

/-! ## Shapes -/

namespace CType

mutual

/-- What is left of a type when it is forgotten what its pointers point to, which of its integers
have signs, what its enumerators are, and how its tags and its named members are called. -/
def shape : CType → CType
  | .integral kind _ => .integral kind true
  | .pointer _ => .pointer .void
  | .array base dim => .array base.shape dim
  | .aggregate kind _ members => .aggregate kind none (memberShapes members)
  | .placeholder kind _ => .placeholder kind ""
  | .enum _ _ => .enum none []
  | .func params ret variadic => .func (memberShapes params) ret.shape variadic
  | t => t

/-- The shapes of members. A member with a name keeps having one. -/
def memberShapes : List (Member CType) → List (Member CType)
  | [] => []
  | ⟨name, t⟩ :: ms => ⟨name.map fun _ => "", t.shape⟩ :: memberShapes ms

end

mutual

/-- Puts another type behind every pointer that stands by value. -/
def mapPointees (f : CType → CType) : CType → CType
  | .pointer base => .pointer (f base)
  | .array base dim => .array (base.mapPointees f) dim
  | .aggregate kind tag members => .aggregate kind tag (mapMemberPointees f members)
  | t => t

/-- Puts another type behind every pointer in members. -/
def mapMemberPointees (f : CType → CType) : List (Member CType) → List (Member CType)
  | [] => []
  | ⟨name, t⟩ :: ms => ⟨name, t.mapPointees f⟩ :: mapMemberPointees f ms

end

attribute [simp] shape memberShapes mapPointees mapMemberPointees

/-- What stands behind pointers does not show in the shape. -/
theorem shape_mapPointees (f : CType → CType) (t : CType) : (t.mapPointees f).shape = t.shape := by
  induction t with
  | array base dim ih => simp [ih]
  | aggregate kind tag members ih =>
    have hmembers : memberShapes (mapMemberPointees f members) = memberShapes members := by
      induction members with
      | nil => rfl
      | cons m ms ihms =>
        rw [List.forall_mem_cons] at ih
        simp [ih.1, ihms ih.2]
    simp [hmembers]
  | void | special | integral | floating | pointer | placeholder | enum | func => simp

end CType

/-- An error about the shape of a type. It says the same of it, with the same numbers. -/
def LayoutError.shape : LayoutError → LayoutError
  | .incompleteArray t => .incompleteArray t.shape
  | .unknownBody t => .unknownBody t.shape
  | .function t => .function t.shape
  | .void => .void
  | .noNativeLayout t => .noNativeLayout t.shape
  | .emptyUnion t => .emptyUnion t.shape
  | .misalignedElement t size align => .misalignedElement t.shape size align
  | .unnamedScalar t => .unnamedScalar t.shape
  | .notAggregate t => .notAggregate t.shape
  | .indexOutOfBounds t index => .indexOutOfBounds t.shape index
  | .invalidPack pack => .invalidPack pack
  | .overflow t => .overflow t.shape
  | .notCastable t => .notCastable t.shape
  | .abort reason => .abort reason

/-- Offsets without the names of their members. -/
def Offsets.unnamed (offsets : Offsets) : Offsets := offsets.map fun a => ("", a.2)

/-- A placement without the names of the members. -/
def Placement.unnamed (p : Placement) : Placement := ⟨p.layout, p.offsets.unnamed⟩

/-- A struct that is laid out so far, without the names of the members. -/
def StructState.unnamed (s : StructState) : StructState := { s with offsets := s.offsets.unnamed }

theorem Offsets.unnamed_append (os os' : Offsets) :
    Offsets.unnamed (os ++ os') = os.unnamed ++ os'.unnamed :=
  List.map_append

/-- What is found for the shape of a type: a value without names, or an error about shapes. -/
def withoutNames {α : Type} (unnamed : α → α) (result : Except LayoutError α) :
    Except LayoutError α :=
  (result.map unnamed).mapError LayoutError.shape

/-- One step after the other is taken without names if both are. -/
theorem withoutNames_bind {α β : Type} {f : α → α} {g : β → β} {x : Except LayoutError α}
    {rest rest' : α → Except LayoutError β}
    (h : ∀ a, rest' (f a) = withoutNames g (rest a)) :
    (withoutNames f x >>= rest') = withoutNames g (x >>= rest) := by
  cases x with
  | error e => rfl
  | ok a => exact h a

/-! ## One step -/

section Steps

variable (whole : CType) (pack : Nat)

theorem checked_shape (n : Nat) : checked whole.shape n = withoutNames id (checked whole n) := by
  unfold checked
  split <;> rfl

theorem alignUp_shape (n align : Nat) :
    alignUp whole.shape n align = withoutNames id (alignUp whole n align) := by
  unfold alignUp
  split
  · rfl
  · exact checked_shape whole _

/-- A member brings the same offsets, whatever its name is. -/
theorem memberOffsets_shape (name : Option String) (t : CType) (p : Placement) (offset : Nat) :
    memberOffsets (name.map fun _ => "") t.shape p.unnamed offset =
      withoutNames Offsets.unnamed (memberOffsets name t p offset) := by
  cases name with
  | some name => rfl
  | none =>
    cases t with
    | aggregate kind tag members =>
      simp [memberOffsets, Placement.unnamed, Offsets.unnamed, withoutNames, Except.map,
        Except.mapError]
    | void | special | integral | floating | pointer | array | placeholder | enum | func => rfl

theorem joinStruct_shape (s : StructState) (m : Member CType) (p : Placement) :
    CType.joinStruct whole.shape pack s.unnamed ⟨m.name.map fun _ => "", m.type.shape⟩ p.unnamed =
      withoutNames StructState.unnamed (CType.joinStruct whole pack s m p) := by
  unfold CType.joinStruct StructState.add
  simp only [alignUp_shape, checked_shape, memberOffsets_shape]
  refine withoutNames_bind fun offset => withoutNames_bind fun stop => ?_
  refine withoutNames_bind fun own => ?_
  simp [withoutNames, Except.map, Except.mapError, StructState.unnamed, Placement.unnamed,
    Offsets.unnamed_append]

theorem finish_shape (s : StructState) :
    s.unnamed.finish whole.shape = withoutNames Placement.unnamed (s.finish whole) := by
  unfold StructState.finish
  rw [alignUp_shape]
  change (withoutNames id (alignUp whole s.stop s.align)).map _ = _
  cases alignUp whole s.stop s.align <;> rfl

theorem joinUnion_shape (u : Placement) (m : Member CType) (p : Placement) :
    CType.joinUnion pack u.unnamed ⟨m.name.map fun _ => "", m.type.shape⟩ p.unnamed =
      withoutNames Placement.unnamed (CType.joinUnion pack u m p) := by
  unfold CType.joinUnion unionAdd
  rw [memberOffsets_shape]
  refine withoutNames_bind fun own => ?_
  simp [withoutNames, Except.map, Except.mapError, Placement.unnamed, Offsets.unnamed_append]

theorem unionFinish_shape (u : Placement) :
    unionFinish whole.shape u.unnamed = withoutNames Placement.unnamed (unionFinish whole u) := by
  unfold unionFinish Placement.unnamed
  dsimp only
  split <;> rfl

theorem arrayOf_shape (dim : Nat) (element : Placement) :
    arrayOf whole.shape dim element.unnamed =
      withoutNames Placement.unnamed (arrayOf whole dim element) := by
  unfold arrayOf Placement.unnamed
  dsimp only
  split
  · rfl
  · split
    · rfl
    · rw [checked_shape]
      cases checked whole (element.layout.size * dim) <;> rfl

end Steps

/-! ## Whole types -/

namespace CType

variable {target : Target} {pack : Nat}

/-- **Members are laid out as their shapes are**, if each of them is and the steps agree. -/
theorem placeMembers_shape {α : Type}
    {join join' : α → Member CType → Placement → Except LayoutError α} {unnamed : α → α}
    (hjoin : ∀ a m p, join' (unnamed a) ⟨m.name.map fun _ => "", m.type.shape⟩ p.unnamed =
      withoutNames unnamed (join a m p))
    {ms : List (Member CType)}
    (hms : ∀ m ∈ ms, place target pack m.type.shape =
      withoutNames Placement.unnamed (place target pack m.type)) (a : α) :
    placeMembers target pack join' (unnamed a) (memberShapes ms) =
      withoutNames unnamed (placeMembers target pack join a ms) := by
  induction ms generalizing a with
  | nil => rfl
  | cons m ms ih =>
    rw [List.forall_mem_cons] at hms
    rw [memberShapes, placeMembers, placeMembers, hms.1]
    refine withoutNames_bind fun p => ?_
    rw [hjoin]
    exact withoutNames_bind fun a' => ih hms.2 a'

/-- **A type is laid out as its shape is**, at every depth. -/
theorem place_shape (t : CType) :
    place target pack t.shape = withoutNames Placement.unnamed (place target pack t) := by
  induction t with
  | array base dim ih =>
    cases dim with
    | none => rfl
    | some dim =>
      rw [shape, place_array, place_array, ih]
      exact withoutNames_bind fun element =>
        arrayOf_shape (.array base (some dim)) dim.toNat element
  | aggregate kind tag members ih =>
    cases kind with
    | struct =>
      rw [shape, place_struct, place_struct]
      have hmembers :=
        placeMembers_shape (joinStruct_shape (.aggregate .struct tag members) pack) ih .start
      have hfinish := finish_shape (.aggregate .struct tag members)
      rw [shape] at hmembers hfinish
      have hstart : StructState.start.unnamed = .start := rfl
      rw [← hstart, hmembers]
      exact withoutNames_bind hfinish
    | union =>
      rw [shape, place_union, place_union]
      have hmembers := placeMembers_shape (joinUnion_shape pack) ih ⟨⟨0, 1⟩, []⟩
      have hfinish := unionFinish_shape (.aggregate .union tag members)
      rw [shape] at hfinish
      have hstart : Placement.unnamed ⟨⟨0, 1⟩, []⟩ = ⟨⟨0, 1⟩, []⟩ := rfl
      rw [← hstart, hmembers]
      exact withoutNames_bind hfinish
  | void | special | integral | floating | pointer | placeholder | enum | func => rfl

/-- The shape of a type has its size and alignment, or fails alike. -/
theorem layout_shape (t : CType) :
    layout target pack t.shape = (layout target pack t).mapError LayoutError.shape := by
  unfold layout
  split
  · rw [place_shape]
    cases place target pack t <;> rfl
  · rfl

/-- The shape of a type has its offsets in the same order, or fails alike. -/
theorem offsets_shape (t : CType) :
    offsets target pack t.shape = withoutNames Offsets.unnamed (offsets target pack t) := by
  cases t with
  | aggregate kind tag members =>
    have hplace : place target pack (CType.aggregate kind tag members).shape = _ := place_shape _
    rw [shape] at hplace
    rw [shape, offsets, offsets]
    split
    · rw [hplace]
      cases place target pack (.aggregate kind tag members) <;> rfl
    · rfl
  | void | special | integral | floating | pointer | array | placeholder | enum | func => rfl

/-- Two answers say the same: they are one value, or they are one error about types of one shape. -/
def SameAnswer {α : Type} (x y : Except LayoutError α) : Prop :=
  x.mapError LayoutError.shape = y.mapError LayoutError.shape

/-- The positions of the members of a struct or union, without their names. -/
def positions (offsets : Except LayoutError Offsets) : Except LayoutError (List Nat) :=
  offsets.map fun os => os.map (·.2)

/-- The positions of the members are those of the shape. -/
theorem positions_shape (t : CType) :
    (positions (offsets target pack t)).mapError LayoutError.shape =
      positions (offsets target pack t.shape) := by
  rw [offsets_shape]
  cases offsets target pack t with
  | error e => rfl
  | ok os => simp [positions, withoutNames, Offsets.unnamed, Except.map, Except.mapError]

/-- **Types of one shape have one layout.** Both have the same size and alignment and the same
positions of members in the same order, or both fail with the same error. So it does not matter what
is put behind the pointers of a type. -/
theorem layout_of_shape (target : Target) (queries queries' : List Engine.Query) (pack : Nat)
    {t u : CType} (h : t.shape = u.shape) :
    let engine := (Engine.new target).after queries
    let engine' := (Engine.new target).after queries'
    SameAnswer (engine.layout pack t).1 (engine'.layout pack u).1 ∧
      SameAnswer (positions (engine.offsets pack t).1) (positions (engine'.offsets pack u).1) ∧
      ∀ f : CType → CType,
        SameAnswer (engine.layout pack t).1 (engine'.layout pack (u.mapPointees f)).1 ∧
          SameAnswer (positions (engine.offsets pack t).1)
            (positions (engine'.offsets pack (u.mapPointees f)).1) := by
  intro engine engine'
  simp only [engine, engine', SameAnswer, Engine.layout_after, Engine.offsets_after,
    positions_shape, ← layout_shape, shape_mapPointees, h, and_self, implies_true]

/-- The struct `struct list { struct list *next; union { unsigned flags; enum mode mode; };
char tail[3]; }`. -/
def listNode : CType :=
  .aggregate .struct (some "list")
    [⟨some "next", .pointer (.placeholder .struct "list")⟩,
      ⟨none, .aggregate .union none
        [⟨some "flags", .uint⟩, ⟨some "mode", .enum (some "mode") [("OFF", 0), ("ON", 1)]⟩]⟩,
      ⟨some "tail", .array (.integral .char true) (some 3)⟩]

/-- A struct of the same shape, in which the pointer points to a function. -/
def handlerNode : CType :=
  .aggregate .struct (some "handler")
    [⟨some "call", .pointer (.func [] .int false)⟩,
      ⟨none, .aggregate .union (some "state") [⟨some "code", .int⟩, ⟨some "kind", .enum none []⟩]⟩,
      ⟨some "text", .array .uchar (some 3)⟩]

theorem layout_of_shape_nodes :
    listNode.shape = handlerNode.shape ∧
      ((Engine.new .lp64).layout 8 listNode).1 = .ok ⟨16, 8⟩ ∧
      SameAnswer (.ok ⟨16, 8⟩) ((Engine.new .lp64).layout 8 handlerNode).1 ∧
      ((Engine.new .lp64).offsets 8 listNode).1 =
        .ok [("next", 0), ("flags", 8), ("mode", 8), ("tail", 12)] ∧
      SameAnswer (.ok [0, 8, 8, 12]) (positions ((Engine.new .lp64).offsets 8 handlerNode).1) := by
  have hshape : listNode.shape = handlerNode.shape := rfl
  have hlayout : ((Engine.new .lp64).layout 8 listNode).1 = .ok ⟨16, 8⟩ := by decide +kernel
  have hoffsets : ((Engine.new .lp64).offsets 8 listNode).1 =
      .ok [("next", 0), ("flags", 8), ("mode", 8), ("tail", 12)] := by decide +kernel
  obtain ⟨hsame, hsame', -⟩ := layout_of_shape .lp64 [] [] 8 hshape
  refine ⟨hshape, hlayout, ?_, hoffsets, ?_⟩
  · rwa [← hlayout]
  · change SameAnswer (positions (.ok [("next", 0), ("flags", 8), ("mode", 8), ("tail", 12)])) _
    rwa [← hoffsets]

end CType

end ForeignCall
