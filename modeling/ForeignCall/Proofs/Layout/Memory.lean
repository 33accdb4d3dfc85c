import ForeignCall.Layout.Engine
import ForeignCall.Proofs.CType.Parts
import ForeignCall.Proofs.Layout.Steps

/-!
# ForeignCall.Proofs.Layout.Memory

What a layout engine remembers does not show in its answers. Its tables hold nothing but layouts and
offsets, and a struct or union whose layout is in one table has its offsets in the other; with such
tables a question has the answer that it has without them, and it leaves such tables.

* `Memory.Sound` — what the tables hold, and `Recall.Gives` for questions asked with such tables;
* `Engine.layoutOf_gives` — the layout of a type is what it is without tables;
* `Engine.answers_eq` — an engine answers as if it remembered nothing.
-/

namespace ForeignCall

/-! ## Tables -/

namespace Memory

variable {target : Target} {memory : Memory}

theorem lookup_cons_key {α : Type} (table : Table α) (key key' : CType × Nat) (a : α) :
    List.lookup key ((key', a) :: table) = if key = key' then some a else table.lookup key := by
  by_cases h : key = key'
  · simp [h]
  · rw [List.lookup_cons, beq_eq_false_iff_ne.mpr h, if_neg h]

/-- What is looked up after a layout has been entered. -/
theorem lookup_putLayout (memory : Memory) (t : CType) (pack : Nat) (l : Layout)
    (key : CType × Nat) :
    (memory.putLayout t pack l).layouts.lookup key =
      if key = (t, pack) then some l else memory.layouts.lookup key :=
  lookup_cons_key memory.layouts key (t, pack) l

/-- What is looked up after offsets have been entered. -/
theorem lookup_putOffsets (memory : Memory) (t : CType) (pack : Nat) (os : Offsets)
    (key : CType × Nat) :
    (memory.putOffsets t pack os).offsets.lookup key =
      if key = (t, pack) then some os else memory.offsets.lookup key :=
  lookup_cons_key memory.offsets key (t, pack) os

/-- The offsets of a type are in the table if it is a struct or union. -/
def Knows (memory : Memory) (t : CType) (pack : Nat) : Prop :=
  ∀ kind tag members, t = .aggregate kind tag members →
    (memory.offsets.lookup (t, pack)).isSome

/-- Tables of layouts and of offsets; with a layout there are the offsets. -/
structure Sound (target : Target) (memory : Memory) : Prop where
  layouts : ∀ {t pack l}, memory.layouts.lookup (t, pack) = some l →
    t.layout target pack = .ok l
  offsets : ∀ {t pack os}, memory.offsets.lookup (t, pack) = some os →
    t.offsets target pack = .ok os
  knows : ∀ {t pack l}, memory.layouts.lookup (t, pack) = some l → memory.Knows t pack

theorem sound_empty (target : Target) : (⟨[], []⟩ : Memory).Sound target where
  layouts h := nomatch h
  offsets h := nomatch h
  knows h := nomatch h

theorem Sound.putLayout (hmemory : memory.Sound target) {t : CType} {pack : Nat} {l : Layout}
    (hl : t.layout target pack = .ok l) (hknows : memory.Knows t pack) :
    (memory.putLayout t pack l).Sound target where
  layouts {t' pack' l'} h := by
    rw [lookup_putLayout] at h
    split at h
    · next heq =>
      obtain ⟨rfl, rfl⟩ := Prod.mk.inj heq
      rw [hl, Option.some.inj h]
    · exact hmemory.layouts h
  offsets h := hmemory.offsets h
  knows {t' pack' l'} h := by
    rw [lookup_putLayout] at h
    split at h
    · next heq =>
      obtain ⟨rfl, rfl⟩ := Prod.mk.inj heq
      exact hknows
    · exact hmemory.knows h

theorem Sound.putOffsets (hmemory : memory.Sound target) {t : CType} {pack : Nat} {os : Offsets}
    (hos : t.offsets target pack = .ok os) : (memory.putOffsets t pack os).Sound target where
  layouts h := hmemory.layouts h
  offsets {t' pack' os'} h := by
    rw [lookup_putOffsets] at h
    split at h
    · next heq =>
      obtain ⟨rfl, rfl⟩ := Prod.mk.inj heq
      rw [hos, Option.some.inj h]
    · exact hmemory.offsets h
  knows {t' pack' l'} h kind tag members ht := by
    rw [lookup_putOffsets]
    split
    · rfl
    · exact hmemory.knows h kind tag members ht

theorem knows_putOffsets (memory : Memory) (t : CType) (pack : Nat) (os : Offsets) :
    (memory.putOffsets t pack os).Knows t pack := by
  intro _ _ _ _
  rw [lookup_putOffsets, if_pos rfl]
  rfl

end Memory

/-! ## Questions -/

namespace Recall

variable {α β : Type} {target : Target} {pack : Nat} {t : CType} {P Q : Memory → Prop}

/-- With sound tables a question has the answer `result`; the tables stay sound, and if the answer
is no error they satisfy `Q` afterwards. -/
def Gives (target : Target) (question : Recall α) (result : Except LayoutError α)
    (Q : Memory → Prop) : Prop :=
  ∀ memory : Memory, memory.Sound target →
    (runFrom memory question).1 = result ∧ (runFrom memory question).2.Sound target ∧
      (∀ a, result = .ok a → Q (runFrom memory question).2)

theorem gives_of (result : Except LayoutError α) :
    Gives target (.of result) result fun _ => True :=
  fun _ hmemory => ⟨rfl, hmemory, fun _ _ => trivial⟩

theorem gives_throw (e : LayoutError) : Gives target (throw e : Recall α) (.error e) Q :=
  fun _ hmemory => ⟨rfl, hmemory, fun _ h => nomatch h⟩

/-- Two questions in a row, the first of which has an answer that comes from a result. -/
theorem gives_bind_map {γ : Type} {question : Recall β} {rest : β → Recall γ} {f : α → β}
    {result : Except LayoutError α} {after : α → Except LayoutError γ}
    (h : Gives target question (result.map f) P)
    (hrest : ∀ a, result = .ok a → Gives target (rest (f a)) (after a) Q) :
    Gives target (question >>= rest) (result >>= after) Q := by
  intro memory hmemory
  obtain ⟨hresult, hsound, -⟩ := h memory hmemory
  cases result with
  | error e =>
    have hrun : runFrom memory question = (.error e, (runFrom memory question).2) :=
      Prod.ext hresult rfl
    rw [runFrom_bind_error hrun]
    exact ⟨rfl, hsound, fun _ h => nomatch h⟩
  | ok a =>
    have hrun : runFrom memory question = (.ok (f a), (runFrom memory question).2) :=
      Prod.ext hresult rfl
    rw [runFrom_bind_ok hrun]
    exact hrest a rfl _ hsound

/-- Two questions in a row. -/
theorem gives_bind {question : Recall α} {rest : α → Recall β} {result : Except LayoutError α}
    {after : α → Except LayoutError β} (h : Gives target question result P)
    (hrest : ∀ a, result = .ok a → Gives target (rest a) (after a) Q) :
    Gives target (question >>= rest) (result >>= after) Q :=
  gives_bind_map (f := id) (by rwa [Except.map_id]) hrest

/-- The layout and the offsets of a struct or union come from where its parts lie. -/
theorem layout_eq_and_offsets_eq (target : Target) (pack : Nat) (kind : TagKind)
    (tag : Option String) (members : List (Member CType)) :
    ∃ result : Except LayoutError Placement,
      (CType.aggregate kind tag members).layout target pack = result.map (·.layout) ∧
        (CType.aggregate kind tag members).offsets target pack = result.map (·.offsets) := by
  by_cases hpack : validPack pack = true
  · exact ⟨_, if_pos hpack, if_pos hpack⟩
  · exact ⟨.error (.invalidPack pack), if_neg hpack, if_neg hpack⟩

/-- A layout is looked up in the table, or computed and entered. -/
theorem gives_layout {compute : Recall Layout}
    (h : Gives target compute (t.layout target pack) fun memory => memory.Knows t pack) :
    Gives target (layout t pack compute) (t.layout target pack)
      fun memory => memory.Knows t pack := by
  intro memory hmemory
  unfold layout
  rw [runFrom_bind, runFrom_get]
  dsimp only
  cases hlookup : memory.layouts.lookup (t, pack) with
  | some l =>
    rw [hmemory.layouts hlookup]
    exact ⟨rfl, hmemory, fun _ _ => hmemory.knows hlookup⟩
  | none =>
    obtain ⟨hresult, hsound, hknows⟩ := h memory hmemory
    dsimp only
    rw [runFrom_bind]
    generalize runFrom memory compute = found at hresult hsound hknows ⊢
    obtain ⟨e | l, memory'⟩ := found
    · exact ⟨hresult, hsound, hknows⟩
    · have hl : t.layout target pack = .ok l := hresult.symm
      exact ⟨hresult, hsound.putLayout hl (hknows l hl), hknows⟩

/-- Offsets are looked up in the table, where they are when the layout has been asked for. -/
theorem gives_offsets {question : Recall Layout} (kind : TagKind) (tag : Option String)
    (members : List (Member CType)) (ht : t = .aggregate kind tag members)
    (h : Gives target question (t.layout target pack) fun memory => memory.Knows t pack) :
    Gives target (offsets t pack question) (t.offsets target pack) fun _ => True := by
  intro memory hmemory
  unfold offsets
  rw [runFrom_bind, runFrom_get]
  dsimp only
  cases hlookup : memory.offsets.lookup (t, pack) with
  | some os =>
    rw [hmemory.offsets hlookup]
    exact ⟨rfl, hmemory, fun _ _ => trivial⟩
  | none =>
    obtain ⟨hresult, hsound, hknows⟩ := h memory hmemory
    dsimp only
    rw [runFrom_bind]
    generalize runFrom memory question = found at hresult hsound hknows ⊢
    obtain ⟨e | l, memory'⟩ := found
    · -- a type without a layout has no offsets either, for the same reason
      obtain ⟨result, hlayout, hoffsets⟩ :=
        layout_eq_and_offsets_eq target pack kind tag members
      subst ht
      rw [hlayout] at hresult
      cases result with
      | error e' =>
        obtain rfl := Except.error.inj hresult
        exact ⟨hoffsets.symm, hsound, fun _ _ => trivial⟩
      | ok p => cases hresult
    · obtain ⟨os, hos⟩ := Option.isSome_iff_exists.mp (hknows l hresult.symm kind tag members ht)
      have hoffsets : t.offsets target pack = .ok os := hsound.offsets hos
      dsimp only
      rw [runFrom_bind, runFrom_get]
      dsimp only
      rw [hos]
      exact ⟨hoffsets.symm, hsound, fun _ _ => trivial⟩

/-- A member brings the offsets that it has in its placement. -/
theorem gives_memberOffsets {question : Recall Layout} {p : Placement}
    (hpack : validPack pack = true) (hp : t.place target pack = .ok p)
    (h : Gives target question (t.layout target pack) fun memory => memory.Knows t pack)
    (name : Option String) (offset : Nat) :
    Gives target (memberOffsets name t pack question offset)
      (ForeignCall.memberOffsets name t p offset) fun _ => True := by
  cases name with
  | some n =>
    intro memory hmemory
    exact ⟨rfl, hmemory, fun _ _ => trivial⟩
  | none =>
    cases t with
    | aggregate kind tag members =>
      have hown := gives_offsets kind tag members rfl h
      rw [CType.offsets_eq_of_place hpack hp] at hown
      exact gives_bind hown fun _ _ => gives_of (.ok _)
    | void | special | integral | floating | pointer | array | placeholder | enum | func =>
      exact gives_throw _

/-- Behind the layout of a struct or union its offsets are in the table. -/
theorem gives_enter {kind : TagKind} {tag : Option String} {members : List (Member CType)}
    {p : Placement} (hpack : validPack pack = true)
    (hp : (CType.aggregate kind tag members).place target pack = .ok p) :
    Gives target (enter (.aggregate kind tag members) pack p) (.ok p.layout)
      fun memory => memory.Knows (.aggregate kind tag members) pack :=
  fun memory hmemory => ⟨rfl, hmemory.putOffsets (CType.offsets_eq_of_place hpack hp),
    fun _ _ => memory.knows_putOffsets _ _ _⟩

/-- A struct or union has its members laid out, is finished and then entered. -/
theorem gives_aggregate {question : Recall α} {placed : Except LayoutError α}
    {finish : α → Except LayoutError Placement} {kind : TagKind} {tag : Option String}
    {members : List (Member CType)} (hpack : validPack pack = true)
    (hplace : (CType.aggregate kind tag members).place target pack = placed >>= finish)
    (h : Gives target question placed P) :
    Gives target
      (layout (.aggregate kind tag members) pack
        (question >>= fun a => of (finish a) >>= enter (.aggregate kind tag members) pack))
      ((CType.aggregate kind tag members).layout target pack)
      fun memory => memory.Knows (.aggregate kind tag members) pack := by
  refine gives_layout ?_
  have hanswer : (CType.aggregate kind tag members).layout target pack =
      placed >>= fun a => finish a >>= fun p => .ok p.layout := by
    rw [CType.layout_eq_map hpack, hplace, except_map_eq_bind, bind_assoc]
  rw [hanswer]
  refine gives_bind h fun a ha => gives_bind (gives_of (finish a)) fun p hp => ?_
  refine gives_enter hpack ?_
  rw [hplace, ha]
  exact hp

end Recall

/-! ## Types -/

/-- A member goes where there is room for it, and then brings its offsets. -/
theorem StructState.add_eq_extend (whole : CType) (pack : Nat) (s : StructState)
    (name : Option String) (t : CType) (p : Placement) :
    s.add whole pack name t p =
      s.extend whole pack p.layout >>= fun found =>
        memberOffsets name t p found.1 >>= fun own =>
          .ok { found.2 with offsets := s.offsets ++ own } := by
  simp only [add, extend, bind_assoc]
  rfl

namespace Engine

variable {target : Target} {pack : Nat}

open Recall

/-- What is asserted of a type: its layout is what it is without tables. -/
def Faithful (target : Target) (pack : Nat) (t : CType) : Prop :=
  Gives target (layoutOf target pack t) (t.layout target pack) fun memory => memory.Knows t pack

/-- A type that others are made of has its layout asked for first. -/
theorem Faithful.bind {t : CType} (h : Faithful target pack t) (hpack : validPack pack = true)
    {β : Type} {rest : Layout → Recall β} {after : Placement → Except LayoutError β}
    {Q : Memory → Prop}
    (hrest : ∀ p, t.place target pack = .ok p → Gives target (rest p.layout) (after p) Q) :
    Gives target (layoutOf target pack t >>= rest) (t.place target pack >>= after) Q := by
  unfold Faithful at h
  rw [CType.layout_eq_map hpack] at h
  exact gives_bind_map h hrest

theorem layoutStruct_gives (hpack : validPack pack = true) {ms : List (Member CType)}
    (hms : ∀ m ∈ ms, Faithful target pack m.type) (whole : CType) (s : StructState) :
    Gives target (layoutStruct target pack whole s ms)
      (CType.placeMembers target pack (CType.joinStruct whole pack) s ms) fun _ => True := by
  induction ms generalizing s with
  | nil => exact gives_of (.ok s)
  | cons m ms ih =>
    obtain ⟨name, t⟩ := m
    rw [List.forall_mem_cons] at hms
    rw [layoutStruct, CType.placeMembers]
    refine hms.1.bind hpack fun p hp => ?_
    rw [CType.joinStruct, StructState.add_eq_extend, bind_assoc]
    refine gives_bind (gives_of _) fun found _ => ?_
    rw [bind_assoc]
    have hown := gives_memberOffsets hpack hp hms.1 name found.1
    exact gives_bind hown fun own _ => ih hms.2 _

theorem layoutUnion_gives (hpack : validPack pack = true) {ms : List (Member CType)}
    (hms : ∀ m ∈ ms, Faithful target pack m.type) (u : Placement) :
    Gives target (layoutUnion target pack u ms)
      (CType.placeMembers target pack (CType.joinUnion pack) u ms) fun _ => True := by
  induction ms generalizing u with
  | nil => exact gives_of (.ok u)
  | cons m ms ih =>
    obtain ⟨name, t⟩ := m
    rw [List.forall_mem_cons] at hms
    rw [layoutUnion, CType.placeMembers]
    refine hms.1.bind hpack fun p hp => ?_
    rw [CType.joinUnion, unionAdd, bind_assoc]
    have hown := gives_memberOffsets hpack hp hms.1 name 0
    exact gives_bind hown fun own _ => ih hms.2 _

/-- A type without parts is not looked up. -/
theorem faithful_of_atom (hpack : validPack pack = true) {t : CType}
    (ht : layoutOf target pack t = .of ((t.place target pack).map (·.layout)))
    (hatom : ∀ kind tag members, t ≠ .aggregate kind tag members) : Faithful target pack t := by
  unfold Faithful
  rw [ht, CType.layout_eq_map hpack]
  exact fun memory hmemory => ⟨rfl, hmemory, fun _ _ kind tag members heq =>
    absurd heq (hatom kind tag members)⟩

/-- An array has the layout of its element asked for. -/
theorem faithful_array (hpack : validPack pack = true) {base : CType} (dim : UInt64)
    (hbase : Faithful target pack base) : Faithful target pack (.array base (some dim)) := by
  refine gives_layout ?_
  have hanswer : (CType.array base (some dim)).layout target pack =
      base.place target pack >>= fun element =>
        (arrayOf (.array base (some dim)) dim.toNat element).map (·.layout) := by
    rw [CType.layout_eq_map hpack, CType.place_array, except_map_eq_bind, bind_assoc]
    rfl
  rw [hanswer]
  refine hbase.bind hpack fun element _ memory hmemory => ⟨rfl, hmemory, ?_⟩
  exact fun _ _ _ _ _ heq => nomatch heq

/-- **The layout of a type is what it is without tables**, and the tables stay sound. -/
theorem layoutOf_gives (target : Target) (hpack : validPack pack = true) (t : CType) :
    Faithful target pack t := by
  induction t with
  | array base dim ih =>
    cases dim with
    | none => exact faithful_of_atom hpack rfl nofun
    | some dim => exact faithful_array hpack dim ih
  | aggregate kind tag members ih =>
    cases kind with
    | struct =>
      have hmembers := layoutStruct_gives hpack ih (.aggregate .struct tag members) .start
      exact gives_aggregate hpack (CType.place_struct tag members) hmembers
    | union =>
      have hmembers := layoutUnion_gives hpack ih ⟨⟨0, 1⟩, []⟩
      exact gives_aggregate hpack (CType.place_union tag members) hmembers
  | void | special | integral | floating | pointer | placeholder | enum | func =>
    exact faithful_of_atom hpack rfl nofun

theorem checkedLayout_gives (target : Target) (pack : Nat) (t : CType) :
    Gives target (checkedLayout target pack t) (t.layout target pack)
      fun memory => memory.Knows t pack := by
  unfold checkedLayout
  by_cases hpack : validPack pack = true
  · rw [if_pos hpack]
    exact layoutOf_gives target hpack t
  · rw [if_neg hpack, CType.layout, if_neg hpack]
    exact gives_throw _

/-! ## Engines -/

/-- An engine for a target with sound tables. -/
structure Sound (target : Target) (engine : Engine) : Prop where
  target_eq : engine.target = target
  memory : engine.memory.Sound target

theorem sound_new (target : Target) : (new target).Sound target :=
  ⟨rfl, Memory.sound_empty target⟩

variable {engine : Engine}

theorem pose_eq {α : Type} {question : Recall α} {result : Except LayoutError α}
    {Q : Memory → Prop} (h : engine.Sound target) (hquestion : Gives target question result Q) :
    (engine.pose question).1 = result ∧ (engine.pose question).2.Sound target := by
  obtain ⟨hresult, hsound, -⟩ := hquestion engine.memory h.memory
  exact ⟨hresult, h.target_eq, hsound⟩

theorem layout_eq (h : engine.Sound target) (pack : Nat) (t : CType) :
    (engine.layout pack t).1 = t.layout target pack ∧ (engine.layout pack t).2.Sound target := by
  unfold layout
  rw [h.target_eq]
  exact pose_eq h (checkedLayout_gives target pack t)

theorem sizeOf_eq (h : engine.Sound target) (pack : Nat) (t : CType) :
    (engine.sizeOf pack t).1 = (t.layout target pack).map (·.size) ∧
      (engine.sizeOf pack t).2.Sound target := by
  obtain ⟨hlayout, hsound⟩ := layout_eq h pack t
  exact ⟨congrArg (Except.map fun l : Layout => l.size) hlayout, hsound⟩

theorem alignOf_eq (h : engine.Sound target) (pack : Nat) (t : CType) :
    (engine.alignOf pack t).1 = (t.layout target pack).map (·.align) ∧
      (engine.alignOf pack t).2.Sound target := by
  obtain ⟨hlayout, hsound⟩ := layout_eq h pack t
  exact ⟨congrArg (Except.map fun l : Layout => l.align) hlayout, hsound⟩

theorem offsets_eq (h : engine.Sound target) (pack : Nat) (t : CType) :
    (engine.offsets pack t).1 = t.offsets target pack ∧ (engine.offsets pack t).2.Sound target := by
  cases t with
  | aggregate kind tag members =>
    unfold offsets
    rw [h.target_eq]
    exact pose_eq h (gives_offsets kind tag members rfl (checkedLayout_gives target pack _))
  | void | special | integral | floating | pointer | array | placeholder | enum | func =>
    exact ⟨rfl, h⟩

theorem elementOffset_eq (h : engine.Sound target) (pack : Nat) (t : CType) (index : Nat) :
    (engine.elementOffset pack t index).1 = t.elementOffset target pack index ∧
      (engine.elementOffset pack t index).2.Sound target := by
  cases t with
  | array base dim =>
    cases dim with
    | none => exact ⟨rfl, h⟩
    | some dim =>
      unfold elementOffset CType.elementOffset
      dsimp only
      split
      · exact ⟨rfl, h⟩
      · obtain ⟨hsize, hsound⟩ := sizeOf_eq h pack base
        generalize engine.sizeOf pack base = found at hsize hsound ⊢
        obtain ⟨result, engine'⟩ := found
        obtain rfl : result = (base.layout target pack).map (·.size) := hsize
        cases base.layout target pack with
        | error e => exact ⟨rfl, hsound⟩
        | ok l => exact ⟨rfl, hsound⟩
  | void | special | integral | floating | pointer | aggregate | placeholder | enum | func =>
    exact ⟨rfl, h⟩

/-! ## Questions in a row -/

/-- A question to an engine. -/
inductive Query where
  | layout (pack : Nat) (t : CType)
  | size (pack : Nat) (t : CType)
  | align (pack : Nat) (t : CType)
  | offsets (pack : Nat) (t : CType)
  | elementOffset (pack : Nat) (t : CType) (index : Nat)

/-- The answer to a question. -/
inductive Answer where
  | layout (result : Except LayoutError Layout)
  | number (result : Except LayoutError Nat)
  | offsets (result : Except LayoutError Offsets)

/-- What an engine answers. -/
def answer (engine : Engine) : Query → Answer
  | .layout pack t => .layout (engine.layout pack t).1
  | .size pack t => .number (engine.sizeOf pack t).1
  | .align pack t => .number (engine.alignOf pack t).1
  | .offsets pack t => .offsets (engine.offsets pack t).1
  | .elementOffset pack t index => .number (engine.elementOffset pack t index).1

/-- The engine after it has been asked. -/
def ask (engine : Engine) : Query → Engine
  | .layout pack t => (engine.layout pack t).2
  | .size pack t => (engine.sizeOf pack t).2
  | .align pack t => (engine.alignOf pack t).2
  | .offsets pack t => (engine.offsets pack t).2
  | .elementOffset pack t index => (engine.elementOffset pack t index).2

/-- The engine after some questions. -/
def after (engine : Engine) (queries : List Query) : Engine := queries.foldl ask engine

/-- What an engine answers to questions that are asked one after the other. -/
def answers (engine : Engine) : List Query → List Answer
  | [] => []
  | query :: queries => engine.answer query :: (engine.ask query).answers queries

/-- The answer to a question without an engine. -/
def Query.answer (target : Target) : Query → Answer
  | .layout pack t => .layout (t.layout target pack)
  | .size pack t => .number ((t.layout target pack).map (·.size))
  | .align pack t => .number ((t.layout target pack).map (·.align))
  | .offsets pack t => .offsets (t.offsets target pack)
  | .elementOffset pack t index => .number (t.elementOffset target pack index)

theorem answer_eq (h : engine.Sound target) (query : Query) :
    engine.answer query = query.answer target := by
  cases query with
  | layout pack t => exact congrArg Answer.layout (layout_eq h pack t).1
  | size pack t => exact congrArg Answer.number (sizeOf_eq h pack t).1
  | align pack t => exact congrArg Answer.number (alignOf_eq h pack t).1
  | offsets pack t => exact congrArg Answer.offsets (offsets_eq h pack t).1
  | elementOffset pack t index => exact congrArg Answer.number (elementOffset_eq h pack t index).1

theorem Sound.ask (h : engine.Sound target) (query : Query) : (engine.ask query).Sound target := by
  cases query with
  | layout pack t => exact (layout_eq h pack t).2
  | size pack t => exact (sizeOf_eq h pack t).2
  | align pack t => exact (alignOf_eq h pack t).2
  | offsets pack t => exact (offsets_eq h pack t).2
  | elementOffset pack t index => exact (elementOffset_eq h pack t index).2

theorem Sound.after (h : engine.Sound target) (queries : List Query) :
    (engine.after queries).Sound target := by
  unfold Engine.after
  induction queries generalizing engine with
  | nil => exact h
  | cons query queries ih => exact ih (h.ask query)

theorem Sound.answers (h : engine.Sound target) (queries : List Query) :
    engine.answers queries = queries.map (Query.answer target) := by
  induction queries generalizing engine with
  | nil => rfl
  | cons query queries ih =>
    rw [Engine.answers, answer_eq h query, ih (h.ask query), List.map_cons]

/-- An engine answers as if it remembered nothing, whatever it has been asked before. -/
theorem layout_after (target : Target) (queries : List Query) (pack : Nat) (t : CType) :
    (((new target).after queries).layout pack t).1 = t.layout target pack :=
  (layout_eq ((sound_new target).after queries) pack t).1

theorem sizeOf_after (target : Target) (queries : List Query) (pack : Nat) (t : CType) :
    (((new target).after queries).sizeOf pack t).1 = (t.layout target pack).map (·.size) :=
  (sizeOf_eq ((sound_new target).after queries) pack t).1

theorem offsets_after (target : Target) (queries : List Query) (pack : Nat) (t : CType) :
    (((new target).after queries).offsets pack t).1 = t.offsets target pack :=
  (offsets_eq ((sound_new target).after queries) pack t).1

theorem elementOffset_after (target : Target) (queries : List Query) (pack : Nat) (t : CType)
    (index : Nat) :
    (((new target).after queries).elementOffset pack t index).1 =
      t.elementOffset target pack index :=
  (elementOffset_eq ((sound_new target).after queries) pack t index).1

/-- **Memory is invisible.** Every question of a row has the answer of an engine that is asked
nothing else, which is the answer without an engine. A struct or union has offsets exactly if it has
a layout. -/
theorem answers_eq (target : Target) (queries : List Query) :
    (new target).answers queries = queries.map (new target).answer ∧
      (new target).answers queries = queries.map (Query.answer target) ∧
        ∀ pack kind tag members,
          (((new target).after queries).offsets pack (.aggregate kind tag members)).1.isOk =
            (((new target).after queries).layout pack (.aggregate kind tag members)).1.isOk := by
  have hnew := sound_new target
  have hfresh : (new target).answer = Query.answer target := funext (answer_eq hnew)
  refine ⟨?_, hnew.answers queries, fun pack kind tag members => ?_⟩
  · rw [hfresh]
    exact hnew.answers queries
  · have hafter := hnew.after queries
    obtain ⟨result, hlayout, hoffsets⟩ := layout_eq_and_offsets_eq target pack kind tag members
    rw [(offsets_eq hafter pack _).1, (layout_eq hafter pack _).1, hlayout, hoffsets]
    cases result <;> rfl

end Engine

end ForeignCall
