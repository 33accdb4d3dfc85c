import ForeignCall.Proofs.Bytecode.Linking
import ForeignCall.Proofs.Bytecode.Simulation
import ForeignCall.Proofs.Bytecode.Slots

/-!
# ForeignCall.Proofs.Bytecode.Depth

The stack discipline of bytecode, and that a program states exactly how deep its stack gets.

* `Term.keepsDiscipline`, `Statement.keepsDiscipline` — the code of an expression takes one slot
  more for its value, that of a statement takes none, and on the way as many as the code says;
* `bytecode_keeps_discipline` — the whole program.
-/

namespace ForeignCall

/-- The positions of the first arguments. -/
def positionsBelow (n : Nat) : List UInt8 := (List.range n).map UInt8.ofNat

theorem positionsBelow_succ (n : Nat) :
    positionsBelow (n + 1) = positionsBelow n ++ [UInt8.ofNat n] := by
  rw [positionsBelow, List.range_succ, List.map_append]
  rfl

/-- Up to 256 positions are the numbers below their count. -/
theorem map_toNat_positionsBelow {n : Nat} (h : n ≤ 256) :
    (positionsBelow n).map UInt8.toNat = List.range n := by
  rw [positionsBelow, List.map_map]
  conv_rhs => rw [← List.map_id (List.range n)]
  refine List.map_congr_left fun position hposition => ?_
  have hlt := List.mem_range.1 hposition
  rw [Function.comp_apply, UInt8.toNat_ofNat', Nat.mod_eq_of_lt (by omega), id]

/-- A call that has been ended as it has to be: it has got its arguments in order, each once, and
its last instruction is the one for the function. -/
def EndsRight (functions : List Function) (ended : OpenCall × Instruction) : Prop :=
  ∃ f, functions[ended.1.function.toNat]? = some f ∧
    ended.1.positions.map UInt8.toNat = List.range ended.1.argc.toNat ∧
    ended.2.Ends f ended.1.argc.toNat

/-- On any slots, the code takes one more if it has a result, ends all calls that it starts, and
takes as many slots on the way as it says. -/
def Code.KeepsDiscipline (functions : List Function) (code : Code) : Prop :=
  ∀ taken ended, ∃ calls, (∀ call ∈ calls, EndsRight functions call) ∧
    Slots.run ⟨taken, ended⟩ code.instructions =
      some ⟨(code.result.map fun _ => Slot.value).toList ++ taken, ended ++ calls⟩ ∧
    Slots.peak ⟨taken, ended⟩ code.instructions = taken.length + code.depth

/-- On top of an open call that has got its first arguments, the instructions move the following
ones. -/
def FillsCall (functions : List Function) (position count : Nat) (moves : List Instruction)
    (depth : Nat) : Prop :=
  ∀ index argc taken ended, ∃ calls, (∀ call ∈ calls, EndsRight functions call) ∧
    Slots.run ⟨.call ⟨index, argc, positionsBelow position⟩ :: taken, ended⟩ moves =
      some ⟨.call ⟨index, argc, positionsBelow (position + count)⟩ :: taken, ended ++ calls⟩ ∧
    Slots.peak ⟨.call ⟨index, argc, positionsBelow position⟩ :: taken, ended⟩ moves =
      taken.length + depth

variable {r : Resolution} {m : Machine} {functions : List Function}

/-- A constant takes one slot. -/
theorem load_keepsDiscipline (i : UInt8) (type : CType) :
    Code.KeepsDiscipline functions ⟨some type, [.loadConstant i], 1⟩ := by
  intro taken ended
  refine ⟨[], by simp, by simp [Slots.run, Slots.step], ?_⟩
  simp [Slots.peak, Slots.step, Slots.depth]

/-- A call takes its own slot until it is ended, and its result takes none beside it. -/
theorem call_keepsDiscipline {f : Function} {index : UInt8} {argc : Nat}
    {moves : List Instruction} {depth : Nat} {last : Instruction} (hle : argc ≤ 255)
    (hindex : functions[index.toNat]? = some f) (hmoves : FillsCall functions 0 argc moves depth)
    (hlast : last.Ends f argc) :
    Code.KeepsDiscipline functions
      ⟨f.result, .startCall index (UInt8.ofNat argc) :: moves ++ [last], depth⟩ := by
  intro taken ended
  obtain ⟨calls, hcalls, hrun, hpeak⟩ := hmoves index (UInt8.ofNat argc) taken ended
  rw [Nat.zero_add] at hrun
  have hstart : Slots.step ⟨taken, ended⟩ (.startCall index (UInt8.ofNat argc)) =
      some ⟨.call ⟨index, UInt8.ofNat argc, positionsBelow 0⟩ :: taken, ended⟩ := rfl
  have hargc : (UInt8.ofNat argc).toNat = argc := by
    rw [UInt8.toNat_ofNat', Nat.mod_eq_of_lt (by omega)]
  have hend := Slots.step_of_ends hlast ⟨index, UInt8.ofNat argc, positionsBelow argc⟩ taken
    (ended ++ calls)
  refine ⟨calls ++ [(⟨index, UInt8.ofNat argc, positionsBelow argc⟩, last)], ?_, ?_, ?_⟩
  · refine List.forall_mem_append.2 ⟨hcalls, List.forall_mem_singleton.2 ⟨f, hindex, ?_, ?_⟩⟩
    · rw [hargc, map_toNat_positionsBelow (by omega)]
    · rwa [hargc]
  · rw [List.cons_append, Slots.run_cons hstart, Slots.run_append hrun, Slots.run_cons hend,
      Slots.run, List.append_assoc]
  · -- the result takes no more than the call has taken
    have hfull := Slots.depth_le_peak_of_run hrun
    have hresult : (f.result.map fun _ => Slot.value).toList.length ≤ 1 := by
      cases f.result <;> simp
    rw [List.cons_append, Slots.peak_cons hstart, Slots.peak_append hrun, hpeak,
      Slots.peak_cons hend, Slots.peak]
    rw [hpeak] at hfull
    simp only [Slots.depth, List.length_cons, List.length_append] at hfull ⊢
    omega

/-- An argument is compiled on top of the call, and its value moves into the call. -/
theorem fillsCall_cons {position count : Nat} {code : Code} {found : CType} {tag : UInt8}
    {rest : List Instruction} {needed : Nat} (hcode : code.KeepsDiscipline functions)
    (hfound : code.result = some found)
    (hrest : FillsCall functions (position + 1) count rest needed) :
    FillsCall functions position (count + 1)
      (code.instructions ++ .argument (UInt8.ofNat position) tag :: rest)
      (max (1 + code.depth) needed) := by
  intro index argc taken ended
  obtain ⟨calls, hcalls, hrun, hpeak⟩ :=
    hcode (.call ⟨index, argc, positionsBelow position⟩ :: taken) ended
  obtain ⟨calls', hcalls', hrun', hpeak'⟩ := hrest index argc taken (ended ++ calls)
  rw [hfound, Option.map_some, Option.toList_some, List.singleton_append] at hrun
  have hmove : Slots.step
      ⟨.value :: .call ⟨index, argc, positionsBelow position⟩ :: taken, ended ++ calls⟩
      (.argument (UInt8.ofNat position) tag) =
      some ⟨.call ⟨index, argc, positionsBelow (position + 1)⟩ :: taken, ended ++ calls⟩ := by
    rw [positionsBelow_succ]
    rfl
  refine ⟨calls ++ calls', List.forall_mem_append.2 ⟨hcalls, hcalls'⟩, ?_, ?_⟩
  · have hcount : position + (count + 1) = position + 1 + count := by omega
    rw [Slots.run_append hrun, Slots.run_cons hmove, hrun', List.append_assoc, hcount]
  · have hpushed := Slots.depth_le_peak_of_run hrun
    rw [Slots.peak_append hrun, Slots.peak_cons hmove, hpeak, hpeak']
    rw [hpeak] at hpushed
    simp only [Slots.depth, List.length_cons] at hpushed ⊢
    omega

/-- **Expressions** keep the discipline. -/
theorem Term.keepsDiscipline {scope : Scopes Function} (T : Tables)
    (hgives : ∀ name f, scope.lookup name = some f → r.Gives f) :
    (∀ (term : Term) t code t', term.compile m scope t = .ok (code, t') → t.Sound r.Gives →
      t'.Within T → code.KeepsDiscipline T.functions) ∧
    ∀ args f position t moves depth t',
      compileArgs m scope f position t args = .ok (moves, depth, t') → t.Sound r.Gives →
        t'.Within T → FillsCall T.functions position args.length moves depth := by
  apply Term.linked_induction T hgives (C := fun _ code => code.KeepsDiscipline T.functions)
    (A := fun position args moves depth => FillsCall T.functions position args.length moves depth)
  case literal => exact fun _ _ type i _ _ => load_keepsDiscipline i type
  case call =>
    intro name args f index moves depth last _ hle hindex ih hlast
    exact call_keepsDiscipline hle hindex ih hlast
  case nil =>
    intro position index argc taken ended
    exact ⟨[], by simp, by simp [Slots.run], by simp [Slots.peak, Slots.depth]⟩
  case cons =>
    intro position arg args code found tag rest needed harg hfound _ hrest
    exact fillsCall_cons harg hfound hrest

/-- Code whose result is discarded takes no more slots than before. -/
theorem discarded_keepsDiscipline {code : Code} (h : code.KeepsDiscipline functions) :
    code.discarded.KeepsDiscipline functions := by
  unfold Code.discarded
  cases hresult : code.result with
  | none => exact h
  | some type =>
    intro taken ended
    obtain ⟨calls, hcalls, hrun, hpeak⟩ := h taken ended
    rw [hresult, Option.map_some, Option.toList_some, List.singleton_append] at hrun
    have hdiscard : Slots.step ⟨.value :: taken, ended ++ calls⟩ (.discard 1) =
        some ⟨taken, ended ++ calls⟩ := by
      simp [Slots.step, Slot.isValue]
    refine ⟨calls, hcalls, ?_, ?_⟩
    · rw [Slots.run_append hrun, Slots.run_cons hdiscard]
      rfl
    · have hpushed := Slots.depth_le_peak_of_run hrun
      rw [Slots.peak_append hrun, Slots.peak_cons hdiscard, Slots.peak, hpeak]
      rw [hpeak] at hpushed
      simp only [Slots.depth, List.length_cons] at hpushed ⊢
      omega

/-- Statements in a row take as many slots as the one that takes most. -/
theorem body_keepsDiscipline {first rest : Code} (hnone : first.result = none)
    (hnone' : rest.result = none) (hfirst : first.KeepsDiscipline functions)
    (hrest : rest.KeepsDiscipline functions) :
    Code.KeepsDiscipline functions
      ⟨none, first.instructions ++ rest.instructions, max first.depth rest.depth⟩ := by
  intro taken ended
  obtain ⟨calls, hcalls, hrun, hpeak⟩ := hfirst taken ended
  obtain ⟨calls', hcalls', hrun', hpeak'⟩ := hrest taken (ended ++ calls)
  simp only [hnone, hnone', Option.map_none, Option.toList_none, List.nil_append] at hrun hrun'
  refine ⟨calls ++ calls', List.forall_mem_append.2 ⟨hcalls, hcalls'⟩, ?_, ?_⟩
  · rw [Slots.run_append hrun, hrun', List.append_assoc]
    rfl
  · rw [Slots.peak_append hrun, hpeak, hpeak']
    exact Nat.add_max_add_left ..

/-- The code of statements in a row keeps the discipline and has no result. -/
theorem Program.code_keepsDiscipline (hr : r.Faithful) {p : Program} {b : Bytecode}
    (h : p.bytecode r m = .ok b) :
    Code.KeepsDiscipline b.functions ⟨none, b.instructions, b.maxStack⟩ := by
  have hlinked : ∃ code : Code, (code.result = none ∧ code.KeepsDiscipline b.functions) ∧
      b.instructions = code.instructions ∧ b.maxStack = code.depth := by
    apply Program.linked_induction hr h
      (S := fun _ _ code => code.result = none ∧ code.KeepsDiscipline b.functions)
      (B := fun _ _ code => code.result = none ∧ code.KeepsDiscipline b.functions)
    case expr =>
      intro around scope t term code t' hscope h hsound hT
      have hcode := (Term.keepsDiscipline b.tables (hscope.gives hr)).1 term t code t' h hsound hT
      refine ⟨?_, discarded_keepsDiscipline hcode⟩
      unfold Code.discarded
      cases hresult : code.result <;> simp [hresult]
    case block => exact fun _ _ _ _ hbody => hbody
    case nil =>
      intro around
      exact ⟨rfl, fun taken ended => ⟨[], by simp, by simp [Slots.run], rfl⟩⟩
    case cons =>
      rintro around s body first rest ⟨hnone, hfirst⟩ ⟨hnone', hrest⟩
      exact ⟨rfl, body_keepsDiscipline hnone hnone' hfirst hrest⟩
  obtain ⟨⟨result, instructions, depth⟩, ⟨rfl, hcode⟩, hinstructions, hdepth⟩ := hlinked
  rw [hinstructions, hdepth]
  exact hcode

/-- After the code of a program nothing is left, and every call that it starts is ended. -/
theorem Program.exists_run_slots (hr : r.Faithful) {p : Program} {b : Bytecode}
    (h : p.bytecode r m = .ok b) :
    ∃ calls, Slots.run ⟨[], []⟩ b.instructions = some ⟨[], calls⟩ ∧
      (∀ call ∈ calls, EndsRight b.functions call) ∧
      Slots.peak ⟨[], []⟩ b.instructions = b.maxStack := by
  obtain ⟨calls, hcalls, hrun, hpeak⟩ := Program.code_keepsDiscipline hr h [] []
  rw [List.length_nil, Nat.zero_add] at hpeak
  exact ⟨calls, hrun, hcalls, hpeak⟩

/-- **The bytecode of a program keeps the discipline of the stack.** It runs to its end without
underflow. Every call that it starts is ended, innermost first, by the instruction for its function,
after its arguments have been moved to it in order. Between two statements of the program nothing is
left on the stack, and the deepest that the stack gets is what the bytecode says. -/
theorem bytecode_keeps_discipline {σ ρ : Type} (host : Host σ ρ) (hr : r.Faithful) {p : Program}
    {b : Bytecode} (h : p.bytecode r m = .ok b) (w : World σ ρ) :
    (∃ calls, Slots.run ⟨[], []⟩ b.instructions = some ⟨[], calls⟩ ∧
      ∀ call ∈ calls, EndsRight b.functions call) ∧
    (∀ done rest, p.body = done ++ rest → ∃ b', Program.bytecode ⟨p.imports, done⟩ r m = .ok b' ∧
      b'.instructions <+: b.instructions ∧
      ∃ s, State.run host b.tables ⟨[], [], w⟩ b'.instructions = some s ∧ s.depth = 0) ∧
    IsGreatest (State.depths host b.tables ⟨[], [], w⟩ b.instructions) b.maxStack := by
  obtain ⟨calls, hrun, hcalls, hpeak⟩ := Program.exists_run_slots hr h
  obtain ⟨w', _, hmachine⟩ := Program.simulates host hr h [] [] w
  refine ⟨⟨calls, hrun, hcalls⟩, ?_, ?_⟩
  · intro done rest hbody
    obtain ⟨scope, code, t, hscope, hcode, hb⟩ := Program.bytecode_ok_iff.1 h
    rw [hbody] at hcode
    obtain ⟨first, between, hfirst, hpart⟩ := exists_compileBody_of_append hcode
    have hdone : Program.bytecode ⟨p.imports, done⟩ r m =
        .ok ⟨between.constants, between.functions, first.instructions, first.depth⟩ :=
      Program.bytecode_ok_iff.2 ⟨scope, first, between, hscope, hfirst, rfl⟩
    have hpart : first.instructions <+: b.instructions := hb ▸ hpart
    obtain ⟨_, hrun', _, _⟩ := Program.exists_run_slots hr hdone
    obtain ⟨s, hs⟩ := State.exists_run_of_prefix hmachine hpart
    exact ⟨_, hdone, hpart, s, hs, ((State.takes_nil w).run hs hrun').depth_eq⟩
  · rw [← hpeak]
    exact State.isGreatest_depths (State.takes_nil w) hmachine hrun

/-- The counting program gets four slots deep, with a value inside three open calls. -/
theorem counting_bytecode_keeps_discipline :
    (∃ calls, Slots.run ⟨[], []⟩ Counting.bytecode.instructions = some ⟨[], calls⟩ ∧
      ∀ call ∈ calls, EndsRight Counting.functions call) ∧
    IsGreatest (State.depths (fun _ n => (n, n + 1)) Counting.bytecode.tables ⟨[], [], ⟨0, []⟩⟩
      Counting.bytecode.instructions) 4 := by
  obtain ⟨hcalls, _, hgreatest⟩ := bytecode_keeps_discipline (fun _ n => (n, n + 1))
    (Resolution.faithful_ofFunctions Counting.functions) Counting.program_bytecode ⟨0, []⟩
  exact ⟨hcalls, hgreatest⟩

end ForeignCall
