import ForeignCall.Proofs.Bytecode.Derivation
import ForeignCall.Proofs.Bytecode.Runs

/-!
# ForeignCall.Proofs.Bytecode.Interning

The constants and the functions of a program stand in its tables once, in the order in which the
instructions use them first. The indices are issued while the expressions are walked through, and
the instructions are put together afterwards; still, reading the instructions from the left and
adding each index that is new counts the tables up, for every part of a program.

* `Tables.Distinct` — tables that fit, with one entry for each key;
* `Tables.Advances` — what a part of a program does to the tables, told by its instructions;
* `Term.advances`, `Statement.advances` — every part that is compiled does it;
* `Program.bytecode_interned` — the tables of a program.
-/

namespace ForeignCall

/-! ## Indices in a stream -/

/-- The index of the constant that an instruction loads. -/
def Instruction.constantIndex? : Instruction → Option Nat
  | .loadConstant index => some index.toNat
  | _ => none

/-- The index of the function that an instruction opens a frame for. -/
def Instruction.functionIndex? : Instruction → Option Nat
  | .startCall index _ => some index.toNat
  | _ => none

/-- The indices of constants in a stream, from the left. -/
def constantIndices (is : List Instruction) : List Nat := is.filterMap Instruction.constantIndex?

/-- The indices of functions in a stream, from the left. -/
def functionIndices (is : List Instruction) : List Nat := is.filterMap Instruction.functionIndex?

@[simp] theorem constantIndices_append (is js : List Instruction) :
    constantIndices (is ++ js) = constantIndices is ++ constantIndices js :=
  List.filterMap_append

@[simp] theorem functionIndices_append (is js : List Instruction) :
    functionIndices (is ++ js) = functionIndices is ++ functionIndices js :=
  List.filterMap_append

/-- An instruction loads a constant just when its index is in the stream. -/
theorem mem_constantIndices {is : List Instruction} {n : Nat} :
    n ∈ constantIndices is ↔ ∃ index, .loadConstant index ∈ is ∧ index.toNat = n := by
  unfold constantIndices
  rw [List.mem_filterMap]
  constructor
  · rintro ⟨i, hmem, hi⟩
    cases i with
    | loadConstant index => exact ⟨index, hmem, Option.some.inj hi⟩
    | _ => cases hi
  · rintro ⟨index, hmem, rfl⟩
    exact ⟨_, hmem, rfl⟩

/-- An instruction opens a frame for a function just when its index is in the stream. -/
theorem mem_functionIndices {is : List Instruction} {n : Nat} :
    n ∈ functionIndices is ↔ ∃ index argc, .startCall index argc ∈ is ∧ index.toNat = n := by
  unfold functionIndices
  rw [List.mem_filterMap]
  constructor
  · rintro ⟨i, hmem, hi⟩
    cases i with
    | startCall index argc => exact ⟨index, argc, hmem, Option.some.inj hi⟩
    | _ => cases hi
  · rintro ⟨index, argc, hmem, rfl⟩
    exact ⟨_, hmem, rfl⟩

/-! ## Counting up -/

/-- Adding what is new from the left leaves the first occurrences. -/
theorem addAll_nil_eq_eraseDups (ns : List Nat) : addAll id [] ns = ns.eraseDups := by
  induction ns using List.reverseRecOn with
  | nil => rfl
  | append_singleton ns n ih =>
    have hlast : addAll id [] (ns ++ [n]) = appendNew id ns.eraseDups n := by
      rw [addAll_append, ih]
      rfl
    rw [hlast, List.eraseDups_append]
    by_cases hmem : n ∈ ns
    · simp [appendNew, List.mem_eraseDups, List.removeAll, hmem]
    · simp [appendNew, List.mem_eraseDups, List.removeAll, List.eraseDups_cons, hmem]

/-- The index of an entry that is added counts the entries up if it is new, and is one of them if it
is not. -/
theorem appendNew_range_index {α κ : Type} [DecidableEq κ] (key : α → κ) (entries : List α)
    (a : α) :
    appendNew id (List.range entries.length) (indexOfKey key (appendNew key entries a) a) =
      List.range (appendNew key entries a).length := by
  by_cases h : key a ∈ entries.map key
  · obtain ⟨e, he, _⟩ := getElem?_indexOfKey key entries a
    have hsame : appendNew key entries a = entries := if_pos h
    rw [hsame] at he ⊢
    have hlt := (List.getElem?_eq_some_iff.1 he).1
    have hmem : indexOfKey key entries a ∈ (List.range entries.length).map id := by
      simpa using hlt
    exact if_pos hmem
  · have hnew : appendNew key entries a = entries ++ [a] := if_neg h
    rw [indexOfKey_of_not_mem h, hnew, List.length_append, List.length_singleton, List.range_succ]
    exact if_neg (by simp)

namespace Tables

/-- Tables that fit operand bytes, with one entry for each constant and for each function. -/
structure Distinct (t : Tables) : Prop where
  fits : t.Fits
  constants : t.constants.Nodup
  functions : (t.functions.map Function.key).Nodup

theorem distinct_empty : empty.Distinct :=
  ⟨(sound_empty fun _ => True).fits, List.nodup_nil, List.nodup_nil⟩

/-- Instructions lead from tables to larger ones: reading them from the left and adding each index
that is new to the indices of the first tables gives the indices of the second. -/
structure Advances (t : Tables) (is : List Instruction) (t' : Tables) : Prop where
  distinct : t.Distinct → t'.Distinct
  constants : t.Distinct →
    addAll id (List.range t.constants.length) (constantIndices is) = List.range t'.constants.length
  functions : t.Distinct →
    addAll id (List.range t.functions.length) (functionIndices is) = List.range t'.functions.length

variable {t t' t'' : Tables} {is js : List Instruction} {i : UInt8}

/-- Instructions without an index leave the tables as they are. -/
theorem Advances.refl (t : Tables) (hconstants : constantIndices is = [])
    (hfunctions : functionIndices is = []) : t.Advances is t where
  distinct h := h
  constants _ := by rw [hconstants]; rfl
  functions _ := by rw [hfunctions]; rfl

/-- Instructions one after the other. -/
theorem Advances.trans (h : t.Advances is t') (h' : t'.Advances js t'') :
    t.Advances (is ++ js) t'' where
  distinct ht := h'.distinct (h.distinct ht)
  constants ht := by
    rw [constantIndices_append, addAll_append, h.constants ht, h'.constants (h.distinct ht)]
  functions ht := by
    rw [functionIndices_append, addAll_append, h.functions ht, h'.functions (h.distinct ht)]

/-- Interning a constant and loading it. -/
theorem advances_of_internConstant {c : Constant} (h : t.internConstant c = .ok (i, t')) :
    t.Advances [.loadConstant i] t' := by
  have hstep : t.Distinct → t' = t.withConstant c ∧ t'.Fits ∧
      i.toNat = indexOfKey id (appendNew id t.constants c) c := by
    intro ht
    obtain ⟨rfl, hfits, rfl⟩ := (internConstant_ok_iff ht.fits).1 h
    obtain ⟨e, he, _⟩ := getElem?_indexOfKey id t.constants c
    exact ⟨rfl, hfits, toNat_ofNat_index hfits.1 he⟩
  constructor
  case distinct =>
    intro ht
    obtain ⟨rfl, hfits, _⟩ := hstep ht
    have hnodup : ((appendNew id t.constants c).map id).Nodup :=
      nodup_appendNew (by simpa using ht.constants) c
    rw [List.map_id] at hnodup
    exact ⟨hfits, hnodup, ht.functions⟩
  case constants =>
    intro ht
    obtain ⟨rfl, _, hindex⟩ := hstep ht
    have hcount := appendNew_range_index id t.constants c
    rw [← hindex] at hcount
    exact hcount
  case functions =>
    intro ht
    obtain ⟨rfl, _, _⟩ := hstep ht
    rfl

/-- Interning a function and opening a frame for it. -/
theorem advances_of_internFunction {f : Function} {argc : UInt8}
    (h : t.internFunction f = .ok (i, t')) : t.Advances [.startCall i argc] t' := by
  have hstep : t.Distinct → t' = t.withFunction f ∧ t'.Fits ∧
      i.toNat = indexOfKey Function.key (appendNew Function.key t.functions f) f := by
    intro ht
    obtain ⟨rfl, hfits, rfl⟩ := (internFunction_ok_iff ht.fits).1 h
    obtain ⟨e, he, _⟩ := getElem?_indexOfKey Function.key t.functions f
    exact ⟨rfl, hfits, toNat_ofNat_index hfits.2 he⟩
  constructor
  case distinct =>
    intro ht
    obtain ⟨rfl, hfits, _⟩ := hstep ht
    exact ⟨hfits, ht.constants, nodup_appendNew ht.functions f⟩
  case constants =>
    intro ht
    obtain ⟨rfl, _, _⟩ := hstep ht
    rfl
  case functions =>
    intro ht
    obtain ⟨rfl, _, hindex⟩ := hstep ht
    have hcount := appendNew_range_index Function.key t.functions f
    rw [← hindex] at hcount
    exact hcount

end Tables

/-! ## Expressions and statements -/

section Runs

variable {m : Machine} {scope : Scopes Function}

/-- The instruction that ends a call has no index. -/
theorem Instruction.Ends.indices {f : Function} {argc : Nat} {i : Instruction} (h : i.Ends f argc) :
    constantIndices [i] = [] ∧ functionIndices [i] = [] := by
  cases i with
  | callFunction | callVoidFunction | callVar | callVoidVar => exact ⟨rfl, rfl⟩
  | _ => exact h.elim

/-- The instructions of an expression lead to the tables afterwards. -/
theorem Term.advances :
    (∀ (term : Term) t code t', term.compile m scope t = .ok (code, t') →
      t.Advances code.instructions t') ∧
    ∀ args f position t moves depth t',
      compileArgs m scope f position t args = .ok (moves, depth, t') → t.Advances moves t' := by
  apply Term.compile_induction (T := fun t _ code t' => t.Advances code.instructions t')
    (A := fun _ _ t _ moves _ t' => t.Advances moves t')
  case literal =>
    intro t term c type i t' _ _ hi
    exact Tables.advances_of_internConstant hi
  case call =>
    intro t name args f index entered moves depth last t' _ harity hle hf _ ih hlast
    have hfixed : (UInt8.ofNat f.arity).toNat = f.arity := by
      have hle' := (checkArity_ok_iff.1 harity).1
      have hlimit : f.arity < 2 ^ 8 := by omega
      rw [UInt8.toNat_ofNat', Nat.mod_eq_of_lt hlimit]
    obtain ⟨hconstants, hfunctions⟩ := (callInstruction_ends hlast hfixed).indices
    have hopen : t.Advances [.startCall index (UInt8.ofNat args.length)] entered :=
      Tables.advances_of_internFunction hf
    exact (hopen.trans ih).trans (.refl t' hconstants hfunctions)
  case nil => exact fun f position t => .refl t rfl rfl
  case cons =>
    intro f position t arg args code between found passed tag rest needed t' _ iharg _ _ _ _ _
      ihargs
    have hmove : between.Advances [.argument (UInt8.ofNat position) tag] between := .refl _ rfl rfl
    exact iharg.trans (hmove.trans ihargs)

/-- Discarding the value of an expression uses no table. -/
theorem Code.advances_discarded {t t' : Tables} {code : Code}
    (h : t.Advances code.instructions t') : t.Advances code.discarded.instructions t' := by
  unfold Code.discarded
  cases code.result with
  | none => exact h
  | some type =>
    have hdiscard : t'.Advances [.discard 1] t' := .refl t' rfl rfl
    exact h.trans hdiscard

/-- A result with code leads to the tables afterwards. -/
def LeadsOn (t : Tables) (result : Except CompileError (Code × Tables)) : Prop :=
  ∀ code t', result = .ok (code, t') → t.Advances code.instructions t'

variable {σ : Type}

/-- The instructions of statements lead to the tables afterwards. -/
theorem Statement.advances (resolve : Resolver (StateM σ)) (m : Machine) :
    (∀ (s : Statement) scope t (state : σ),
      LeadsOn t (runFrom state (s.compile resolve m scope t)).1) ∧
    ∀ body scope t (state : σ),
      LeadsOn t (runFrom state (compileBody resolve m scope t body)).1 := by
  apply Statement.run_induction (S := fun _ t _ result => LeadsOn t result)
    (B := fun _ t _ result => LeadsOn t result)
  case expr =>
    intro scope t term code t' h
    obtain ⟨⟨inner, _⟩, hterm, h⟩ := except_map_eq_ok.1 h
    obtain ⟨rfl, rfl⟩ := Prod.mk.inj h
    exact Code.advances_discarded (Term.advances.1 term t inner _ hterm)
  case unresolved => intro scope t imports body cause code t' h; cases h
  case block => exact fun scope inner t imports body result ih => ih
  case other => intro scope t kind text code t' h; cases h
  case nil =>
    intro scope t code t' h
    obtain ⟨rfl, rfl⟩ := Prod.mk.inj (Except.ok.inj h)
    exact .refl t rfl rfl
  case fails => intro scope t s body e _ code t' h; cases h
  case cons =>
    intro scope t s body first between result ihs ihbody code t' h
    obtain ⟨⟨rest, _⟩, hrest, h⟩ := except_map_eq_ok.1 h
    obtain ⟨rfl, rfl⟩ := Prod.mk.inj h
    exact (ihs first between rfl).trans (ihbody rest _ hrest)

end Runs

/-! ## Programs -/

/-- The tables of a program are minimal and in the order of first use. -/
structure Bytecode.Interned (b : Bytecode) : Prop where
  constants_nodup : b.constants.Nodup
  functions_nodup : (b.functions.map Function.key).Nodup
  constants_limit : b.constants.length ≤ 256
  functions_limit : b.functions.length ≤ 256
  /-- The first occurrences of indices of constants count up, to the number of constants. -/
  constants_order : (constantIndices b.instructions).eraseDups = List.range b.constants.length
  /-- The first occurrences of indices of functions count up, to the number of functions. -/
  functions_order : (functionIndices b.instructions).eraseDups = List.range b.functions.length
  /-- Exactly the indices of the constants are loaded. -/
  constant_loaded : ∀ n, n < b.constants.length ↔
    ∃ index, .loadConstant index ∈ b.instructions ∧ index.toNat = n
  /-- Exactly the indices of the functions are called. -/
  function_called : ∀ n, n < b.functions.length ↔
    ∃ index argc, .startCall index argc ∈ b.instructions ∧ index.toNat = n

/-- **Interning is minimal and in the order of first use**, however imports are resolved. -/
theorem Program.bytecode_interned {σ : Type} {resolve : Resolver (StateM σ)} {state : σ}
    {m : Machine} {p : Program} {b : Bytecode}
    (h : (runFrom state (p.compile resolve m)).1 = .ok b) : b.Interned := by
  obtain ⟨scope, entered, code, t, _, hbody, rfl⟩ := Program.run_eq_ok_iff.1 h
  have hadvances : Tables.empty.Advances code.instructions t :=
    (Statement.advances resolve m).2 p.body scope .empty entered code t hbody
  have hdistinct := hadvances.distinct Tables.distinct_empty
  have hconstants : (constantIndices code.instructions).eraseDups =
      List.range t.constants.length := by
    rw [← addAll_nil_eq_eraseDups]
    exact hadvances.constants Tables.distinct_empty
  have hfunctions : (functionIndices code.instructions).eraseDups =
      List.range t.functions.length := by
    rw [← addAll_nil_eq_eraseDups]
    exact hadvances.functions Tables.distinct_empty
  exact
    { constants_nodup := hdistinct.constants
      functions_nodup := hdistinct.functions
      constants_limit := hdistinct.fits.1
      functions_limit := hdistinct.fits.2
      constants_order := hconstants
      functions_order := hfunctions
      constant_loaded := fun n => by
        rw [← mem_constantIndices, ← List.mem_eraseDups, hconstants, List.mem_range]
      function_called := fun n => by
        rw [← mem_functionIndices, ← List.mem_eraseDups, hfunctions, List.mem_range] }

namespace Counting

/-- A resolver that counts how often it is asked. -/
def counted : Resolver (StateM Nat) := fun header name => do
  modify (· + 1)
  return Resolution.ofFunctions functions header name

/-- Four constants and three functions that are used up to three times, in calls of calls and in a
block. -/
theorem program_interned :
    (runFrom 0 (program.compile counted ⟨.lp64, .standard⟩)).1 = .ok bytecode ∧
      bytecode.Interned := by
  have hrun : (runFrom 0 (program.compile counted ⟨.lp64, .standard⟩)).1 = .ok bytecode := by
    decide +kernel
  exact ⟨hrun, Program.bytecode_interned hrun⟩

end Counting

end ForeignCall
