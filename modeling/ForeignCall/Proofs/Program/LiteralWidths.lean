import ForeignCall.Proofs.Bytecode.Runs
import ForeignCall.Proofs.Constant.Words
import ForeignCall.Proofs.Program.WellFormed
import ForeignCall.Proofs.Target.Casts

/-!
# ForeignCall.Proofs.Program.LiteralWidths

The range check of literals and the cast to the type of the parameter. The check looks at ranges of
at most 64 bits, the cast reduces to the width of the type, whatever this is; still a literal passes
just when the cast with one of the two signs keeps its value.

* `Target.Keeps` — a cast that keeps a value;
* `fitsWidth_iff_keeps` — the range check and the cast;
* `Term.Passes` — a literal that is passed for a parameter, at any depth of an expression;
* `literals_kept` — the literals that the compiler lets through, and those that it refuses.
-/

namespace ForeignCall

/-- Every integer type has between 1 and 16 bytes. -/
def Target.SizedIntegers (target : Target) : Prop :=
  ∀ kind, 1 ≤ (target.integral kind).size ∧ (target.integral kind).size ≤ 16

/-- A cast to the integer type of a kind, with a sign or without, keeps a value. -/
def Target.Keeps (target : Target) (kind : IntKind) (signed : Bool) (v : Int64) : Prop :=
  target.cast (.integral kind signed) (.int v.toInt) = .ok (.int v.toInt)

/-- The kind of integers that counts for the literals that are passed as a type. -/
def CType.literalKind? : CType → Option IntKind
  | .integral kind _ => some kind
  | .enum .. => some .int
  | _ => none

/-! ## The range check and the cast -/

section Ranges

variable {target : Target} {kind : IntKind} {signed : Bool} {v : Int64}

/-- The cast to a truth value keeps the two truth values. -/
theorem keeps_bool_iff : target.Keeps .bool signed v ↔ v.toInt = 0 ∨ v.toInt = 1 := by
  simp only [Target.Keeps, Target.cast, Except.ok.injEq, Scalar.int.injEq, bne_iff_ne, ne_eq]
  split <;> omega

/-- A cast to any other integer type keeps a value when reducing it does. -/
theorem keeps_iff (hkind : kind ≠ .bool) (hsize : (target.integral kind).size ≤ 16) :
    target.Keeps kind signed v ↔
      wrapTo ((target.integral kind).size * 8) signed v.toInt = v.toInt :=
  castsTo_iff hkind (Target.castBits_of_narrow (by omega))

/-- The range of some bits is that of a width. -/
theorem inBits_iff {bits : Nat} {n : Int} :
    inBits bits signed n = true ↔ HasWidth bits signed n := by
  unfold inBits HasWidth
  cases signed with
  | true =>
    simp only [if_true, Bool.and_eq_true, decide_eq_true_eq]
    omega
  | false =>
    simp only [Bool.false_eq_true, if_false, Bool.and_eq_true, decide_eq_true_eq]
    omega

/-- Every word has 64 bits, one of which is the sign. -/
theorem hasWidth_word (v : Int64) : HasWidth 64 true v.toInt := by
  have hword := isWord_toInt v
  unfold IsWord at hword
  simp only [HasWidth, if_true]
  omega

/-- Up to 8 bytes the range of a type is what a cast to the type keeps. -/
theorem inRange_iff_keeps (hkind : kind ≠ .bool) (hpos : 1 ≤ (target.integral kind).size)
    (hsize : (target.integral kind).size ≤ 8) (signed : Bool) :
    ∃ holds, inRange target kind signed v.toInt = .ok holds ∧
      (holds = true ↔ target.Keeps kind signed v) := by
  refine ⟨_, inRange_of_sized hpos (by omega), ?_⟩
  rw [Nat.min_eq_left (by omega), inBits_iff, keeps_iff hkind (by omega),
    wrapTo_eq_self_iff (by omega) (by omega)]

/-- Beyond 8 bytes every word is in the range of the signed type. -/
theorem inRange_of_wide (hwide : 8 < (target.integral kind).size)
    (hsize : (target.integral kind).size ≤ 16) :
    inRange target kind true v.toInt = .ok true := by
  rw [inRange_of_sized (by omega) (by omega), Nat.min_eq_right (by omega)]
  exact congrArg _ (inBits_iff.mpr (hasWidth_word v))

/-- Beyond 8 bytes a cast to the signed type keeps every word. -/
theorem keeps_of_wide (hkind : kind ≠ .bool) (hwide : 8 < (target.integral kind).size)
    (hsize : (target.integral kind).size ≤ 16) : target.Keeps kind true v := by
  rw [keeps_iff hkind hsize]
  by_cases hlimit : (target.integral kind).size = 16
  · rw [hlimit]
    rfl
  · rw [wrapTo_eq_self_iff (by omega) (by omega)]
    exact (hasWidth_word v).mono (by omega)

/-- A value fits an integer type just when the cast with one of the two signs keeps it. -/
theorem fitsKind_iff_keeps (hpos : 1 ≤ (target.integral kind).size)
    (hsize : (target.integral kind).size ≤ 16) :
    ∃ fits, fitsKind target kind v.toInt = .ok fits ∧
      (fits = true ↔ ∃ signed, target.Keeps kind signed v) := by
  unfold fitsKind
  by_cases hkind : kind = .bool
  · subst hkind
    refine ⟨_, if_pos rfl, ?_⟩
    simp only [keeps_bool_iff, exists_const, Bool.and_eq_true, decide_eq_true_eq]
    omega
  · rw [if_neg hkind]
    by_cases hword : (target.integral kind).size ≤ 8
    · obtain ⟨holds, hholds, hsigned⟩ := inRange_iff_keeps hkind hpos hword true
      obtain ⟨holds', hholds', hunsigned⟩ := inRange_iff_keeps hkind hpos hword false
      rw [hholds, hholds']
      simp only [Bool.exists_bool, ← hsigned, ← hunsigned]
      cases holds <;> simp
    · have hwide : 8 < (target.integral kind).size := by omega
      rw [inRange_of_wide hwide hsize]
      exact ⟨true, rfl, iff_of_true rfl ⟨true, keeps_of_wide hkind hwide hsize⟩⟩

/-- **The range check agrees with the cast**: a literal fits a type just when the cast with one of
the two signs keeps it. -/
theorem fitsWidth_iff_keeps (h : target.SizedIntegers) {type : CType}
    (htype : type.literalKind? = some kind) :
    ∃ fits, fitsWidth target type v = .ok fits ∧
      (fits = true ↔ ∃ signed, target.Keeps kind signed v) := by
  have hfits : fitsWidth target type v = fitsKind target kind v.toInt := by
    cases type <;> simp_all [fitsWidth, CType.literalKind?]
  obtain ⟨hpos, hsize⟩ := h kind
  rw [hfits]
  exact fitsKind_iff_keeps hpos hsize

end Ranges

/-! ## The literals of an expression -/

/-- A call, at any depth of an expression, passes an integer literal at a position for which the
function that is called has a parameter. -/
inductive Term.Passes (scope : Scopes Function) (f : Function) (position : Nat) (text : String)
    (param : Member CType) : Term → Prop where
  | here {name : String} {args : List Term} : scope.lookup name = some f →
      args[position]? = some (.int text) → f.params[position]? = some param →
      Passes scope f position text param (.call (.name name) args)
  | deeper {callee arg : Term} {args : List Term} : arg ∈ args →
      Passes scope f position text param arg →
      Passes scope f position text param (.call callee args)

section Literals

variable {m : Machine} {scope : Scopes Function}

/-- The literals that are passed in an expression that is compiled fit their parameters. -/
theorem literalFits_of_compile :
    (∀ (term : Term) t code t', term.compile m scope t = .ok (code, t') →
      ∀ f position text param, term.Passes scope f position text param →
        m.LiteralFits param.type (.int text)) ∧
    ∀ args f position t moves depth t',
      compileArgs m scope f position t args = .ok (moves, depth, t') →
        (∀ arg ∈ args, ∀ g n text param, arg.Passes scope g n text param →
          m.LiteralFits param.type (.int text)) ∧
        ∀ i text param, args[i]? = some (.int text) → f.params[position + i]? = some param →
          m.LiteralFits param.type (.int text) := by
  apply Term.compile_induction
    (T := fun _ term _ _ => ∀ f position text param, term.Passes scope f position text param →
      m.LiteralFits param.type (.int text))
    (A := fun f position _ args _ _ _ =>
      (∀ arg ∈ args, ∀ g n text param, arg.Passes scope g n text param →
        m.LiteralFits param.type (.int text)) ∧
      ∀ i text param, args[i]? = some (.int text) → f.params[position + i]? = some param →
        m.LiteralFits param.type (.int text))
  case literal =>
    intro t term c type i t' hc _ _ f position text param hpasses
    cases hpasses with
    | here => simp [Term.constant?] at hc
    | deeper => simp [Term.constant?] at hc
  case call =>
    intro t name args f index entered moves depth last t' hname _ _ _ _ ih _ g position text param
      hpasses
    cases hpasses with
    | here hg harg hparam =>
      obtain rfl : f = g := Option.some.inj (hname.symm.trans hg)
      exact ih.2 position text param harg (by rwa [Nat.zero_add])
    | deeper hmem hpasses => exact ih.1 _ hmem g position text param hpasses
  case nil =>
    intro f position t
    constructor
    · intro arg hmem
      exact absurd hmem List.not_mem_nil
    · intro i text param harg
      simp at harg
  case cons =>
    intro f position t arg args code between found passed tag rest needed t' _ iharg _ hpassed
      htag _ _ ihargs
    constructor
    · intro a hmem
      rcases List.mem_cons.1 hmem with rfl | hmem
      · exact iharg
      · exact ihargs.1 a hmem
    · intro i text param ha hparam
      cases i with
      | zero =>
        obtain rfl : arg = .int text := by simpa using ha
        have hfits := argumentFits_iff.2 ⟨passed, tag, hpassed, htag⟩
        rw [Nat.add_zero] at hparam
        rw [ArgumentFits, hparam] at hfits
        exact hfits.2.1
      | succ i =>
        rw [List.getElem?_cons_succ] at ha
        rw [← Nat.add_assoc, Nat.add_right_comm] at hparam
        exact ihargs.2 i text param ha hparam

/-- A literal is refused by the range check for a parameter. -/
structure RefusedLiteral (m : Machine) (f : Function) (text : String) (param : Member CType)
    (name : String) (v : Int64) (type : CType) : Prop where
  function : f.name = name
  value : decodeInt text = .ok v
  passedAs : param.type = type
  integral : type.isIntegralOrEnum = true
  tooWide : fitsWidth m.target type v = .ok false

section Refusals

variable {f : Function} {t : Tables} {name : String} {position : Nat} {v : Int64} {type : CType}

/-- A count never fails because of a literal, and neither do the other steps of a call, apart from
its arguments. -/
theorem operandByte_inRange {n : Nat} {what : String} :
    operandByte n what ≠ .error (.literalOutOfRange name position v type) := by
  unfold operandByte
  split <;> simp

theorem loadCode_inRange {c : Constant} {u : CType} :
    loadCode t c u ≠ .error (.literalOutOfRange name position v type) := by
  unfold loadCode Tables.internConstant
  split
  · simp [Except.map]
  · simp [except_map_eq_error, operandByte_inRange]

theorem tag_inRange {u : CType} :
    m.tag u ≠ .error (.literalOutOfRange name position v type) := by
  unfold Machine.tag
  split <;> simp

theorem checkArity_inRange {n : Nat} :
    checkArity f n ≠ .error (.literalOutOfRange name position v type) := by
  unfold checkArity
  split <;> simp

theorem internFunction_inRange :
    t.internFunction f ≠ .error (.literalOutOfRange name position v type) := by
  unfold Tables.internFunction
  split
  · simp
  · simp [except_map_eq_error, operandByte_inRange]

theorem callInstruction_inRange {argc fixed : UInt8} :
    callInstruction m f argc fixed ≠ .error (.literalOutOfRange name position v type) := by
  unfold callInstruction
  split <;> simp [except_map_eq_error, tag_inRange]

/-- A literal is refused where it is checked against its parameter. -/
theorem refused_of_checkLiteral {n : Nat} {param : Member CType} {arg : Term}
    (h : checkLiteral m f n param.type arg = .error (.literalOutOfRange name position v type)) :
    ∃ text, arg = .int text ∧ n = position ∧ RefusedLiteral m f text param name v type := by
  cases arg with
  | int text =>
    cases hvalue : decodeInt text with
    | error e => simp [checkLiteral, hvalue] at h
    | ok w =>
      simp only [checkLiteral, hvalue] at h
      split at h
      · next hintegral =>
        split at h
        · simp at h
        · cases h
        · next htooWide =>
          obtain ⟨hname, rfl, rfl, rfl⟩ := by simpa using h
          exact ⟨text, rfl, rfl, hname, hvalue, rfl, hintegral, htooWide⟩
      · cases h
  | str raw => simp [checkLiteral] at h
  | name key => simp [checkLiteral] at h
  | call callee args => simp [checkLiteral] at h
  | other kind text => simp [checkLiteral] at h

/-- A literal is refused where it becomes an argument. -/
theorem refused_of_argumentInstruction {n : Nat} {arg : Term} {code : Code}
    (h : argumentInstruction m f n arg code =
      .error (.literalOutOfRange name position v type)) :
    ∃ text param, arg = .int text ∧ n = position ∧ f.params[n]? = some param ∧
      RefusedLiteral m f text param name v type := by
  unfold argumentInstruction at h
  cases hfound : code.result with
  | none => simp [hfound] at h
  | some found =>
    simp only [hfound, except_bind_eq_error, tag_inRange, operandByte_inRange, reduceCtorEq,
      and_false, exists_false, or_false] at h
    unfold passedType at h
    cases hparam : f.params[n]? with
    | none => simp [hparam] at h
    | some param =>
      simp only [hparam] at h
      split at h
      · obtain ⟨text, harg, hn, hrefused⟩ := refused_of_checkLiteral (except_map_eq_error.1 h)
        exact ⟨text, param, harg, hn, rfl, hrefused⟩
      · cases h

mutual

/-- Where an expression is not compiled because of a literal, it passes this literal. -/
theorem Term.refused_of_compile :
    (term : Term) → {t : Tables} →
      term.compile m scope t = .error (.literalOutOfRange name position v type) →
      ∃ f text param, term.Passes scope f position text param ∧
        RefusedLiteral m f text param name v type
  | .call (.name key) args, t, h => by
    rw [Term.compile] at h
    cases hname : scope.lookup key with
    | none => simp [hname] at h
    | some f =>
      simp only [hname, except_bind_eq_error, checkArity_inRange, operandByte_inRange,
        internFunction_inRange, callInstruction_inRange, reduceCtorEq, and_false, exists_false,
        false_or, or_false, Prod.exists] at h
      obtain ⟨-, -, -, -, -, -, index, entered, -, hargs⟩ := h
      rcases refused_of_compileArgs f args hargs with
        ⟨arg, hmem, g, text, param, hpasses, hrefused⟩ |
        ⟨i, text, param, harg, hi, hparam, hrefused⟩
      · exact ⟨g, text, param, .deeper hmem hpasses, hrefused⟩
      · rw [Nat.zero_add] at hi
        subst hi
        exact ⟨f, text, param, .here hname harg hparam, hrefused⟩
  | .str raw, t, h => by
    rw [Term.compile] at h
    split at h
    · cases h
    · exact absurd h loadCode_inRange
  | .int text, t, h => by
    rw [Term.compile] at h
    split at h
    · cases h
    · split at h
      · cases h
      · exact absurd h loadCode_inRange
  | .name key, t, h => by
    rw [Term.compile] at h
    split at h <;> cases h
  | .other _ _, _, h | .call (.str _) _, _, h | .call (.int _) _, _, h | .call (.call _ _) _, _, h
  | .call (.other _ _) _, _, h => by simp [Term.compile] at h

/-- Where arguments are not compiled because of a literal, one of them passes it or is it. -/
theorem refused_of_compileArgs (f : Function) :
    (args : List Term) → {n : Nat} → {t : Tables} →
      compileArgs m scope f n t args = .error (.literalOutOfRange name position v type) →
      (∃ arg ∈ args, ∃ g text param, arg.Passes scope g position text param ∧
        RefusedLiteral m g text param name v type) ∨
      ∃ i text param, args[i]? = some (.int text) ∧ n + i = position ∧
        f.params[position]? = some param ∧ RefusedLiteral m f text param name v type
  | [], n, t, h => by simp [compileArgs] at h
  | arg :: args, n, t, h => by
    rw [compileArgs] at h
    simp only [except_bind_eq_error, reduceCtorEq, and_false, exists_false, or_false,
      Prod.exists] at h
    rcases h with h | ⟨code, between, -, h | ⟨move, -, h⟩⟩
    · obtain ⟨g, text, param, hpasses, hrefused⟩ := Term.refused_of_compile arg h
      exact .inl ⟨arg, List.mem_cons_self, g, text, param, hpasses, hrefused⟩
    · obtain ⟨text, param, rfl, rfl, hparam, hrefused⟩ := refused_of_argumentInstruction h
      exact .inr ⟨0, text, param, rfl, rfl, hparam, hrefused⟩
    · rcases refused_of_compileArgs f args h with
        ⟨a, hmem, hpassed⟩ | ⟨i, text, param, harg, hi, hparam, hrefused⟩
      · exact .inl ⟨a, List.mem_cons_of_mem _ hmem, hpassed⟩
      · exact .inr ⟨i + 1, text, param, harg, by omega, hparam, hrefused⟩

end

end Refusals

/-- An integer literal has a value, and if it is passed as an integral or enum type, the cast with
one of the two signs keeps this value. -/
def Machine.KeepsLiteral (m : Machine) (text : String) (type : CType) : Prop :=
  ∃ v, decodeInt text = .ok v ∧
    ∀ kind, type.literalKind? = some kind → ∃ signed, m.target.Keeps kind signed v

/-- The types whose literals have to fit are those with a kind. -/
theorem isIntegralOrEnum_iff {type : CType} :
    type.isIntegralOrEnum = true ↔ ∃ kind, type.literalKind? = some kind := by
  cases type <;> simp [CType.isIntegralOrEnum, CType.literalKind?]

/-- What fits a parameter is kept by a cast. -/
theorem Machine.LiteralFits.keepsLiteral (h : m.target.SizedIntegers) {text : String} {type : CType}
    (hfits : m.LiteralFits type (.int text)) : m.KeepsLiteral text type := by
  obtain ⟨v, hvalue, hcheck⟩ := hfits
  refine ⟨v, hvalue, fun kind hkind => ?_⟩
  obtain ⟨fits, hfits, hkeeps⟩ := fitsWidth_iff_keeps h hkind (v := v)
  rw [hcheck (isIntegralOrEnum_iff.2 ⟨kind, hkind⟩)] at hfits
  exact hkeeps.1 (Except.ok.inj hfits).symm

/-- What is refused for a parameter would be changed by every cast. -/
theorem RefusedLiteral.not_keeps (h : m.target.SizedIntegers) {f : Function} {text name : String}
    {param : Member CType} {v : Int64} {type : CType}
    (hrefused : RefusedLiteral m f text param name v type) :
    ∃ kind, type.literalKind? = some kind ∧ ∀ signed, ¬ m.target.Keeps kind signed v := by
  obtain ⟨kind, hkind⟩ := isIntegralOrEnum_iff.1 hrefused.integral
  refine ⟨kind, hkind, fun signed hkeeps => ?_⟩
  obtain ⟨fits, hfits, hiff⟩ := fitsWidth_iff_keeps h hkind (v := v)
  rw [hrefused.tooWide, hiff.2 ⟨signed, hkeeps⟩] at hfits
  cases hfits

/-- **Literals that are passed keep their values.** The range check of a type is the question
whether the cast with one of the two signs keeps a value. So in every expression that is compiled
one of the casts keeps each literal that is passed; and where a program is refused because of a
literal, one of its expressions passes the literal, and both casts would change it. -/
theorem literals_kept (m : Machine) (h : m.target.SizedIntegers) :
    (∀ (type : CType) kind v, type.literalKind? = some kind →
      ∃ fits, fitsWidth m.target type v = .ok fits ∧
        (fits = true ↔ ∃ signed, m.target.Keeps kind signed v)) ∧
    (∀ (term : Term) scope t code t', term.compile m scope t = .ok (code, t') →
      ∀ f position text param, term.Passes scope f position text param →
        m.KeepsLiteral text param.type) ∧
    ∀ (σ : Type) (resolve : Resolver (StateM σ)) (state : σ) (p : Program),
      (∀ b, (runFrom state (p.compile resolve m)).1 = .ok b →
        ∀ term ∈ p.expressions, ∃ scope t code t', term.compile m scope t = .ok (code, t')) ∧
      ∀ name position v type,
        (runFrom state (p.compile resolve m)).1 = .error (.literalOutOfRange name position v type) →
        ∃ term ∈ p.expressions, ∃ scope f text param, term.Passes scope f position text param ∧
          f.name = name ∧ param.type = type ∧ decodeInt text = .ok v ∧
          ∃ kind, type.literalKind? = some kind ∧ ∀ signed, ¬ m.target.Keeps kind signed v := by
  refine ⟨fun type kind v hkind => fitsWidth_iff_keeps h hkind, ?_, ?_⟩
  · intro term scope t code t' hcode f position text param hpasses
    have hfits := literalFits_of_compile.1 term t code t' hcode f position text param hpasses
    exact hfits.keepsLiteral h
  · intro σ resolve state p
    have hexplained := Program.explained resolve m p state
    constructor
    · intro b hb
      rw [hb] at hexplained
      exact hexplained
    · intro name position v type herror
      rw [herror] at hexplained
      obtain ⟨cause, hcause⟩ | ⟨construct, hconstruct⟩ | ⟨term, hmem, scope, t, hterm⟩ := hexplained
      · cases hcause
      · cases hconstruct
      · obtain ⟨f, text, param, hpasses, hrefused⟩ := Term.refused_of_compile term hterm
        exact ⟨term, hmem, scope, f, text, param, hpasses, hrefused.function, hrefused.passedAs,
          hrefused.value, hrefused.not_keeps h⟩

/-- The integer types of the common targets have up to 8 bytes. -/
theorem sizedIntegers_lp64 : Target.lp64.SizedIntegers := by
  intro kind
  cases kind <;> decide

/-- A character has 8 bits: 255 is kept without a sign, and 256 is not kept. -/
theorem literals_kept_char :
    (∃ signed, Target.lp64.Keeps .char signed 255) ∧
      ∀ signed, ¬ Target.lp64.Keeps .char signed 256 := by
  have h := (literals_kept ⟨.lp64, .standard⟩ sizedIntegers_lp64).1 (.integral .char true) .char
  constructor
  · obtain ⟨fits, hfits, hkeeps⟩ := h 255 rfl
    exact hkeeps.1 (Except.ok.inj hfits).symm
  · intro signed hkeeps
    obtain ⟨fits, hfits, hiff⟩ := h 256 rfl
    rw [hiff.2 ⟨signed, hkeeps⟩] at hfits
    exact absurd hfits (by decide)

end Literals

end ForeignCall
