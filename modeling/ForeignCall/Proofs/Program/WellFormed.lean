import ForeignCall.Proofs.Bytecode.Derivation

/-!
# ForeignCall.Proofs.Program.WellFormed

Which programs can be compiled, told without compiling them. A program is taken apart into its
imports, statements and expressions, and each of them has to be right by itself; only the numbers of
constants and functions are a matter of the whole program.

* `Program.constructs` — what a program is made of;
* `Construct.WellFormed` — what is asked of each part;
* `Program.WellFormed` — what is asked of the program.
-/

namespace ForeignCall

/-- A part of a program. -/
inductive Construct where
  /-- The imports of the program or of a block. -/
  | imports (imports : List Import)
  /-- An expression, with the imports of the blocks around it, the innermost first. -/
  | expression (around : List (List Import)) (term : Term)
  /-- A statement of any other form. -/
  | other (kind text : String)

mutual

/-- An expression and all expressions among its arguments. -/
def Term.constructs (around : List (List Import)) : Term → List Construct
  | .call callee args => .expression around (.call callee args) :: argsConstructs around args
  | .str raw => [.expression around (.str raw)]
  | .int text => [.expression around (.int text)]
  | .name name => [.expression around (.name name)]
  | .other kind text => [.expression around (.other kind text)]

/-- The expressions of arguments. -/
def argsConstructs (around : List (List Import)) : List Term → List Construct
  | [] => []
  | arg :: args => arg.constructs around ++ argsConstructs around args

end

mutual

/-- The parts of a statement. -/
def Statement.constructs (around : List (List Import)) : Statement → List Construct
  | .expr term => term.constructs around
  | .block imports body => .imports imports :: bodyConstructs (imports :: around) body
  | .other kind text => [.other kind text]

/-- The parts of statements in a row. -/
def bodyConstructs (around : List (List Import)) : List Statement → List Construct
  | [] => []
  | s :: body => s.constructs around ++ bodyConstructs around body

end

/-- The parts of a program, at any depth. -/
def Program.constructs (p : Program) : List Construct :=
  .imports p.imports :: bodyConstructs [p.imports] p.body

section Conditions

variable (r : Resolution) (m : Machine) (around : List (List Import))

/-- The function that is called by an expression. -/
def Term.callee? : Term → Option Function
  | .call (.name key) _ => meaning? r around key
  | _ => none

/-- The type of the value of an expression; a call of a void function has none. -/
def Term.type? : Term → Option CType
  | .call (.name key) _ => (meaning? r around key).bind Function.result
  | term => term.literalType? m

/-- Values of the type can be passed. -/
def Machine.Passes (t : CType) : Prop := ∃ tag, m.tags.tagOf m.target t = some tag

/-- An integer literal fits the width of an integral or enum parameter. -/
def Machine.LiteralFits (param : CType) : Term → Prop
  | .int text =>
    ∃ v, decodeInt text = .ok v ∧
      (param.isIntegralOrEnum = true → fitsWidth m.target param v = .ok true)
  | _ => True

/-- A value of the type `found` can be the argument at a position: in a fixed position as the
parameter says, and behind all parameters as its promoted type. -/
def ArgumentFits (f : Function) (position : Nat) (arg : Term) (found : CType) : Prop :=
  match f.params[position]? with
  | some param =>
    compatible param.type found = true ∧ m.LiteralFits param.type arg ∧
      m.Passes param.type.decayed
  | none => m.Passes (promoted found)

/-- Every call of the function can have this many arguments. -/
def Function.Takes (f : Function) (n : Nat) : Prop :=
  f.arity ≤ n ∧ (n = f.arity ∨ f.variadic = true)

/-- What is asked of an expression, apart from the expressions among its arguments. -/
def Term.WellFormed : Term → Prop
  | .str raw => ∃ s, decodeString raw = .ok s
  | .int text => ∃ v type, decodeInt text = .ok v ∧ intLiteralType m.target text v = .ok type
  | .call (.name key) args =>
    ∃ f, meaning? r around key = some f ∧ f.Takes args.length ∧ args.length ≤ 255 ∧
      (f.ret.isVoid = false → m.Passes f.ret) ∧
      ∀ position arg, args[position]? = some arg →
        ∃ found, arg.type? r m around = some found ∧ ArgumentFits m f position arg found
  | .call _ _ | .name _ | .other _ _ => False

end Conditions

/-- What is asked of a part of a program. -/
def Construct.WellFormed (r : Resolution) (m : Machine) : Construct → Prop
  | .imports is => ImportsResolve r is
  | .expression around term => term.WellFormed r m around
  | .other _ _ => False

/-- The constant that a part of a program stands for. -/
def Construct.constant? : Construct → Option Constant
  | .expression _ term => term.constant?
  | _ => none

/-- The function that a part of a program calls. -/
def Construct.callee? (r : Resolution) : Construct → Option Function
  | .expression around term => term.callee? r around
  | _ => none

/-- What is asked of a program: each of its parts is well-formed, and an operand byte can count the
different constants and the different functions that it uses. -/
structure Program.WellFormed (r : Resolution) (m : Machine) (p : Program) : Prop where
  constructs : ∀ c ∈ p.constructs, c.WellFormed r m
  constants : (p.constructs.filterMap Construct.constant?).toFinset.card ≤ 256
  functions : ((p.constructs.filterMap (Construct.callee? r)).map Function.key).toFinset.card ≤ 256

/-! ## Laws -/

variable {r : Resolution} {m : Machine} {around : List (List Import)}

/-- A literal has no parts. -/
theorem Term.constructs_literal {term : Term} {c : Constant} (h : term.constant? = some c) :
    term.constructs around = [.expression around term] := by
  cases term with
  | str raw => rfl
  | int text => rfl
  | name name => simp [constant?] at h
  | call callee args => simp [constant?] at h
  | other kind text => simp [constant?] at h

/-- A literal calls nothing. -/
theorem Term.callee?_literal {term : Term} {c : Constant} (h : term.constant? = some c) :
    term.callee? r around = none := by
  cases term with
  | str raw => rfl
  | int text => rfl
  | name name => rfl
  | call callee args => simp [constant?] at h
  | other kind text => rfl

/-- The type of a literal depends on nothing around it. -/
theorem Term.type?_literal {term : Term} {c : Constant} (h : term.constant? = some c) :
    term.type? r m around = term.literalType? m := by
  cases term with
  | str raw => rfl
  | int text => rfl
  | name name => rfl
  | call callee args => simp [constant?] at h
  | other kind text => rfl

/-- A literal is well-formed when it has a value and a type. -/
theorem Term.wellFormed_literal {term : Term} {c : Constant} {type : CType}
    (hc : term.constant? = some c) (htype : term.literalType? m = some type) :
    term.WellFormed r m around := by
  cases term with
  | str raw =>
    obtain ⟨s, hs, _⟩ := Option.map_eq_some_iff.1 hc
    exact ⟨s, toOption_eq_some.1 hs⟩
  | int text =>
    obtain ⟨v, hv, ht⟩ := Option.bind_eq_some_iff.1 htype
    exact ⟨v, type, toOption_eq_some.1 hv, toOption_eq_some.1 ht⟩
  | name name => simp [constant?] at hc
  | call callee args => simp [constant?] at hc
  | other kind text => simp [constant?] at hc

/-- A literal that is checked against a parameter passes when it fits. -/
theorem checkLiteral_ok_iff {f : Function} {position : Nat} {param : CType} {arg : Term} :
    checkLiteral m f position param arg = .ok () ↔ m.LiteralFits param arg := by
  cases arg with
  | int text =>
    simp only [checkLiteral, Machine.LiteralFits]
    cases decodeInt text with
    | error e => simp
    | ok v =>
      by_cases hparam : param.isIntegralOrEnum
      · cases hfits : fitsWidth m.target param v with
        | error reason => simp [hparam, hfits]
        | ok fits => cases fits <;> simp [hparam, hfits]
      · simp [hparam]
  | str raw => simp [checkLiteral, Machine.LiteralFits]
  | name name => simp [checkLiteral, Machine.LiteralFits]
  | call callee args => simp [checkLiteral, Machine.LiteralFits]
  | other kind text => simp [checkLiteral, Machine.LiteralFits]

/-- An argument fits exactly when there is a type as which it is passed, and a tag of this type. -/
theorem argumentFits_iff {f : Function} {position : Nat} {arg : Term} {found : CType} :
    ArgumentFits m f position arg found ↔
      ∃ passed tag, passedType m f position arg found = .ok passed ∧ m.tag passed = .ok tag := by
  unfold ArgumentFits passedType Machine.Passes
  cases f.params[position]? with
  | none => simp [Machine.tag_ok_iff]
  | some param =>
    by_cases hcompatible : compatible param.type found
    · have hliteral : checkLiteral m f position param.type arg = .ok () ↔
          m.LiteralFits param.type arg := checkLiteral_ok_iff
      simp only [hcompatible, true_and, if_true, except_map_eq_ok, Machine.tag_ok_iff, ← hliteral]
      constructor
      · rintro ⟨hfits, tag, htag⟩
        exact ⟨_, tag, ⟨(), hfits, rfl⟩, htag⟩
      · rintro ⟨_, tag, ⟨⟨⟩, hfits, rfl⟩, htag⟩
        exact ⟨hfits, tag, htag⟩
    · simp [hcompatible]

end ForeignCall
