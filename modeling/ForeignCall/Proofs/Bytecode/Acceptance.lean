import ForeignCall.Proofs.Program.WellFormed

/-!
# ForeignCall.Proofs.Bytecode.Acceptance

The compiler accepts exactly the well-formed programs. That the tables fit is asked of the tables at
the end: they only grow, so the ones before fit too.

* `Accepted` — parts of a program are well-formed, and the tables with what they use fit;
* `Term.accepted_of_compile`, `Term.exists_compile` — exactly the accepted expressions are compiled,
  and the same for statements;
* `bytecode_ok_iff_wellFormed` — the whole program.
-/

namespace ForeignCall

/-- The tables with the constants and the functions that parts of a program use. -/
def Tables.withUsed (t : Tables) (r : Resolution) (cs : List Construct) : Tables :=
  ⟨addAll id t.constants (cs.filterMap Construct.constant?),
    addAll Function.key t.functions (cs.filterMap (Construct.callee? r))⟩

theorem Tables.withUsed_append (t : Tables) (r : Resolution) (cs cs' : List Construct) :
    t.withUsed r (cs ++ cs') = (t.withUsed r cs).withUsed r cs' := by
  simp only [withUsed, List.filterMap_append, addAll_append]

theorem Tables.within_withUsed (t : Tables) (r : Resolution) (cs : List Construct) :
    t.Within (t.withUsed r cs) :=
  ⟨prefix_addAll .., prefix_addAll ..⟩

/-- Each part is well-formed, and the tables with what the parts use fit. -/
structure Accepted (r : Resolution) (m : Machine) (t : Tables) (cs : List Construct) (t' : Tables) :
    Prop where
  wellFormed : ∀ c ∈ cs, c.WellFormed r m
  tables : t' = t.withUsed r cs
  fits : t'.Fits

section

variable {r : Resolution} {m : Machine}

/-- Nothing is accepted if the tables fit. -/
theorem accepted_nil {t : Tables} (ht : t.Fits) : Accepted r m t [] t :=
  ⟨by simp, rfl, ht⟩

/-- Parts are accepted one after the other. -/
theorem accepted_append_iff {t t' : Tables} {cs cs' : List Construct} :
    Accepted r m t (cs ++ cs') t' ↔
      ∃ between, Accepted r m t cs between ∧ Accepted r m between cs' t' := by
  constructor
  · rintro ⟨hall, rfl, hfits⟩
    rw [List.forall_mem_append] at hall
    rw [Tables.withUsed_append] at hfits
    exact ⟨t.withUsed r cs, ⟨hall.1, rfl, (Tables.within_withUsed _ r cs').fits hfits⟩,
      ⟨hall.2, Tables.withUsed_append .., Tables.withUsed_append t r cs cs' ▸ hfits⟩⟩
  · rintro ⟨_, ⟨hall, rfl, _⟩, ⟨hall', rfl, hfits⟩⟩
    exact ⟨List.forall_mem_append.2 ⟨hall, hall'⟩, (Tables.withUsed_append ..).symm, hfits⟩

/-- An expression that is accepted is well-formed. -/
theorem Accepted.term {t t' : Tables} {around : List (List Import)} {term : Term}
    (h : Accepted r m t (term.constructs around) t') : term.WellFormed r m around := by
  have hmem : .expression around term ∈ term.constructs around := by
    cases term <;> simp [Term.constructs]
  exact h.wellFormed _ hmem

/-- A literal is accepted when its constant is added. -/
theorem accepted_literal_iff {t t' : Tables} {around : List (List Import)} {term : Term}
    {c : Constant} {type : CType} (hc : term.constant? = some c)
    (htype : term.literalType? m = some type) :
    Accepted r m t (term.constructs around) t' ↔ t' = t.withConstant c ∧ t'.Fits := by
  have hused : t.withUsed r [.expression around term] = t.withConstant c := by
    simp [Tables.withUsed, Construct.constant?, Construct.callee?, hc, Term.callee?_literal hc, addAll,
      Tables.withConstant]
  rw [Term.constructs_literal hc]
  constructor
  · rintro ⟨_, rfl, hfits⟩
    exact ⟨hused, hfits⟩
  · rintro ⟨rfl, hfits⟩
    refine ⟨?_, hused.symm, hfits⟩
    intro construct hmem
    obtain rfl := List.mem_singleton.1 hmem
    exact Term.wellFormed_literal hc htype

/-- A literal that is accepted is loaded. -/
theorem Accepted.load {t t' : Tables} {around : List (List Import)} {term : Term} {c : Constant}
    {type : CType} (h : Accepted r m t (term.constructs around) t') (ht : t.Fits)
    (hc : term.constant? = some c) (htype : term.literalType? m = some type) :
    ∃ code, loadCode t c type = .ok (code, t') := by
  obtain ⟨htables, hfits⟩ := (accepted_literal_iff hc htype).1 h
  have hi := (Tables.internConstant_ok_iff ht).2 ⟨htables, hfits, rfl⟩
  exact ⟨_, except_map_eq_ok.2 ⟨_, hi, rfl⟩⟩

/-- A call is accepted when its function is added and then its arguments are accepted. -/
theorem accepted_call_iff {t t' : Tables} {around : List (List Import)} {name : String}
    {args : List Term} {f : Function} (hf : meaning? r around name = some f) :
    Accepted r m t (Term.constructs around (.call (.name name) args)) t' ↔
      Term.WellFormed r m around (.call (.name name) args) ∧
        Accepted r m (t.withFunction f) (argsConstructs around args) t' := by
  have hused : t.withUsed r (Term.constructs around (.call (.name name) args)) =
      (t.withFunction f).withUsed r (argsConstructs around args) := by
    simp [Term.constructs, Tables.withUsed, List.filterMap_cons, Construct.constant?,
      Construct.callee?, Term.constant?, Term.callee?, hf, addAll, Tables.withFunction]
  constructor
  · rintro ⟨hall, rfl, hfits⟩
    rw [Term.constructs, List.forall_mem_cons] at hall
    exact ⟨hall.1, hall.2, hused, hfits⟩
  · rintro ⟨hcall, hall, rfl, hfits⟩
    refine ⟨?_, hused.symm, hfits⟩
    rw [Term.constructs, List.forall_mem_cons]
    exact ⟨hcall, hall⟩

end

/-! ## Expressions -/

section Terms

variable {r : Resolution} {m : Machine} {scope : Scopes Function} {around : List (List Import)}

/-- Arguments that fit the places from `position` on. -/
def ArgumentsFit (r : Resolution) (m : Machine) (around : List (List Import)) (f : Function)
    (position : Nat) (args : List Term) : Prop :=
  ∀ i arg, args[i]? = some arg →
    ∃ found, arg.type? r m around = some found ∧ ArgumentFits m f (position + i) arg found

theorem argumentsFit_cons_iff {f : Function} {position : Nat} {arg : Term} {args : List Term} :
    ArgumentsFit r m around f position (arg :: args) ↔
      (∃ found, arg.type? r m around = some found ∧ ArgumentFits m f position arg found) ∧
        ArgumentsFit r m around f (position + 1) args := by
  constructor
  · intro h
    refine ⟨h 0 arg rfl, fun i a ha => ?_⟩
    rw [Nat.add_assoc, Nat.add_comm 1 i]
    exact h (i + 1) a ha
  · rintro ⟨hfirst, hrest⟩ i a ha
    cases i with
    | zero =>
      obtain rfl := Option.some.inj ha
      exact hfirst
    | succ i =>
      have hfits := hrest i a ha
      rwa [Nat.add_assoc, Nat.add_comm 1 i] at hfits

/-- What has been compiled is accepted, and its type is the one that the source tells. -/
theorem Term.accepted_of_compile (hscope : ScopeOf r around scope) :
    (∀ (term : Term) t code t', term.compile m scope t = .ok (code, t') → t.Fits →
      Accepted r m t (term.constructs around) t' ∧ code.result = term.type? r m around) ∧
    ∀ args f position t moves depth t',
      compileArgs m scope f position t args = .ok (moves, depth, t') → t.Fits →
        Accepted r m t (argsConstructs around args) t' ∧
          ArgumentsFit r m around f position args := by
  apply Term.compile_induction
    (T := fun t term code t' => t.Fits →
      Accepted r m t (term.constructs around) t' ∧ code.result = term.type? r m around)
    (A := fun f position t args _ _ t' => t.Fits →
      Accepted r m t (argsConstructs around args) t' ∧ ArgumentsFit r m around f position args)
  case literal =>
    intro t term c type i t' hc htype hi hfits
    obtain ⟨htables, hfits', _⟩ := (Tables.internConstant_ok_iff hfits).1 hi
    refine ⟨(accepted_literal_iff hc htype).2 ⟨htables, hfits'⟩, ?_⟩
    rw [Term.type?_literal hc, htype]
  case call =>
    intro t name args f index entered moves depth last t' hname harity hle hf _ ih hlast hfits
    rw [hscope name] at hname
    obtain ⟨rfl, hfits', _⟩ := (Tables.internFunction_ok_iff hfits).1 hf
    obtain ⟨haccepted, hargs⟩ := ih hfits'
    have hcall : Term.WellFormed r m around (.call (.name name) args) := by
      refine ⟨f, hname, checkArity_ok_iff.1 harity, hle, callInstruction_ok_iff.1 ⟨last, hlast⟩, ?_⟩
      simpa [ArgumentsFit] using hargs
    refine ⟨(accepted_call_iff hname).2 ⟨hcall, haccepted⟩, ?_⟩
    rw [Term.type?, hname, Option.bind_some]
  case nil =>
    intro f position t hfits
    exact ⟨accepted_nil hfits, fun i arg h => by simp at h⟩
  case cons =>
    intro f position t arg args code between found passed tag rest needed t' _ iharg hfound hpassed
      htag _ _ ihargs hfits
    obtain ⟨harg, htype⟩ := iharg hfits
    obtain ⟨hargs, hrest⟩ := ihargs harg.fits
    refine ⟨accepted_append_iff.2 ⟨between, harg, hargs⟩, argumentsFit_cons_iff.2 ⟨?_, hrest⟩⟩
    exact ⟨found, htype ▸ hfound, argumentFits_iff.2 ⟨passed, tag, hpassed, htag⟩⟩

mutual

/-- What is accepted can be compiled. -/
theorem Term.exists_compile (hscope : ScopeOf r around scope) :
    (term : Term) → {t t' : Tables} → t.Fits → Accepted r m t (term.constructs around) t' →
      ∃ code, term.compile m scope t = .ok (code, t')
  | .str raw, t, t', ht, h => by
    obtain ⟨s, hs⟩ := h.term
    have hc : (Term.str raw).constant? = some (.str s) := by
      simp [Term.constant?, hs, Except.toOption]
    rw [Term.compile_literal hc rfl]
    exact h.load ht hc rfl
  | .int text, t, t', ht, h => by
    obtain ⟨v, type, hv, htype⟩ := h.term
    have hc : (Term.int text).constant? = some (.int v) := by
      simp [Term.constant?, hv, Except.toOption]
    have hliteral : (Term.int text).literalType? m = some type := by
      simp [Term.literalType?, hv, htype, Except.toOption]
    rw [Term.compile_literal hc hliteral]
    exact h.load ht hc hliteral
  | .call (.name name) args, t, t', ht, h => by
    obtain ⟨f, hname, htakes, hle, hresult, hargs⟩ := h.term
    obtain ⟨_, hrest⟩ := (accepted_call_iff hname).1 h
    have hentered : (t.withFunction f).Fits :=
      (Tables.within_withUsed _ r _).fits (hrest.tables ▸ hrest.fits)
    have hfit : ArgumentsFit r m around f 0 args := by simpa [ArgumentsFit] using hargs
    obtain ⟨moves, depth, hmoves⟩ :=
      exists_compileArgs hscope f args hentered hrest hfit (by omega)
    obtain ⟨last, hlast⟩ := callInstruction_ok_iff.2 hresult
    exact ⟨_, Term.compile_call_ok_iff.2 ⟨f, _, _, moves, depth, last, (hscope name).trans hname,
      checkArity_ok_iff.2 htakes, hle, (Tables.internFunction_ok_iff ht).2 ⟨rfl, hentered, rfl⟩,
      hmoves, hlast, rfl⟩⟩
  | .name _, _, _, _, h | .other _ _, _, _, _, h | .call (.str _) _, _, _, _, h
  | .call (.int _) _, _, _, _, h | .call (.call _ _) _, _, _, _, h
  | .call (.other _ _) _, _, _, _, h => h.term.elim

/-- Arguments that are accepted can be compiled for places that they fit. -/
theorem exists_compileArgs (hscope : ScopeOf r around scope) (f : Function) :
    (args : List Term) → {position : Nat} → {t t' : Tables} → t.Fits →
      Accepted r m t (argsConstructs around args) t' → ArgumentsFit r m around f position args →
      position + args.length ≤ 255 →
      ∃ moves depth, compileArgs m scope f position t args = .ok (moves, depth, t')
  | [], position, t, t', _, h, _, _ => by
    obtain rfl : t' = t := h.tables
    exact ⟨[], 1, rfl⟩
  | arg :: args, position, t, t', ht, h, hfit, hle => by
    rw [List.length_cons] at hle
    obtain ⟨between, harg, hargs⟩ := accepted_append_iff.1 h
    obtain ⟨⟨found, htype, hfits⟩, hrest⟩ := argumentsFit_cons_iff.1 hfit
    obtain ⟨code, hcode⟩ := Term.exists_compile hscope arg ht harg
    obtain ⟨_, hresult⟩ := (Term.accepted_of_compile hscope).1 arg t code between hcode ht
    obtain ⟨passed, tag, hpassed, htag⟩ := argumentFits_iff.1 hfits
    have hmove : argumentInstruction m f position arg code =
        .ok (.argument (UInt8.ofNat position) tag) :=
      argumentInstruction_ok_iff.2
        ⟨found, passed, tag, hresult.trans htype, hpassed, htag, by omega, rfl⟩
    obtain ⟨rest, needed, hmoves⟩ := exists_compileArgs hscope f args harg.fits hargs hrest (by omega)
    exact ⟨_, _, compileArgs_cons_ok_iff.2
      ⟨code, between, _, rest, needed, hcode, hmove, hmoves, rfl, rfl⟩⟩

end

end Terms

/-! ## Statements -/

section Statements

variable {r : Resolution} {m : Machine}

/-- Imports are accepted when they resolve, and use nothing. -/
theorem accepted_imports_iff {t t' : Tables} {imports : List Import} {cs : List Construct} :
    Accepted r m t (.imports imports :: cs) t' ↔
      ImportsResolve r imports ∧ Accepted r m t cs t' := by
  constructor
  · rintro ⟨hall, htables, hfits⟩
    rw [List.forall_mem_cons] at hall
    exact ⟨hall.1, hall.2, htables, hfits⟩
  · rintro ⟨himports, hall, htables, hfits⟩
    exact ⟨List.forall_mem_cons.2 ⟨himports, hall⟩, htables, hfits⟩

/-- Statements that have been compiled are accepted. -/
theorem Statement.accepted_of_compile :
    (∀ (s : Statement) scope t code t',
      outcome (s.compile r.resolver m scope t) = .ok (code, t') →
        ∀ around, ScopeOf r around scope → t.Fits → Accepted r m t (s.constructs around) t') ∧
    ∀ body scope t code t',
      outcome (compileBody r.resolver m scope t body) = .ok (code, t') →
        ∀ around, ScopeOf r around scope → t.Fits →
          Accepted r m t (bodyConstructs around body) t' := by
  apply Statement.compile_induction
    (S := fun scope t s _ t' => ∀ around, ScopeOf r around scope → t.Fits →
      Accepted r m t (s.constructs around) t')
    (B := fun scope t body _ t' => ∀ around, ScopeOf r around scope → t.Fits →
      Accepted r m t (bodyConstructs around body) t')
  case expr =>
    intro scope t term code t' h around hscope ht
    exact ((Term.accepted_of_compile hscope).1 term t code t' h ht).1
  case block =>
    intro scope t imports body inner code t' hinner ih around hscope ht
    exact accepted_imports_iff.2 ⟨bindImports_ok_iff.1 ⟨inner, hinner⟩,
      ih (imports :: around) (hscope.push.bindImports hinner) ht⟩
  case nil => exact fun _ t _ _ ht => accepted_nil ht
  case cons =>
    intro scope t s body first between rest t' _ ihs _ ihbody around hscope ht
    have hs := ihs around hscope ht
    exact accepted_append_iff.2 ⟨between, hs, ihbody around hscope hs.fits⟩

mutual

/-- A statement that is accepted can be compiled. -/
theorem Statement.exists_compile :
    (s : Statement) → {around : List (List Import)} → {scope : Scopes Function} → {t t' : Tables} →
      ScopeOf r around scope → t.Fits → Accepted r m t (s.constructs around) t' →
      ∃ code, outcome (s.compile r.resolver m scope t) = .ok (code, t')
  | .expr term, around, scope, t, t', hscope, ht, h => by
    obtain ⟨code, hcode⟩ := Term.exists_compile hscope term ht h
    refine ⟨code.discarded, ?_⟩
    rw [Statement.compile, outcome_bind]
    exact ⟨(code, t'), hcode, rfl⟩
  | .block imports body, around, scope, t, t', hscope, ht, h => by
    obtain ⟨himports, hbody⟩ := accepted_imports_iff.1 h
    obtain ⟨inner, hinner⟩ := bindImports_ok_iff.2 himports
    obtain ⟨code, hcode⟩ := exists_compileBody body (hscope.push.bindImports hinner) ht hbody
    refine ⟨code, ?_⟩
    rw [Statement.compile, outcome_bind]
    exact ⟨inner, hinner, hcode⟩
  | .other _ _, _, _, _, _, _, _, h => (h.wellFormed _ (List.mem_singleton_self _)).elim

/-- Statements that are accepted can be compiled in a row. -/
theorem exists_compileBody :
    (body : List Statement) → {around : List (List Import)} → {scope : Scopes Function} →
      {t t' : Tables} → ScopeOf r around scope → t.Fits →
      Accepted r m t (bodyConstructs around body) t' →
      ∃ code, outcome (compileBody r.resolver m scope t body) = .ok (code, t')
  | [], around, scope, t, t', _, _, h => by
    obtain rfl : t' = t := h.tables
    exact ⟨⟨none, [], 0⟩, rfl⟩
  | s :: body, around, scope, t, t', hscope, ht, h => by
    obtain ⟨between, hs, hbody⟩ := accepted_append_iff.1 h
    obtain ⟨first, hfirst⟩ := Statement.exists_compile s hscope ht hs
    obtain ⟨rest, hrest⟩ := exists_compileBody body hscope hs.fits hbody
    exact ⟨_, compileBody_cons_ok_iff.2 ⟨first, between, rest, hfirst, hrest, rfl⟩⟩

end

end Statements

/-! ## Programs -/

/-- The tables with what a program uses fit when it uses few enough different things. -/
theorem fits_withUsed_iff {r : Resolution} {cs : List Construct} :
    (Tables.empty.withUsed r cs).Fits ↔
      (cs.filterMap Construct.constant?).toFinset.card ≤ 256 ∧
        ((cs.filterMap (Construct.callee? r)).map Function.key).toFinset.card ≤ 256 := by
  unfold Tables.Fits Tables.withUsed Tables.empty tableLimit
  rw [length_addAll_nil, length_addAll_nil, List.map_id]

/-- **The compiler accepts exactly the well-formed programs.** -/
theorem bytecode_ok_iff_wellFormed {r : Resolution} {m : Machine} {p : Program} :
    (∃ b, p.bytecode r m = .ok b) ↔ p.WellFormed r m := by
  constructor
  · rintro ⟨b, h⟩
    obtain ⟨scope, code, t, hscope, hbody, rfl⟩ := Program.bytecode_ok_iff.1 h
    have haccepted := Statement.accepted_of_compile.2 p.body scope .empty code t hbody [p.imports]
      ((ScopeOf.empty r).bindImports hscope) (Tables.sound_empty r.Gives).fits
    obtain ⟨hall, rfl, hfits⟩ :=
      accepted_imports_iff.2 ⟨bindImports_ok_iff.1 ⟨scope, hscope⟩, haccepted⟩
    obtain ⟨hconstants, hfunctions⟩ := fits_withUsed_iff.1 hfits
    exact ⟨hall, hconstants, hfunctions⟩
  · rintro ⟨hall, hconstants, hfunctions⟩
    have haccepted : Accepted r m .empty p.constructs (Tables.empty.withUsed r p.constructs) :=
      ⟨hall, rfl, fits_withUsed_iff.2 ⟨hconstants, hfunctions⟩⟩
    obtain ⟨himports, hbody⟩ := accepted_imports_iff.1 haccepted
    obtain ⟨scope, hscope⟩ := bindImports_ok_iff.2 himports
    obtain ⟨code, hcode⟩ := exists_compileBody p.body ((ScopeOf.empty r).bindImports hscope)
      (Tables.sound_empty r.Gives).fits hbody
    exact ⟨_, Program.bytecode_ok_iff.2 ⟨scope, code, _, hscope, hcode, rfl⟩⟩

end ForeignCall
