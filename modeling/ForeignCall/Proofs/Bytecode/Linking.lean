import ForeignCall.Proofs.Bytecode.Derivation

/-!
# ForeignCall.Proofs.Bytecode.Linking

Code together with the tables of the whole program. The indexes in the code are right in the tables
that the compilation of the code ends with, and stay right while later code adds to them. Under a
faithful resolution the function at an index is the one that the name in the source means.

* `Term.linked_induction` — for expressions and arguments;
* `Statement.linked_induction` — for statements and blocks;
* `Program.linked_induction` — for programs.
-/

namespace ForeignCall

variable {r : Resolution} {m : Machine}

/-- **Induction over linked code** of an expression, and of arguments. -/
theorem Term.linked_induction {scope : Scopes Function} (T : Tables)
    (hgives : ∀ name f, scope.lookup name = some f → r.Gives f)
    {C : Term → Code → Prop} {A : Nat → List Term → List Instruction → Nat → Prop}
    (literal : ∀ term c type i, term.constant? = some c → T.constants[i.toNat]? = some c →
      C term ⟨some type, [.loadConstant i], 1⟩)
    (call : ∀ name args f index moves depth last, scope.lookup name = some f →
      args.length ≤ 255 → T.functions[index.toNat]? = some f → A 0 args moves depth →
      last.Ends f args.length →
      C (.call (.name name) args)
        ⟨f.result, .startCall index (UInt8.ofNat args.length) :: moves ++ [last], depth⟩)
    (nil : ∀ position, A position [] [] 1)
    (cons : ∀ position arg args code found tag rest needed, C arg code →
      code.result = some found → position ≤ 255 → A (position + 1) args rest needed →
      A position (arg :: args)
        (code.instructions ++ .argument (UInt8.ofNat position) tag :: rest)
        (max (1 + code.depth) needed)) :
    (∀ term t code t', term.compile m scope t = .ok (code, t') → t.Sound r.Gives → t'.Within T →
      C term code) ∧
    ∀ args f position t moves depth t',
      compileArgs m scope f position t args = .ok (moves, depth, t') → t.Sound r.Gives →
        t'.Within T → A position args moves depth := by
  apply Term.compile_induction
    (T := fun t term code t' => t.Sound r.Gives → t'.Within T → C term code)
    (A := fun _ position t args moves depth t' => t.Sound r.Gives → t'.Within T →
      A position args moves depth)
  case literal =>
    intro t term c type i t' hc _ hi hsound hT
    exact literal term c type i hc (Tables.getElem?_of_internConstant hi hsound.fits hT)
  case call =>
    intro t name args f index entered moves depth last t' hname harity hle hf hargs ih hlast
      hsound hT
    obtain ⟨_, hentered⟩ := Tables.growsTo_of_internFunction hf (hgives name f hname) hsound
    obtain ⟨hwithin, _⟩ := (Term.compile_growsTo hgives).2 _ _ _ _ _ _ _ hargs hentered
    obtain ⟨g, hg, hindex, hkey⟩ :=
      Tables.getElem?_of_internFunction hf hsound.fits (hwithin.trans hT)
    -- the table may hold an older declaration with the key, but a key has one declaration only
    obtain rfl : g = f := (hentered.functions g hg).eq (hgives name f hname) hkey
    have hfixed : g.arity ≤ 255 := (checkArity_ok_iff.1 harity).1.trans hle
    have hends := callInstruction_ends hlast
      (by rw [UInt8.toNat_ofNat', Nat.mod_eq_of_lt (by omega)])
    rw [UInt8.toNat_ofNat', Nat.mod_eq_of_lt (by omega)] at hends
    exact call name args g index moves depth last hname hle hindex (ih hentered hT) hends
  case nil => exact fun _ position _ _ _ => nil position
  case cons =>
    intro f position t arg args code between found passed tag rest needed t' harg iharg hfound _ _
      hle hrest ihrest hsound hT
    obtain ⟨_, hbetween⟩ := (Term.compile_growsTo hgives).1 _ _ _ _ harg hsound
    obtain ⟨hwithin, _⟩ := (Term.compile_growsTo hgives).2 _ _ _ _ _ _ _ hrest hbetween
    exact cons position arg args code found tag rest needed (iharg hsound (hwithin.trans hT))
      hfound hle (ihrest hbetween hT)

/-- What a scope binds is given by a faithful resolution. -/
theorem ScopeOf.gives {around : List (List Import)} {scope : Scopes Function}
    (hscope : ScopeOf r around scope) (hr : r.Faithful) (name : String) (f : Function)
    (h : scope.lookup name = some f) : r.Gives f :=
  hr.gives_of_meaning? (hscope name ▸ h)

/-- **Induction over linked code** of a statement, and of statements in a row. -/
theorem Statement.linked_induction (hr : r.Faithful) (T : Tables)
    {S : List (List Import) → Statement → Code → Prop}
    {B : List (List Import) → List Statement → Code → Prop}
    (expr : ∀ around scope t term code t', ScopeOf r around scope →
      term.compile m scope t = .ok (code, t') → t.Sound r.Gives → t'.Within T →
      S around (.expr term) code.discarded)
    (block : ∀ around imports body code, B (imports :: around) body code →
      S around (.block imports body) code)
    (nil : ∀ around, B around [] ⟨none, [], 0⟩)
    (cons : ∀ around s body first rest, S around s first → B around body rest →
      B around (s :: body)
        ⟨none, first.instructions ++ rest.instructions, max first.depth rest.depth⟩) :
    (∀ s scope t code t', outcome (s.compile r.resolver m scope t) = .ok (code, t') →
      ∀ around, ScopeOf r around scope → t.Sound r.Gives → t'.Within T → S around s code) ∧
    ∀ body scope t code t', outcome (compileBody r.resolver m scope t body) = .ok (code, t') →
      ∀ around, ScopeOf r around scope → t.Sound r.Gives → t'.Within T → B around body code := by
  apply Statement.compile_induction
    (S := fun scope t s code t' => ∀ around, ScopeOf r around scope → t.Sound r.Gives →
      t'.Within T → S around s code)
    (B := fun scope t body code t' => ∀ around, ScopeOf r around scope → t.Sound r.Gives →
      t'.Within T → B around body code)
  case expr =>
    intro scope t term code t' h around hscope hsound hT
    exact expr around scope t term code t' hscope h hsound hT
  case block =>
    intro scope t imports body inner code t' hinner ih around hscope hsound hT
    exact block around imports body code
      (ih (imports :: around) (hscope.push.bindImports hinner) hsound hT)
  case nil => exact fun _ _ around _ _ _ => nil around
  case cons =>
    intro scope t s body first between rest t' hfirst ihs hrest ihbody around hscope hsound hT
    have hresolved : ∀ header name f, r header name = .ok f → r.Gives f := fun _ _ _ h => hr.gives h
    obtain ⟨_, hbetween⟩ :=
      (Statement.compile_growsTo hresolved).1 _ _ _ _ _ hfirst (hscope.gives hr) hsound
    obtain ⟨hwithin, _⟩ :=
      (Statement.compile_growsTo hresolved).2 _ _ _ _ _ hrest (hscope.gives hr) hbetween
    exact cons around s body first rest (ihs around hscope hsound (hwithin.trans hT))
      (ihbody around hscope hbetween hT)

/-- The tables of the bytecode. -/
def Bytecode.tables (b : Bytecode) : Tables := ⟨b.constants, b.functions⟩

/-- **Induction over linked code** of a program. -/
theorem Program.linked_induction (hr : r.Faithful) {p : Program} {b : Bytecode}
    (h : p.bytecode r m = .ok b) {S : List (List Import) → Statement → Code → Prop}
    {B : List (List Import) → List Statement → Code → Prop}
    (expr : ∀ around scope t term code t', ScopeOf r around scope →
      term.compile m scope t = .ok (code, t') → t.Sound r.Gives → t'.Within b.tables →
      S around (.expr term) code.discarded)
    (block : ∀ around imports body code, B (imports :: around) body code →
      S around (.block imports body) code)
    (nil : ∀ around, B around [] ⟨none, [], 0⟩)
    (cons : ∀ around s body first rest, S around s first → B around body rest →
      B around (s :: body)
        ⟨none, first.instructions ++ rest.instructions, max first.depth rest.depth⟩) :
    ∃ code, B [p.imports] p.body code ∧ b.instructions = code.instructions ∧
      b.maxStack = code.depth := by
  obtain ⟨scope, code, t, hscope, hbody, rfl⟩ := Program.bytecode_ok_iff.1 h
  have hmeaning : ScopeOf r [p.imports] scope := (ScopeOf.empty r).bindImports hscope
  exact ⟨code, (Statement.linked_induction hr t expr block nil cons).2 p.body scope .empty code t
    hbody [p.imports] hmeaning (Tables.sound_empty r.Gives) (.refl t), rfl, rfl⟩

end ForeignCall
