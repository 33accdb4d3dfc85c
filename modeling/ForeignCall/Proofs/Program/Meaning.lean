import ForeignCall.Bytecode.Compiler
import ForeignCall.Proofs.Results

/-!
# ForeignCall.Proofs.Program.Meaning

What a name of a program means, told without scopes: the last import of the name in the innermost
block around it that imports the name at all. The scopes of the compiler agree with that.

* `meaning?` — what a name means between the imports of the blocks around it;
* `lookup_bindImports` — what binding the imports of a block does to a scope;
* `bindImports_ok_iff` — it succeeds exactly when every import resolves;
* `ScopeOf.bindImports` — the scope inside a block tells what names mean there.
-/

namespace ForeignCall

/-! ## Resolving without effects -/

/-- A way to resolve imports that depends on nothing but the header and the name. -/
abbrev Resolution := String → String → Except ResolveError Function

namespace Resolution

/-- The resolution as one without effects. -/
def resolver (r : Resolution) : Resolver Id := fun header name => pure (r header name)

/-- Every declaration carries the header and the name that it has been asked for by. -/
def Faithful (r : Resolution) : Prop :=
  ∀ header name f, r header name = .ok f → f.key = (header, name)

/-- The resolution that knows the given functions, the first one of each header and name. -/
def ofFunctions (functions : List Function) : Resolution := fun header name =>
  match functions.find? (·.key = (header, name)) with
  | some f => .ok f
  | none => .error (.notFound header name)

theorem faithful_ofFunctions (functions : List Function) : (ofFunctions functions).Faithful := by
  intro header name f h
  unfold ofFunctions at h
  cases hfind : functions.find? (·.key = (header, name)) with
  | none => simp [hfind] at h
  | some g =>
    obtain rfl : g = f := by simpa [hfind] using h
    simpa using List.find?_some hfind

/-- A declaration that the resolution gives for its own header and name. -/
def Gives (r : Resolution) (f : Function) : Prop := r f.header f.name = .ok f

/-- Declarations with one key are equal. -/
theorem Gives.eq {r : Resolution} {f g : Function} (hf : r.Gives f) (hg : r.Gives g)
    (h : f.key = g.key) : f = g := by
  obtain ⟨hheader, hname⟩ := Prod.mk.inj h
  unfold Gives at hf
  rw [hheader, hname, hg] at hf
  exact (Except.ok.inj hf).symm

/-- What a faithful resolution finds, it gives. -/
theorem Faithful.gives {r : Resolution} (hr : r.Faithful) {header name : String} {f : Function}
    (h : r header name = .ok f) : r.Gives f := by
  obtain ⟨hheader, hname⟩ := Prod.mk.inj (hr header name f h)
  rw [Gives, hheader, hname]
  exact h

end Resolution

/-- The bytecode of a program whose imports are resolved without effects. -/
def Program.bytecode (p : Program) (r : Resolution) (m : Machine) : Except CompileError Bytecode :=
  outcome (p.compile r.resolver m)

@[simp] theorem outcome_withoutEffects {α : Type} (x : Except CompileError α) :
    outcome (withoutEffects x) = x := rfl

@[simp] theorem outcome_resolveName {r : Resolution} {header name : String} {f : Function} :
    outcome (resolveName r.resolver header name) = .ok f ↔ r header name = .ok f := by
  unfold outcome resolveName Resolution.resolver
  cases r header name <;> simp

/-! ## The meaning of a name -/

/-- The names that imports bind in order, each with the header that it is taken from. -/
def importedNames (imports : List Import) : List (String × String) :=
  imports.flatMap fun i => i.names.map fun name => (name, i.header)

/-- The header of the last import of a name. -/
def lastHeader? (imports : List Import) (name : String) : Option String :=
  (importedNames imports).reverse.lookup name

/-- The header that a name is taken from; the imports of the innermost block come first. -/
def headerOf? (around : List (List Import)) (name : String) : Option String :=
  around.findSome? fun imports => lastHeader? imports name

/-- What a name means. -/
def meaning? (r : Resolution) (around : List (List Import)) (name : String) : Option Function :=
  (headerOf? around name).bind fun header => (r header name).toOption

/-- Every name of the imports can be resolved. -/
def ImportsResolve (r : Resolution) (imports : List Import) : Prop :=
  ∀ i ∈ imports, ∀ name ∈ i.names, ∃ f, r i.header name = .ok f

/-- A name that has a meaning is a declaration of the header that it is taken from. -/
theorem exists_resolve_of_meaning? {r : Resolution} {around : List (List Import)} {name : String}
    {f : Function} (h : meaning? r around name = some f) :
    ∃ header, headerOf? around name = some header ∧ r header name = .ok f := by
  obtain ⟨header, hheader, hf⟩ := Option.bind_eq_some_iff.1 h
  refine ⟨header, hheader, ?_⟩
  cases hr : r header name with
  | error e => simp [hr, Except.toOption] at hf
  | ok g => simpa [hr, Except.toOption] using hf

/-- What a name means is given by a faithful resolution. -/
theorem Resolution.Faithful.gives_of_meaning? {r : Resolution} (hr : r.Faithful)
    {around : List (List Import)} {name : String} {f : Function}
    (h : meaning? r around name = some f) : r.Gives f := by
  obtain ⟨header, _, hf⟩ := exists_resolve_of_meaning? h
  exact hr.gives hf

/-- Looking a name up among the names of one header, the last one first. -/
theorem lookup_reverse_map (names : List String) (header key : String) :
    (names.map fun name => (name, header)).reverse.lookup key =
      if key ∈ names then some header else none := by
  induction names with
  | nil => simp
  | cons name names ih =>
    rw [List.map_cons, List.reverse_cons, List.lookup_append, ih]
    by_cases hmem : key ∈ names
    · simp [hmem]
    · by_cases hkey : key = name
      · subst hkey
        simp [hmem]
      · simp [hmem, hkey, List.lookup_cons, beq_eq_false_iff_ne.2 hkey]

@[simp] theorem lastHeader?_nil (key : String) : lastHeader? [] key = none := rfl

/-- Of two imports of a name the later counts. -/
theorem lastHeader?_cons (i : Import) (imports : List Import) (key : String) :
    lastHeader? (i :: imports) key =
      (lastHeader? imports key).or (if key ∈ i.names then some i.header else none) := by
  unfold lastHeader? importedNames
  rw [List.flatMap_cons, List.reverse_append, List.lookup_append, lookup_reverse_map]

/-- What a name means inside a block: what imports of the block say, or what it means outside. -/
theorem meaning?_cons (r : Resolution) (imports : List Import) (around : List (List Import))
    (key : String) :
    meaning? r (imports :: around) key =
      match lastHeader? imports key with
      | some header => (r header key).toOption
      | none => meaning? r around key := by
  unfold meaning? headerOf?
  rw [List.findSome?_cons]
  cases lastHeader? imports key <;> rfl

/-! ## Scopes -/

/-- What binding the names of one header does to a scope. -/
theorem lookup_bindNames {r : Resolution} {header : String} {names : List String}
    {scope scope' : Scopes Function}
    (h : outcome (bindNames r.resolver header scope names) = .ok scope') (key : String) :
    scope'.lookup key =
      if key ∈ names then (r header key).toOption else scope.lookup key := by
  induction names generalizing scope with
  | nil =>
    obtain rfl : scope = scope' := by simpa [bindNames] using h
    simp
  | cons name names ih =>
    simp only [bindNames, outcome_bind, outcome_resolveName] at h
    obtain ⟨f, hf, hrest⟩ := h
    rw [ih hrest, Scopes.lookup_define]
    by_cases hkey : key = name
    · simp [hkey, hf, Except.toOption]
    · simp [hkey]

/-- What binding imports does to a scope. -/
theorem lookup_bindImports {r : Resolution} {imports : List Import} {scope scope' : Scopes Function}
    (h : outcome (bindImports r.resolver scope imports) = .ok scope') (key : String) :
    scope'.lookup key =
      match lastHeader? imports key with
      | some header => (r header key).toOption
      | none => scope.lookup key := by
  induction imports generalizing scope with
  | nil =>
    obtain rfl : scope = scope' := by simpa [bindImports] using h
    simp
  | cons i imports ih =>
    simp only [bindImports, outcome_bind] at h
    obtain ⟨inner, hnames, hrest⟩ := h
    rw [ih hrest, lookup_bindNames hnames, lastHeader?_cons]
    cases lastHeader? imports key with
    | some header => simp
    | none => by_cases hkey : key ∈ i.names <;> simp [hkey]

/-- Binding the names of one header succeeds exactly when each of them resolves. -/
theorem bindNames_ok_iff {r : Resolution} {header : String} {names : List String}
    {scope : Scopes Function} :
    (∃ scope', outcome (bindNames r.resolver header scope names) = .ok scope') ↔
      ∀ name ∈ names, ∃ f, r header name = .ok f := by
  induction names generalizing scope with
  | nil => simp [bindNames]
  | cons name names ih =>
    simp only [bindNames, outcome_bind, outcome_resolveName, List.forall_mem_cons]
    constructor
    · rintro ⟨scope', f, hf, hrest⟩
      exact ⟨⟨f, hf⟩, ih.1 ⟨scope', hrest⟩⟩
    · rintro ⟨⟨f, hf⟩, hnames⟩
      obtain ⟨scope', hrest⟩ := ih.2 hnames
      exact ⟨scope', f, hf, hrest⟩

/-- Binding imports succeeds exactly when each of their names resolves. -/
theorem bindImports_ok_iff {r : Resolution} {imports : List Import} {scope : Scopes Function} :
    (∃ scope', outcome (bindImports r.resolver scope imports) = .ok scope') ↔
      ImportsResolve r imports := by
  unfold ImportsResolve
  induction imports generalizing scope with
  | nil => simp [bindImports]
  | cons i imports ih =>
    simp only [bindImports, outcome_bind, List.forall_mem_cons]
    constructor
    · rintro ⟨scope', inner, hnames, hrest⟩
      exact ⟨bindNames_ok_iff.1 ⟨inner, hnames⟩, ih.1 ⟨scope', hrest⟩⟩
    · rintro ⟨hnames, himports⟩
      obtain ⟨inner, hinner⟩ := bindNames_ok_iff.2 hnames
      obtain ⟨scope', hrest⟩ := ih.2 himports
      exact ⟨scope', inner, hinner, hrest⟩

/-- A scope that tells what every name means. -/
def ScopeOf (r : Resolution) (around : List (List Import)) (scope : Scopes Function) : Prop :=
  ∀ name, scope.lookup name = meaning? r around name

/-- Outside of all blocks no name means anything. -/
theorem ScopeOf.empty (r : Resolution) : ScopeOf r [] .empty := fun _ => rfl

/-- Entering a scope keeps what names mean. -/
theorem ScopeOf.push {r : Resolution} {around : List (List Import)} {scope : Scopes Function}
    (h : ScopeOf r around scope) : ScopeOf r around scope.push := fun name => by
  rw [Scopes.lookup_push, h name]

/-- The scope with the imports of a block tells what names mean inside the block. -/
theorem ScopeOf.bindImports {r : Resolution} {around : List (List Import)} {imports : List Import}
    {scope scope' : Scopes Function} (hscope : ScopeOf r around scope)
    (h : outcome (ForeignCall.bindImports r.resolver scope imports) = .ok scope') :
    ScopeOf r (imports :: around) scope' := fun name => by
  rw [lookup_bindImports h, meaning?_cons, hscope name]

end ForeignCall
