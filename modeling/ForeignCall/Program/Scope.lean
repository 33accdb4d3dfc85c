/-!
# ForeignCall.Program.Scope

The names that are bound at a place of a program. Scopes are nested: a name means its last binding
in the innermost scope that binds it. The outermost scope is never left.
-/

namespace ForeignCall

/-- Nested scopes; in each the last binding comes first. -/
structure Scopes (α : Type) where
  inner : List (String × α)
  outer : List (List (String × α))

namespace Scopes

variable {α : Type}

/-- The outermost scope alone, without bindings. -/
def empty : Scopes α := ⟨[], []⟩

/-- How many scopes are nested. -/
def depth (s : Scopes α) : Nat := s.outer.length + 1

/-- Enters a scope. -/
def push (s : Scopes α) : Scopes α := ⟨[], s.inner :: s.outer⟩

/-- Leaves the innermost scope, unless it is the outermost too. -/
def pop (s : Scopes α) : Scopes α :=
  match s.outer with
  | [] => s
  | scope :: rest => ⟨scope, rest⟩

/-- Binds a name in the innermost scope. -/
def define (s : Scopes α) (name : String) (value : α) : Scopes α :=
  ⟨(name, value) :: s.inner, s.outer⟩

/-- What a name means. -/
def lookup (s : Scopes α) (name : String) : Option α :=
  (s.inner :: s.outer).findSome? fun scope => scope.lookup name

/-! ## Laws -/

/-- Entering and leaving a scope changes nothing. -/
@[simp] theorem pop_push (s : Scopes α) : s.push.pop = s := rfl

/-- Entering a scope keeps the meaning of every name. -/
@[simp] theorem lookup_push (s : Scopes α) (name : String) :
    s.push.lookup name = s.lookup name := by
  simp [lookup, push, List.findSome?_cons]

/-- A name means what it has been bound to last. -/
theorem lookup_define (s : Scopes α) (name key : String) (value : α) :
    (s.define name value).lookup key = if key = name then some value else s.lookup key := by
  by_cases h : key = name
  · simp [lookup, define, h]
  · simp [lookup, define, List.findSome?_cons, List.lookup_cons, h, beq_eq_false_iff_ne.2 h]

end Scopes

end ForeignCall
