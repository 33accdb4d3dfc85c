import ForeignCall.Header.Namespaces

/-!
# ForeignCall.Header.Builder

A header while its declarations are being collected.

A tag is declared before it is defined: a declaration leaves a placeholder, which a definition
replaces. A definition is final, and another one with the same tag has to be the same.

* `Builder.declare`, `Builder.define`, `Builder.defineEnum` — the tagged types;
* `Builder.get?_declare`, `Builder.get?_define` — what they do to the entry of a tag.
-/

namespace ForeignCall

/-- Two different definitions of one tag. -/
structure Conflict where
  keyword : String
  name : String
  existing : CType
  redefinition : CType
deriving DecidableEq

/-- The text of the conflict. -/
def Conflict.message (c : Conflict) : String :=
  "conflicting definitions of '" ++ c.keyword ++ " " ++ c.name ++ "'"

/-- A header whose declarations are being collected, with the enumerators seen so far. -/
structure Builder where
  name : String
  spaces : Namespaces := {}
  enumerators : Namespace EnumValue := .empty
deriving DecidableEq

namespace Builder

instance : Inhabited Builder := ⟨⟨"", {}, .empty⟩⟩

/-- Adds a macro; a later one with the same name replaces it. -/
def addMacro (b : Builder) (d : Macro) : Builder :=
  { b with spaces := { b.spaces with macros := b.spaces.macros.insert d.name d } }

/-- Adds macros in order. -/
def addMacros (b : Builder) (ds : List Macro) : Builder := ds.foldl addMacro b

/-- Adds a function. -/
def addFunction (b : Builder) (name : String) (t : CType) : Builder :=
  { b with spaces := { b.spaces with functions := b.spaces.functions.insert name t } }

/-- Adds a variable. -/
def addVariable (b : Builder) (name : String) (t : CType) : Builder :=
  { b with spaces := { b.spaces with globals := b.spaces.globals.insert name t } }

/-- Adds a typedef. -/
def addTypedef (b : Builder) (name : String) (t : CType) : Builder :=
  { b with spaces := { b.spaces with types := b.spaces.types.insert name t } }

/-- The type of a typedef. -/
def typedef? (b : Builder) (name : String) : Option CType := b.spaces.types.get? name

/-- The entry of a struct or union: its definition or its placeholder. -/
def aggregate? (b : Builder) (kind : TagKind) (name : String) : Option CType :=
  (b.spaces.aggregates kind).get? name

/-- The type of an enum by its tag. -/
def enum? (b : Builder) (name : String) : Option CType := b.spaces.enums.get? name

/-- Sets the entry of a struct or union. -/
def setAggregate (b : Builder) (kind : TagKind) (name : String) (t : CType) : Builder :=
  { b with spaces := b.spaces.withAggregates kind ((b.spaces.aggregates kind).insert name t) }

/-- Declares a struct or union; an entry that is there stays. -/
def declare (b : Builder) (kind : TagKind) (name : String) : Builder :=
  match b.aggregate? kind name with
  | some _ => b
  | none => b.setAggregate kind name (.placeholder kind name)

/-- Whether an entry leaves the tag open for a definition. -/
def isOpen : Option CType → Bool
  | none | some (.placeholder ..) => true
  | some _ => false

/-- Defines a struct or union whose tag is open. Any other entry has to be equal already. -/
def define (b : Builder) (kind : TagKind) (name : String) (t : CType) : Except Conflict Builder :=
  match b.aggregate? kind name with
  | none | some (.placeholder ..) => .ok (b.setAggregate kind name t)
  | some existing => if existing = t then .ok b else .error ⟨kind.keyword, name, existing, t⟩

/-- Defines an enum, or checks that it is defined like this already. -/
def defineEnum (b : Builder) (key : String) (t : CType) : Except Conflict Builder :=
  match b.enum? key with
  | none => .ok { b with spaces := { b.spaces with enums := b.spaces.enums.insert key t } }
  | some existing => if existing = t then .ok b else .error ⟨"enum", key, existing, t⟩

/-- Makes an enumerator known. -/
def addEnumerator (b : Builder) (name : String) (value : Int64) (owner : Option String) : Builder :=
  { b with enumerators := b.enumerators.insert name ⟨value, owner⟩ }

/-- The value of an enumerator that has been seen. -/
def enumerator? (b : Builder) (name : String) : Option Int64 :=
  (b.enumerators.get? name).map (·.value)

/-- The completion of a type by the definitions seen so far. -/
def complete (b : Builder) (t : CType) : CType := b.spaces.complete t

/-! ## Laws -/

/-- Setting the entry of a tag changes that entry only. -/
theorem get?_setAggregate (b : Builder) (kind kind' : TagKind) (name name' : String) (t : CType) :
    (b.setAggregate kind name t).aggregate? kind' name' =
      if kind' = kind ∧ name' = name then some t else b.aggregate? kind' name' := by
  cases kind <;> cases kind' <;>
    simp [setAggregate, aggregate?, Namespaces.withAggregates, Namespaces.aggregates,
      Namespace.get?_insert]

/-- A declaration leaves a placeholder where there was no entry. -/
theorem get?_declare (b : Builder) (kind kind' : TagKind) (name name' : String) :
    (b.declare kind name).aggregate? kind' name' =
      if kind' = kind ∧ name' = name then
        some ((b.aggregate? kind name).getD (.placeholder kind name))
      else b.aggregate? kind' name' := by
  unfold declare
  split
  · next h =>
    split
    · next e => obtain ⟨rfl, rfl⟩ := e; simp [h]
    · rfl
  · next h => simp [get?_setAggregate, h]

/-- A definition that is accepted becomes the entry of its tag. -/
theorem get?_define {b b' : Builder} {kind : TagKind} {name : String} {t : CType}
    (h : b.define kind name t = .ok b') (kind' : TagKind) (name' : String) :
    b'.aggregate? kind' name' =
      if kind' = kind ∧ name' = name then some t else b.aggregate? kind' name' := by
  unfold define at h
  split at h
  · obtain rfl := Except.ok.inj h; exact get?_setAggregate ..
  · obtain rfl := Except.ok.inj h; exact get?_setAggregate ..
  · next existing _ hx =>
    split at h
    · next e =>
      obtain rfl := Except.ok.inj h
      split
      · next e' => obtain ⟨rfl, rfl⟩ := e'; rw [hx, e]
      · rfl
    · cases h

end Builder

end ForeignCall
