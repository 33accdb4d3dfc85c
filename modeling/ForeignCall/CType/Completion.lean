import ForeignCall.CType.Basic

/-!
# ForeignCall.CType.Completion

Completion of types: a struct or union that is only known by its tag is replaced by its definition
wherever it stands by value. What stands behind a pointer or in the signature of a function stays as
it is, so a struct that points to itself has a completion.

A definition is completed in turn. A tag that is being completed already is not replaced again, and
every tag that is replaced has an entry in the store; so the nesting is bounded by the number of
entries.

* `CType.substitute` — replaces the placeholders that stand by value;
* `CType.complete` — the completion over a store of definitions.
-/

namespace ForeignCall

/-- The kind and the name of a struct or union. -/
structure Tag where
  kind : TagKind
  name : String
deriving DecidableEq, Repr

/-- The definitions of structs and unions; the first entry of a tag counts. -/
abbrev Definitions := List (Tag × CType)

/-- The definition of a tag. -/
def Definitions.get? (defs : Definitions) (tag : Tag) : Option CType := defs.lookup tag

namespace CType

mutual

/-- Replaces every placeholder that stands by value. -/
def substitute (resolve : Tag → CType) : CType → CType
  | .placeholder kind name => resolve ⟨kind, name⟩
  | .array base dim => .array (substitute resolve base) dim
  | .aggregate kind tag members => .aggregate kind tag (substituteMembers resolve members)
  | t => t

/-- Replaces the placeholders in the types of members. -/
def substituteMembers (resolve : Tag → CType) : List (Member CType) → List (Member CType)
  | [] => []
  | ⟨name, t⟩ :: ms => ⟨name, substitute resolve t⟩ :: substituteMembers resolve ms

end

/-- The completion of a placeholder inside the completion of the tags in `visiting`. A tag without
a definition stays a placeholder, and so does one that is being completed or is its own entry. -/
def completeTag (defs : Definitions) : Nat → List Tag → Tag → CType
  | 0, _, tag => .placeholder tag.kind tag.name
  | fuel + 1, visiting, tag =>
    if tag ∈ visiting then .placeholder tag.kind tag.name
    else
      match defs.get? tag with
      | none => .placeholder tag.kind tag.name
      | some t =>
        if t = .placeholder tag.kind tag.name then t
        else substitute (completeTag defs fuel (tag :: visiting)) t

/-- The completion of a type over a store of definitions. -/
def complete (defs : Definitions) (t : CType) : CType :=
  substitute (completeTag defs (defs.length + 1) []) t

end CType

end ForeignCall
