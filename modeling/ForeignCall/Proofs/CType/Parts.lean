import ForeignCall.CType.Basic
import ForeignCall.Instances

/-!
# ForeignCall.Proofs.CType.Parts

The types that occur in a type: behind pointers, as elements of arrays, as members, as parameters
and as returned types, at any depth.

* `CType.parts` — the types that occur in a type, itself included;
* `CType.induct` — induction on types, in which members and parameters satisfy the motive.
-/

namespace ForeignCall.CType

mutual

/-- The types that occur in a type, itself included. -/
def parts : CType → List CType
  | .pointer base => .pointer base :: base.parts
  | .array base dim => .array base dim :: base.parts
  | .aggregate kind tag members => .aggregate kind tag members :: memberParts members
  | .func params ret variadic => .func params ret variadic :: (memberParts params ++ ret.parts)
  | t => [t]

/-- The types that occur in the types of members or parameters. -/
def memberParts : List (Member CType) → List CType
  | [] => []
  | ⟨_, t⟩ :: ms => t.parts ++ memberParts ms

end

attribute [simp] parts memberParts

theorem self_mem_parts (t : CType) : t ∈ t.parts := by
  cases t <;> simp

theorem mem_memberParts {u : CType} {ms : List (Member CType)} :
    u ∈ memberParts ms ↔ ∃ m ∈ ms, u ∈ m.type.parts := by
  induction ms with
  | nil => simp
  | cons m ms ih => simp [ih]

/-- What holds of all types that occur in members holds of those in each member. -/
theorem forall_memberParts {P : CType → Prop} {ms : List (Member CType)} :
    (∀ u ∈ memberParts ms, P u) ↔ ∀ m ∈ ms, ∀ u ∈ m.type.parts, P u := by
  constructor
  · intro h m hm u hu
    exact h u (mem_memberParts.mpr ⟨m, hm, hu⟩)
  · intro h u hu
    obtain ⟨m, hm, hu⟩ := mem_memberParts.mp hu
    exact h m hm u hu

/-- Induction on types. The types of members and parameters satisfy the motive. -/
@[induction_eliminator]
theorem induct {motive : CType → Prop} (void : motive .void)
    (special : ∀ name, motive (.special name))
    (integral : ∀ kind signed, motive (.integral kind signed))
    (floating : ∀ kind, motive (.floating kind))
    (pointer : ∀ base, motive base → motive (.pointer base))
    (array : ∀ base dim, motive base → motive (.array base dim))
    (aggregate : ∀ kind tag members, (∀ m ∈ members, motive m.type) →
      motive (.aggregate kind tag members))
    (placeholder : ∀ kind tag, motive (.placeholder kind tag))
    (enum : ∀ tag values, motive (.enum tag values))
    (func : ∀ params ret variadic, (∀ m ∈ params, motive m.type) → motive ret →
      motive (.func params ret variadic)) (t : CType) : motive t :=
  @CType.rec motive (fun ms => ∀ m ∈ ms, motive m.type) (fun m => motive m.type) void special
    integral floating pointer array aggregate placeholder enum func (fun _ h => nomatch h)
    (fun _ _ hm hms => List.forall_mem_cons.mpr ⟨hm, hms⟩) (fun _ _ h => h) t

end ForeignCall.CType
