import ForeignCall.Proofs.CType.Completion
import Mathlib.Logic.Relation
import Mathlib.Order.WellFounded

/-!
# ForeignCall.Proofs.CType.Termination

Completion comes to an end over every store, also where definitions contain themselves or each
other. Told here is the recursion without a bound: a placeholder is replaced by the completion of
its definition, with its tag on a stack meanwhile, and a tag on the stack is not opened again.

* `CType.Completes` — the recursion as a relation, with the stack that it works on and leaves;
* `CType.Calls` — the completions that a completion asks for on the way;
* `CType.remaining` — the entries that can still be opened: they get fewer as the stack gets longer;
* `CType.completion_ends` — no chain of calls is infinite, and the result is `CType.complete`.
-/

namespace ForeignCall.CType

/-! ## The recursion -/

/-- Whether a completion looks at what stands inside a type. -/
def entered : CType → Bool
  | .placeholder .. | .array .. | .aggregate .. => true
  | _ => false

/-- Completing a type with some stack comes to an end, with a type and with the stack that is then
left. The members of an aggregate are completed one after the other. -/
inductive Completes (defs : Definitions) : List Tag → CType → CType → List Tag → Prop
  | plain {stack : List Tag} {t : CType} (ht : t.entered = false) : Completes defs stack t t stack
  | array {stack stack' : List Tag} {base base' : CType} {dim : Option UInt64}
    (hbase : Completes defs stack base base' stack') :
    Completes defs stack (.array base dim) (.array base' dim) stack'
  | noMembers {stack : List Tag} {kind : TagKind} {tag : Option String} :
    Completes defs stack (.aggregate kind tag []) (.aggregate kind tag []) stack
  | member {stack stack' stack'' : List Tag} {kind : TagKind} {tag name : Option String}
    {t t' : CType} {ms ms' : List (Member CType)} (first : Completes defs stack t t' stack')
    (rest : Completes defs stack' (.aggregate kind tag ms) (.aggregate kind tag ms') stack'') :
    Completes defs stack (.aggregate kind tag (⟨name, t⟩ :: ms))
      (.aggregate kind tag (⟨name, t'⟩ :: ms')) stack''
  | kept {stack : List Tag} {kind : TagKind} {name : String}
    (hkept : ⟨kind, name⟩ ∈ stack ∨
      ∀ t, defs.get? ⟨kind, name⟩ = some t → t = .placeholder kind name) :
    Completes defs stack (.placeholder kind name) (.placeholder kind name) stack
  | opened {stack stack' : List Tag} {kind : TagKind} {name : String} {t t' : CType}
    (hstack : ⟨kind, name⟩ ∉ stack) (hget : defs.get? ⟨kind, name⟩ = some t)
    (ht : t ≠ .placeholder kind name) (hbody : Completes defs (⟨kind, name⟩ :: stack) t t' stack') :
    Completes defs stack (.placeholder kind name) t' stack'.tail

/-- The completion of a type with some stack asks for the completion of another type. -/
inductive Calls (defs : Definitions) : List Tag × CType → List Tag × CType → Prop
  | element {stack : List Tag} {base : CType} {dim : Option UInt64} :
    Calls defs (stack, .array base dim) (stack, base)
  | member {stack : List Tag} {kind : TagKind} {tag : Option String} {ms : List (Member CType)}
    {m : Member CType} (hm : m ∈ ms) : Calls defs (stack, .aggregate kind tag ms) (stack, m.type)
  | opened {stack : List Tag} {kind : TagKind} {name : String} {t : CType}
    (hstack : ⟨kind, name⟩ ∉ stack) (hget : defs.get? ⟨kind, name⟩ = some t)
    (ht : t ≠ .placeholder kind name) :
    Calls defs (stack, .placeholder kind name) (⟨kind, name⟩ :: stack, t)

variable {defs : Definitions} {stack stack' : List Tag}

/-- What has been put on the stack is taken from it again. -/
theorem Completes.stack_eq {t t' : CType} (h : Completes defs stack t t' stack') :
    stack' = stack := by
  induction h with
  | plain ht => rfl
  | array hbase ih => exact ih
  | noMembers => rfl
  | member first rest ih ih' => exact ih'.trans ih
  | kept hkept => rfl
  | opened hstack hget ht hbody ih => rw [ih, List.tail_cons]

/-- A completion has one result. -/
theorem Completes.unique {t a b : CType} {stackA stackB : List Tag}
    (ha : Completes defs stack t a stackA) (hb : Completes defs stack t b stackB) : a = b := by
  induction ha generalizing b stackB with
  | plain ht =>
    cases hb with
    | plain _ => rfl
    | array _ | noMembers | member _ _ | kept _ | opened _ _ _ _ => cases ht
  | array hbase ih =>
    cases hb with
    | plain ht => cases ht
    | array hbase' => rw [ih hbase']
  | noMembers =>
    cases hb with
    | plain ht => cases ht
    | noMembers => rfl
  | member first rest ih ih' =>
    cases hb with
    | plain ht => cases ht
    | member first' rest' =>
      obtain rfl := first.stack_eq
      obtain rfl := first'.stack_eq
      obtain rfl := ih first'
      cases ih' rest'
      rfl
  | kept hkept =>
    cases hb with
    | plain ht => cases ht
    | kept _ => rfl
    | opened hstack hget ht _ => exact absurd (hkept.resolve_left hstack _ hget) ht
  | opened hstack hget ht hbody ih =>
    cases hb with
    | plain ht => cases ht
    | kept hkept => exact absurd (hkept.resolve_left hstack _ hget) ht
    | opened _ hget' _ hbody' =>
      obtain rfl := Option.some.inj (hget.symm.trans hget')
      exact ih hbody'

/-! ## The measure -/

/-- How many entries of the store have a tag that is not on the stack. -/
def remaining (defs : Definitions) (stack : List Tag) : Nat :=
  (defs.filter fun e => e.1 ∉ stack).length

theorem remaining_le (defs : Definitions) (stack : List Tag) :
    remaining defs stack ≤ defs.length :=
  List.length_filter_le ..

/-- A tag that is opened takes its entry from those that remain. -/
theorem remaining_cons_lt {tag : Tag} {t : CType} (hstack : tag ∉ stack)
    (hget : defs.get? tag = some t) : remaining defs (tag :: stack) < remaining defs stack := by
  have hfilter : (defs.filter fun e => e.1 ∉ tag :: stack) =
      (defs.filter fun e => e.1 ∉ stack).filter fun e => e.1 ≠ tag := by
    rw [List.filter_filter]
    exact List.filter_congr fun e _ => by simp
  obtain ⟨before, behind, heq, -⟩ := List.lookup_eq_some_iff.mp hget
  unfold remaining
  rw [hfilter, List.length_filter_lt_length_iff_exists]
  exact ⟨(tag, t), List.mem_filter.mpr ⟨by simp [heq], by simpa using hstack⟩, by simp⟩

/-- A call opens an entry, or it goes on with a smaller type. -/
theorem Calls.decreases {outer inner : List Tag × CType} (h : Calls defs outer inner) :
    Prod.Lex (· < ·) (· < ·) (remaining defs inner.1, sizeOf inner.2)
      (remaining defs outer.1, sizeOf outer.2) := by
  cases h with
  | element =>
    refine .right _ ?_
    simp only [array.sizeOf_spec]
    omega
  | @member stack kind tag ms m hm =>
    refine .right _ ?_
    have hlist := List.sizeOf_lt_of_mem hm
    have hmember : sizeOf m.type < sizeOf m := by
      obtain ⟨name, t⟩ := m
      simp only [Member.mk.sizeOf_spec]
      omega
    simp only [aggregate.sizeOf_spec]
    omega
  | opened hstack hget ht => exact .left _ _ (remaining_cons_lt hstack hget)

/-- No chain of calls is infinite. -/
theorem wellFounded_calls (defs : Definitions) :
    WellFounded fun inner outer => Calls defs outer inner :=
  Subrelation.wf Calls.decreases
    (InvImage.wf (fun call : List Tag × CType => (remaining defs call.1, sizeOf call.2))
      (WellFounded.prod_lex Nat.lt_wfRel.wf Nat.lt_wfRel.wf))

/-! ## The stack of a call -/

/-- Each tag is on the stack once, and has an entry in the store. -/
def Opens (defs : Definitions) (stack : List Tag) : Prop :=
  stack.Nodup ∧ ∀ tag ∈ stack, (defs.get? tag).isSome

theorem Calls.opens {outer inner : List Tag × CType} (h : Calls defs outer inner)
    (houter : Opens defs outer.1) : Opens defs inner.1 := by
  cases h with
  | element => exact houter
  | member hm => exact houter
  | opened hstack hget ht =>
    exact ⟨List.nodup_cons.mpr ⟨hstack, houter.1⟩,
      List.forall_mem_cons.mpr ⟨by rw [hget]; rfl, houter.2⟩⟩

theorem opens_of_calls {outer inner : List Tag × CType}
    (h : Relation.ReflTransGen (Calls defs) outer inner) (houter : Opens defs outer.1) :
    Opens defs inner.1 := by
  induction h with
  | refl => exact houter
  | tail _ hcall ih => exact hcall.opens ih

/-! ## The result -/

/-- What completes the tags in a type completes the type. -/
theorem completes_substitute {resolve : Tag → CType} {t : CType}
    (h : ∀ tag ∈ t.openTags,
      Completes defs stack (.placeholder tag.kind tag.name) (resolve tag) stack) :
    Completes defs stack t (substitute resolve t) stack := by
  induction t with
  | placeholder kind name => exact h ⟨kind, name⟩ (List.mem_singleton_self _)
  | array base dim ih => exact .array (ih h)
  | aggregate kind tag members ih =>
    rw [substitute]
    induction members with
    | nil => exact .noMembers
    | cons m ms ihms =>
      obtain ⟨name, t⟩ := m
      rw [List.forall_mem_cons] at ih
      rw [openTags, memberTags, List.forall_mem_append] at h
      exact .member (ih.1 h.1) (ihms ih.2 h.2)
  | void | special | integral | floating | pointer | enum | func => exact .plain rfl

/-- A tag has its completion, if there are rounds for all entries that remain. -/
theorem completes_completeTag {fuel : Nat} (hfuel : remaining defs stack < fuel) (tag : Tag) :
    Completes defs stack (.placeholder tag.kind tag.name) (completeTag defs fuel stack tag)
      stack := by
  induction fuel generalizing stack tag with
  | zero => cases hfuel
  | succ fuel ih =>
    rw [completeTag]
    split
    · next hstack => exact .kept (.inl hstack)
    · next hstack =>
      split
      · next hget =>
        refine .kept (.inr fun t ht => ?_)
        rw [hget] at ht
        cases ht
      · next t hget =>
        split
        · next ht =>
          rw [ht] at hget ⊢
          exact .kept (.inr fun t' ht' => (Option.some.inj (hget.symm.trans ht')).symm)
        · next ht =>
          -- the rounds that are left are enough for the entries that then remain
          have hrest := (remaining_cons_lt hstack hget).trans_le (Nat.le_of_lt_succ hfuel)
          exact .opened hstack hget ht (completes_substitute fun tag' _ => ih hrest tag')

/-- **Completion comes to an end.** Over every store the calls that a completion makes get to an
end, and its one result is the completion of the type; the stack is empty again. On the way the
stack holds no tag twice, and not more tags than the store has entries. -/
theorem completion_ends (defs : Definitions) :
    (WellFounded fun inner outer => Calls defs outer inner) ∧
      ∀ t : CType,
        Completes defs [] t (complete defs t) [] ∧
          (∀ t' stack, Completes defs [] t t' stack → t' = complete defs t ∧ stack = []) ∧
            ∀ stack u, Relation.ReflTransGen (Calls defs) ([], t) (stack, u) →
              stack.Nodup ∧ stack.length ≤ defs.length := by
  refine ⟨wellFounded_calls defs, fun t => ?_⟩
  have hresult : Completes defs [] t (complete defs t) [] :=
    completes_substitute fun tag _ =>
      completes_completeTag (Nat.lt_succ_of_le (remaining_le defs [])) tag
  refine ⟨hresult, fun t' stack h => ⟨h.unique hresult, h.stack_eq⟩, fun stack u hcalls => ?_⟩
  obtain ⟨hnodup, hentries⟩ := opens_of_calls hcalls ⟨.nil, nofun⟩
  exact ⟨hnodup, length_le_of_get? hnodup hentries⟩

end ForeignCall.CType
