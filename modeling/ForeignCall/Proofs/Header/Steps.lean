import ForeignCall.Proofs.Header.Changes
import ForeignCall.Proofs.Header.Sizeofs

/-!
# ForeignCall.Proofs.Header.Steps

What the steps of a translation do to the header that is being collected, what they give, and which
expressions they evaluate.

* `Build.Yields` — a step makes changes of some kind, and its results have a property;
* `Build.Evaluates` — in addition, the expressions that it evaluates lie among its changes;
* `Build.yields_bind`, `Build.evaluates_bind` — steps in a row.
-/

namespace ForeignCall

/-- An expression that is evaluated on the way from one header to another. -/
def Sizeof.Within (change : Builder → Builder → Prop) (s : Sizeof) (b b' : Builder) : Prop :=
  Relation.ReflTransGen change b s.start ∧ Relation.ReflTransGen change s.denoted.2 b'

namespace Build

variable {α β : Type} {change : Builder → Builder → Prop} {P : Builder → Prop}
  {Q : α → Builder → Prop}

/-- From a header that satisfies `P` a step makes changes in a row, and a result satisfies `Q`
together with the header afterwards. -/
def Yields (change : Builder → Builder → Prop) (P : Builder → Prop) (x : Build α)
    (Q : α → Builder → Prop) : Prop :=
  ∀ b, P b → Relation.ReflTransGen change b (runFrom b x).2 ∧
    ∀ a, (runFrom b x).1 = .ok a → Q a (runFrom b x).2

theorem yields_pure {a : α} (h : ∀ b, P b → Q a b) : Yields change P (pure a) Q := by
  refine fun b hb => ⟨.refl, fun a' ha => ?_⟩
  obtain rfl := Except.ok.inj ha
  exact h b hb

theorem yields_throw (e : TranslationError) : Yields change P (throw e : Build α) Q :=
  fun _ _ => ⟨.refl, fun _ ha => nomatch ha⟩

theorem yields_get : Yields change P get fun found b => found = b ∧ P b := by
  refine fun b hb => ⟨.refl, fun found hfound => ?_⟩
  obtain rfl := Except.ok.inj hfound
  exact ⟨rfl, hb⟩

theorem yields_modify {f : Builder → Builder} {Q : Unit → Builder → Prop}
    (hchange : ∀ b, P b → change b (f b)) (hpost : ∀ b, P b → Q () (f b)) :
    Yields change P (modify f) Q :=
  fun b hb => ⟨.single (hchange b hb), fun _ _ => hpost b hb⟩

theorem yields_store {f : Builder → Except Conflict Builder} {Q : Unit → Builder → Prop}
    (hchange : ∀ b b', P b → f b = .ok b' → change b b')
    (hpost : ∀ b b', P b → f b = .ok b' → Q () b') :
    Yields change P (Context.store f) Q := by
  intro b hb
  unfold Context.store
  rw [runFrom_bind, runFrom_get]
  cases hf : f b with
  | ok b' =>
    simp only [hf]
    exact ⟨.single (hchange b b' hb hf), fun _ _ => hpost b b' hb hf⟩
  | error c =>
    simp only [hf]
    exact ⟨.refl, fun _ ha => nomatch ha⟩

theorem yields_bind {x : Build α} {f : α → Build β} {R : β → Builder → Prop}
    (hx : Yields change P x Q) (hf : ∀ a, Yields change (Q a) (f a) R) :
    Yields change P (x >>= f) R := by
  intro b hb
  have h := hx b hb
  rw [runFrom_bind]
  generalize runFrom b x = p at h ⊢
  rcases p with ⟨e | a, b'⟩
  · exact ⟨h.1, fun _ ha => nomatch ha⟩
  · have h' := hf a b' (h.2 a rfl)
    exact ⟨h.1.trans h'.1, h'.2⟩

theorem yields_adapt (f : TranslationError → TranslationError) {x : Build α}
    (hx : Yields change P x Q) : Yields change P (ExceptT.adapt f x) Q := by
  intro b hb
  have h := hx b hb
  rw [runFrom_adapt]
  refine ⟨h.1, fun a ha => h.2 a ?_⟩
  cases hr : (runFrom b x).1 with
  | ok a' =>
    rw [hr] at ha
    exact ha
  | error e =>
    rw [hr] at ha
    cases ha

/-- What the changes keep holds afterwards. -/
theorem Yields.keep {keep : Builder → Prop} {x : Build α}
    (hx : Yields change (fun _ => True) x Q)
    (hkeep : ∀ {b b'}, change b b' → keep b → keep b') :
    Yields change keep x fun a b => keep b ∧ Q a b := by
  intro b hb
  obtain ⟨hchanges, hpost⟩ := hx b trivial
  have hkept : ∀ b', Relation.ReflTransGen change b b' → keep b' := by
    intro b' h
    induction h with
    | refl => exact hb
    | tail _ hchange ih => exact hkeep hchange ih
  exact ⟨hchanges, fun a ha => ⟨hkept _ hchanges, hpost a ha⟩⟩

/-- Changes of one kind as changes of a wider kind. -/
theorem Yields.widen {change' : Builder → Builder → Prop} {x : Build α}
    (hx : Yields change P x Q) (h : ∀ b b', change b b' → change' b b') :
    Yields change' P x Q :=
  fun b hb => ⟨Relation.ReflTransGen.mono h _ _ (hx b hb).1, (hx b hb).2⟩

/-! ## Evaluated expressions -/

/-- A step that yields something, with the expressions that it evaluates: each of them lies between
the changes that lead up to it and those that follow. -/
structure Evaluates (change : Builder → Builder → Prop) (P : Builder → Prop) (x : Build α)
    (Q : α → Builder → Prop) (sizeofs : Sizeofs) : Prop where
  yields : Yields change P x Q
  within : ∀ b, P b → ∀ s ∈ sizeofs b, s.Within change b (runFrom b x).2

theorem Yields.evaluates {x : Build α} (h : Yields change P x Q) : Evaluates change P x Q .none :=
  ⟨h, fun _ _ => nofun⟩

section Bind

variable {x : Build α} {f : α → Build β} {R : β → Builder → Prop} {first : Sizeofs}

theorem evaluates_bind {rest : α → Sizeofs} (hx : Evaluates change P x Q first)
    (hf : ∀ a, Evaluates change (Q a) (f a) R (rest a)) :
    Evaluates change P (x >>= f) R (first.andThen x rest) := by
  refine ⟨yields_bind hx.yields fun a => (hf a).yields, fun b hb s hs => ?_⟩
  have hyields := hx.yields b hb
  have hwithin := hx.within b hb
  unfold Sizeofs.andThen at hs
  rw [List.mem_append] at hs
  rw [runFrom_bind]
  generalize runFrom b x = p at hyields hwithin hs ⊢
  obtain ⟨e | a, b'⟩ := p
  · exact hwithin s (hs.resolve_right List.not_mem_nil)
  · -- both steps are made: the first leads up to what the second evaluates
    have hb' := hyields.2 a rfl
    rcases hs with hs | hs
    · have hbefore := hwithin s hs
      exact ⟨hbefore.1, hbefore.2.trans ((hf a).yields b' hb').1⟩
    · have hbehind := (hf a).within b' hb' s hs
      exact ⟨hyields.1.trans hbehind.1, hbehind.2⟩

/-- A step behind one that evaluates expressions. -/
theorem Evaluates.then (hx : Evaluates change P x Q first)
    (hf : ∀ a, Yields change (Q a) (f a) R) : Evaluates change P (x >>= f) R first := by
  have hnone : first.andThen x (fun _ => .none) = first := by
    funext b
    unfold Sizeofs.andThen Sizeofs.none
    split <;> exact List.append_nil _
  exact hnone ▸ evaluates_bind hx fun a => (hf a).evaluates

end Bind

/-- The size of a type is evaluated when the type has been translated. -/
theorem evaluates_sizeof {cx : Context} {t : TypeNode} {Q : CType → Builder → Prop}
    {f : CType → Build β} {R : β → Builder → Prop}
    (ht : Evaluates change P (t.translate cx) Q (t.sizeofs cx))
    (hf : ∀ u, Yields change (Q u) (f u) R) :
    Evaluates change P (t.translate cx >>= f) R (exprSizeofs cx (.sizeofType t)) := by
  refine ⟨yields_bind ht.yields hf, fun b hb s hs => ?_⟩
  rcases List.mem_cons.mp hs with rfl | hs
  · refine ⟨.refl, ?_⟩
    have hyields := ht.yields b hb
    rw [runFrom_bind]
    unfold Sizeof.denoted
    dsimp only
    generalize runFrom b (t.translate cx) = p at hyields ⊢
    obtain ⟨e | u, b'⟩ := p
    · exact .refl
    · exact (hf u b' (hyields.2 u rfl)).1
  · exact (ht.then hf).within b hb s hs

variable {x : Build α} {sizeofs : Sizeofs}

theorem Evaluates.adapt (f : TranslationError → TranslationError)
    (hx : Evaluates change P x Q sizeofs) :
    Evaluates change P (ExceptT.adapt f x) Q sizeofs :=
  ⟨yields_adapt f hx.yields, hx.within⟩

/-- What the changes keep holds afterwards. -/
theorem Evaluates.keep {keep : Builder → Prop}
    (hx : Evaluates change (fun _ => True) x Q sizeofs)
    (hkeep : ∀ {b b'}, change b b' → keep b → keep b') :
    Evaluates change keep x (fun a b => keep b ∧ Q a b) sizeofs :=
  ⟨hx.yields.keep hkeep, fun b _ => hx.within b trivial⟩

/-- Changes of one kind as changes of a wider kind. -/
theorem Evaluates.widen {change' : Builder → Builder → Prop}
    (hx : Evaluates change P x Q sizeofs) (h : ∀ b b', change b b' → change' b b') :
    Evaluates change' P x Q sizeofs := by
  refine ⟨hx.yields.widen h, fun b hb s hs => ?_⟩
  obtain ⟨hbefore, hbehind⟩ := hx.within b hb s hs
  exact ⟨Relation.ReflTransGen.mono h _ _ hbefore, Relation.ReflTransGen.mono h _ _ hbehind⟩

end Build

end ForeignCall
