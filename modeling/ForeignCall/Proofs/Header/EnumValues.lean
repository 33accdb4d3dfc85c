import ForeignCall.Proofs.Constant.Words
import ForeignCall.Proofs.Header.Contributions

/-!
# ForeignCall.Proofs.Header.EnumValues

The values of enumerators. An enumerator without a given value follows the one in front of it, and
the first one is zero; this is told here by a count over integers without a bound.

A translation counts on as soon as it has a value, although nothing may follow. So it refuses every
enum in which the greatest word occurs, and accepts all the others.

* `Numbered` — the values that enumerators have in C;
* `GivenEvaluate` — every value that is given can be evaluated behind the enumerators before it;
* `EnumAdded` — what an enum leaves that is accepted;
* **`TypeNode.translate_enum`** — which enums are accepted, and what they leave.
-/

namespace ForeignCall

open Context Builder
open Namespaces (enumeratorsOf)

/-! ## The values of enumerators -/

section Values

variable (cx : Context) (tag : Option String)

/-- The values of enumerators, of which the first is `next` by default. Each is known to the
expressions of those behind it. -/
inductive Numbered :
    Int → Builder → List (Enumerator (Expr TypeNode)) → List Int64 → Builder → Prop where
  | nil {next b} : Numbered next b [] [] b
  | counted {next b name es v vs b'} (hv : v.toInt = next)
      (hrest : Numbered (v.toInt + 1) (b.addEnumerator name v tag) es vs b') :
      Numbered next b (⟨name, none⟩ :: es) (v :: vs) b'
  | given {next b name e c es v vs b'}
      (hv : runFrom b (cx.constant (lower cx e)) = (.ok v, c))
      (hrest : Numbered (v.toInt + 1) (c.addEnumerator name v tag) es vs b') :
      Numbered next b (⟨name, some e⟩ :: es) (v :: vs) b'

/-- Every value that is given can be evaluated, if those in front of it have values. -/
def GivenEvaluate (next : Int) (b : Builder) (es : List (Enumerator (Expr TypeNode))) : Prop :=
  ∀ before name e behind vs c, es = before ++ ⟨name, some e⟩ :: behind →
    Numbered cx tag next b before vs c → ∃ v c', runFrom c (cx.constant (lower cx e)) = (.ok v, c')

/-- The values lead to the greatest word. -/
def ReachesLimit (next : Int) (b : Builder) (es : List (Enumerator (Expr TypeNode))) : Prop :=
  ∃ before behind vs c, es = before ++ behind ∧ Numbered cx tag next b before vs c ∧
    Int64.maxValue ∈ vs

end Values

/-- A computation overflows at some enumerator. -/
def Overflows {α : Type} (b : Builder) (x : Build α) : Prop :=
  ∃ name, (runFrom b x).1 = .error (.constant (.overflow name) none)

/-- The enum with these names and values. -/
def enumType (tag : Option String) (es : List (Enumerator (Expr TypeNode))) (vs : List Int64) :
    CType :=
  .enum tag ((es.map (·.name)).zip vs)

/-- What an enum leaves behind that becomes a type. It is stored under its tag. Later expressions
see every enumerator with its value, unless another one of its name comes behind it; the bodies of
enums in the expressions count as well. All other names are as before. -/
structure EnumAdded (b : Builder) (tag : Option String) (es : List (Enumerator (Expr TypeNode)))
    (t : CType) (b' : Builder) : Prop where
  stored : ∀ n, tag = some n → b'.enum? n = some t
  seen : ∀ before first behind, es = before ++ first :: behind →
    first.name ∉ behind.map (·.name) ++ (valueBodies behind).flatten →
      b'.enumerators.get? first.name = (enumeratorsOf t)[before.length]?.map (·.2)
  kept : ∀ name ∉ es.map (·.name) ++ (valueBodies es).flatten,
    b'.enumerators.get? name = b.enumerators.get? name

section Proofs

variable {cx : Context} {tag : Option String} {name : String} {next v : Int64} {n : Int}
  {b b' c : Builder} {e : Expr TypeNode} {es before behind : List (Enumerator (Expr TypeNode))}
  {vs : List Int64}

/-! ## Counting on -/

/-- Below the greatest word there is a next one. -/
theorem exists_toInt_succ (h : v ≠ Int64.maxValue) : ∃ next : Int64, next.toInt = v.toInt + 1 := by
  have hne : v.toInt ≠ 2 ^ 63 - 1 := fun heq => h (Int64.toInt_inj.mp heq)
  have hword := isWord_toInt v
  refine ⟨_, toInt_ofInt ?_⟩
  unfold IsWord at hword ⊢
  omega

theorem runFrom_addEnumerator (hnext : next.toInt = v.toInt + 1) :
    runFrom b (Context.addEnumerator tag name v) = (.ok next, b.addEnumerator name v tag) := by
  rw [Context.addEnumerator, fit_eq_some_iff.mpr hnext]
  rfl

theorem runFrom_addEnumerator_maxValue :
    runFrom b (Context.addEnumerator tag name Int64.maxValue) =
      (.error (.constant (.overflow name) none), b.addEnumerator name Int64.maxValue tag) := by
  have hlimit : fit (Int64.maxValue.toInt + 1) = none := by decide
  rw [Context.addEnumerator, hlimit]
  rfl

/-- The part of a translation that starts with an enumerator whose value is known. -/
def translateFrom (cx : Context) (tag : Option String) (name : String) (v : Int64)
    (es : List (Enumerator (Expr TypeNode))) : Build (List (String × Int64)) := do
  let after ← Context.addEnumerator tag name v
  return (name, v) :: (← translateValues cx tag after es)

theorem translateValues_counted :
    translateValues cx tag next (⟨name, none⟩ :: es) = translateFrom cx tag name next es := by
  rw [translateValues]
  rfl

theorem translateValues_given :
    translateValues cx tag next (⟨name, some e⟩ :: es) =
      cx.constant (lower cx e) >>= fun v => translateFrom cx tag name v es := by
  rw [translateValues]
  rfl

theorem runFrom_translateFrom {values : List (String × Int64)} (h : v ≠ Int64.maxValue)
    (hrest : ∀ next : Int64, next.toInt = v.toInt + 1 →
      runFrom (b.addEnumerator name v tag) (translateValues cx tag next es) = (.ok values, b')) :
    runFrom b (translateFrom cx tag name v es) = (.ok ((name, v) :: values), b') := by
  obtain ⟨next, hnext⟩ := exists_toInt_succ h
  rw [translateFrom, runFrom_bind_ok (runFrom_addEnumerator hnext),
    runFrom_bind_ok (hrest next hnext)]
  rfl

theorem Overflows.bind {α β : Type} {x : Build α} (h : Overflows b x) (f : α → Build β) :
    Overflows b (x >>= f) := by
  obtain ⟨name, h⟩ := h
  exact ⟨name, by rw [runFrom_bind_error (Prod.ext h rfl)]⟩

/-- An enumerator with the greatest word overflows, another one if those behind it do. -/
theorem overflows_translateFrom
    (hrest : v ≠ Int64.maxValue → ∀ next : Int64, next.toInt = v.toInt + 1 →
      Overflows (b.addEnumerator name v tag) (translateValues cx tag next es)) :
    Overflows b (translateFrom cx tag name v es) := by
  by_cases hmax : v = Int64.maxValue
  · subst hmax
    exact Overflows.bind ⟨name, congrArg Prod.fst runFrom_addEnumerator_maxValue⟩ _
  · obtain ⟨next, hnext⟩ := exists_toInt_succ hmax
    unfold Overflows
    rw [translateFrom, runFrom_bind_ok (runFrom_addEnumerator hnext)]
    exact (hrest hmax next hnext).bind _

/-! ## Runs -/

/-- Values below the greatest word are those of the translation. -/
theorem Numbered.runFrom_translateValues (h : Numbered cx tag n b es vs b') (hn : next.toInt = n)
    (hlimit : Int64.maxValue ∉ vs) :
    runFrom b (translateValues cx tag next es) = (.ok ((es.map (·.name)).zip vs), b') := by
  induction h generalizing next with
  | nil => rw [translateValues]; rfl
  | counted hv _ ih =>
    rw [List.mem_cons, not_or] at hlimit
    obtain rfl := Int64.toInt_inj.mp (hn.trans hv.symm)
    rw [translateValues_counted]
    exact runFrom_translateFrom (Ne.symm hlimit.1) fun _ hnext => ih hnext hlimit.2
  | given hv _ ih =>
    rw [List.mem_cons, not_or] at hlimit
    rw [translateValues_given, runFrom_bind_ok hv]
    exact runFrom_translateFrom (Ne.symm hlimit.1) fun _ hnext => ih hnext hlimit.2

/-- At the greatest word the translation overflows, whatever is behind it. -/
theorem Numbered.overflows (h : Numbered cx tag n b before vs b') (hn : next.toInt = n)
    (hlimit : Int64.maxValue ∈ vs) :
    Overflows b (translateValues cx tag next (before ++ behind)) := by
  induction h generalizing next with
  | nil => exact absurd hlimit List.not_mem_nil
  | counted hv _ ih =>
    obtain rfl := Int64.toInt_inj.mp (hn.trans hv.symm)
    rw [List.cons_append, translateValues_counted]
    exact overflows_translateFrom fun hmax _ hnext =>
      ih hnext ((List.mem_cons.mp hlimit).resolve_left (Ne.symm hmax))
  | given hv _ ih =>
    unfold Overflows
    rw [List.cons_append, translateValues_given, runFrom_bind_ok hv]
    exact overflows_translateFrom fun hmax _ hnext =>
      ih hnext ((List.mem_cons.mp hlimit).resolve_left (Ne.symm hmax))

/-! ## Values or the limit -/

theorem GivenEvaluate.counted (h : GivenEvaluate cx tag v.toInt b (⟨name, none⟩ :: es)) :
    GivenEvaluate cx tag (v.toInt + 1) (b.addEnumerator name v tag) es := by
  rintro before name' e behind vs c rfl hbefore
  exact h _ name' e behind _ c rfl (.counted rfl hbefore)

theorem GivenEvaluate.given (h : GivenEvaluate cx tag n b (⟨name, some e⟩ :: es))
    (hv : runFrom b (cx.constant (lower cx e)) = (.ok v, c)) :
    GivenEvaluate cx tag (v.toInt + 1) (c.addEnumerator name v tag) es := by
  rintro before name' e' behind vs c' rfl hbefore
  exact h _ name' e' behind _ c' rfl (.given hv hbefore)

theorem ReachesLimit.counted (h : v = Int64.maxValue ∨
    ReachesLimit cx tag (v.toInt + 1) (b.addEnumerator name v tag) es) :
    ReachesLimit cx tag v.toInt b (⟨name, none⟩ :: es) := by
  rcases h with rfl | ⟨before, behind, vs, c, rfl, hbefore, hlimit⟩
  · exact ⟨[⟨name, none⟩], es, _, _, rfl, .counted rfl .nil, List.mem_cons_self⟩
  · exact ⟨_, behind, _, c, rfl, .counted rfl hbefore, List.mem_cons_of_mem _ hlimit⟩

theorem ReachesLimit.given (hv : runFrom b (cx.constant (lower cx e)) = (.ok v, c))
    (h : v = Int64.maxValue ∨
      ReachesLimit cx tag (v.toInt + 1) (c.addEnumerator name v tag) es) :
    ReachesLimit cx tag n b (⟨name, some e⟩ :: es) := by
  rcases h with rfl | ⟨before, behind, vs, c', rfl, hbefore, hlimit⟩
  · exact ⟨[⟨name, some e⟩], es, _, _, rfl, .given hv .nil, List.mem_cons_self⟩
  · exact ⟨_, behind, _, c', rfl, .given hv hbefore, List.mem_cons_of_mem _ hlimit⟩

/-- Enumerators whose given values can be evaluated have values, or they lead to the greatest
word. -/
theorem GivenEvaluate.numbered (h : GivenEvaluate cx tag next.toInt b es) :
    (∃ vs b', Numbered cx tag next.toInt b es vs b' ∧ Int64.maxValue ∉ vs) ∨
      ReachesLimit cx tag next.toInt b es := by
  induction es generalizing next b with
  | nil => exact .inl ⟨[], b, .nil, List.not_mem_nil⟩
  | cons first es ih =>
    -- the enumerators behind one with the value `v`
    have hbehind : ∀ {v : Int64} {b}, GivenEvaluate cx tag (v.toInt + 1) b es →
        (∃ vs b', Numbered cx tag (v.toInt + 1) b es vs b' ∧ Int64.maxValue ∉ v :: vs) ∨
          (v = Int64.maxValue ∨ ReachesLimit cx tag (v.toInt + 1) b es) := by
      intro v b h
      by_cases hmax : v = Int64.maxValue
      · exact .inr (.inl hmax)
      · obtain ⟨next, hnext⟩ := exists_toInt_succ hmax
        rw [← hnext] at h ⊢
        rcases ih h with ⟨vs, b', hvs, hlimit⟩ | hreach
        · exact .inl ⟨vs, b', hvs, List.not_mem_cons_of_ne_of_not_mem (Ne.symm hmax) hlimit⟩
        · exact .inr (.inr hreach)
    obtain ⟨name, _ | e⟩ := first
    · rcases hbehind h.counted with ⟨vs, b', hvs, hlimit⟩ | hreach
      · exact .inl ⟨_, b', .counted rfl hvs, hlimit⟩
      · exact .inr (.counted hreach)
    · obtain ⟨v, c, hv⟩ := h [] name e es [] b rfl .nil
      rcases hbehind (h.given hv) with ⟨vs, b', hvs, hlimit⟩ | hreach
      · exact .inl ⟨_, b', .given hv hvs, hlimit⟩
      · exact .inr (.given hv hreach)

/-- What is numbered has values for all expressions in it, as there is no choice. -/
theorem Numbered.givenEvaluate (h : Numbered cx tag n b es vs b') : GivenEvaluate cx tag n b es := by
  rintro before name e behind ws c heq hbefore
  induction hbefore generalizing es vs with
  | nil =>
    subst heq
    cases h with
    | given hv _ => exact ⟨_, _, hv⟩
  | counted hv _ ih =>
    subst heq
    cases h with
    | counted hv' hrest =>
      obtain rfl := Int64.toInt_inj.mp (hv.trans hv'.symm)
      exact ih hrest rfl
  | given hv _ ih =>
    subst heq
    cases h with
    | given hv' hrest =>
      obtain ⟨hvalue, rfl⟩ := Prod.mk.inj (hv.symm.trans hv')
      obtain rfl := Except.ok.inj hvalue
      exact ih hrest rfl

/-! ## What can be seen afterwards -/

/-- An expression makes no enumerators known but those of the enums in it. -/
theorem get?_of_constant_eq_ok (h : runFrom b (cx.constant (lower cx e)) = (.ok v, c))
    (hname : name ∉ (exprBodies e).flatten) :
    c.enumerators.get? name = b.enumerators.get? name := by
  obtain ⟨⟨added, hadded, hadds, -⟩, -⟩ := evaluate_contributes cx e (constant_eq_ok h)
  rw [hadds.enumerators, Namespace.get?_foldl_insert, List.lookup_eq_none_iff.mpr, Option.none_or]
  intro p hp
  rw [bne_iff_ne]
  rintro rfl
  exact hname (hadded.subset (List.mem_map_of_mem (List.mem_reverse.mp hp)))

theorem Numbered.get?_of_not_mem (h : Numbered cx tag n b es vs b')
    (hname : name ∉ es.map (·.name) ++ (valueBodies es).flatten) :
    b'.enumerators.get? name = b.enumerators.get? name := by
  induction h with
  | nil => rfl
  | counted hv hrest ih =>
    rw [valueBodies, List.map_cons, List.cons_append, List.mem_cons, not_or] at hname
    rw [ih hname.2, Builder.addEnumerator, Namespace.get?_insert, if_neg hname.1]
  | given hv hrest ih =>
    simp only [valueBodies, List.map_cons, List.flatten_append, List.cons_append, List.mem_cons,
      List.mem_append, not_or] at hname
    obtain ⟨hfirst, hnames, hbodies, hbehind⟩ := hname
    rw [ih (by simp [hnames, hbehind]), Builder.addEnumerator, Namespace.get?_insert, if_neg hfirst,
      get?_of_constant_eq_ok hv hbodies]

/-- The enumerators behind one that has its value. -/
theorem Numbered.rest {first : Enumerator (Expr TypeNode)}
    (h : Numbered cx tag n b (before ++ first :: behind) vs b') :
    ∃ ws v us, ∃ c : Builder, vs = ws ++ v :: us ∧ ws.length = before.length ∧
      Numbered cx tag (v.toInt + 1) (c.addEnumerator first.name v tag) behind us b' := by
  induction before generalizing n b vs with
  | nil =>
    cases h with
    | counted hv hrest => exact ⟨[], _, _, _, rfl, rfl, hrest⟩
    | given hv hrest => exact ⟨[], _, _, _, rfl, rfl, hrest⟩
  | cons e before ih =>
    cases h with
    | counted hv hrest =>
      obtain ⟨ws, v, us, c, rfl, hlength, hbehind⟩ := ih hrest
      exact ⟨_ :: ws, v, us, c, rfl, congrArg Nat.succ hlength, hbehind⟩
    | given hv hrest =>
      obtain ⟨ws, v, us, c, rfl, hlength, hbehind⟩ := ih hrest
      exact ⟨_ :: ws, v, us, c, rfl, congrArg Nat.succ hlength, hbehind⟩

theorem getElem?_enumType {first : Enumerator (Expr TypeNode)} {ws us : List Int64}
    (h : ws.length = before.length) :
    (enumeratorsOf (enumType tag (before ++ first :: behind) (ws ++ v :: us)))[before.length]? =
      some (first.name, ⟨v, tag⟩) := by
  rw [enumType, enumeratorsOf, List.map_append, List.zip_append (by rw [List.length_map, h])]
  simp [h]

theorem Numbered.get?_enumerators {first : Enumerator (Expr TypeNode)}
    (h : Numbered cx tag n b (before ++ first :: behind) vs b')
    (hname : first.name ∉ behind.map (·.name) ++ (valueBodies behind).flatten) :
    b'.enumerators.get? first.name =
      (enumeratorsOf (enumType tag (before ++ first :: behind) vs))[before.length]?.map (·.2) := by
  obtain ⟨ws, v, us, c, rfl, hlength, hbehind⟩ := h.rest
  rw [hbehind.get?_of_not_mem hname, getElem?_enumType hlength, Builder.addEnumerator,
    Namespace.get?_insert, if_pos rfl]
  rfl

/-! ## Enums -/

theorem runFrom_defineEnumTag_some (m : String) (values : List (String × Int64)) :
    runFrom b (defineEnumTag (some m) values) =
      match b.defineEnum m (.enum (some m) values) with
      | .ok b' => (.ok (.enum (some m) values), b')
      | .error conflict => (.error (.conflict conflict), b) := by
  have hstore : runFrom b (store fun b => b.defineEnum m (.enum (some m) values)) =
      match b.defineEnum m (.enum (some m) values) with
      | .ok b' => (.ok (), b')
      | .error conflict => (.error (.conflict conflict), b) := by
    rw [store, runFrom_bind_ok (runFrom_get b)]
    cases b.defineEnum m (.enum (some m) values) <;> rfl
  rw [defineEnumTag, runFrom_bind, hstore]
  cases b.defineEnum m (.enum (some m) values) <;> rfl

/-- An enum whose tag has no other definition is stored. -/
theorem runFrom_defineEnumTag {values : List (String × Int64)}
    (h : ∀ m t, tag = some m → b.enum? m = some t → t = .enum tag values) :
    ∃ b', runFrom b (defineEnumTag tag values) = (.ok (.enum tag values), b') ∧
      b'.enumerators = b.enumerators ∧ ∀ m, tag = some m → b'.enum? m = some (.enum tag values) := by
  cases tag with
  | none => exact ⟨b, rfl, rfl, nofun⟩
  | some m =>
    obtain ⟨b', hdefine⟩ : ∃ b', b.defineEnum m (.enum (some m) values) = .ok b' := by
      unfold defineEnum
      split
      · exact ⟨_, rfl⟩
      · next t ht => exact ⟨b, if_pos (h m t rfl ht)⟩
    refine ⟨b', ?_, (tagSet_defineEnum hdefine).enumerators, fun m' hm => ?_⟩
    · rw [runFrom_defineEnumTag_some, hdefine]
    · obtain rfl := Option.some.inj hm
      rw [get?_defineEnum hdefine, if_pos rfl]

theorem runFrom_defineEnumTag_conflict {values : List (String × Int64)} {m : String} {t : CType}
    (hm : tag = some m) (ht : b.enum? m = some t) (hne : t ≠ .enum tag values) :
    runFrom b (defineEnumTag tag values) =
      (.error (.conflict ⟨"enum", m, t, .enum tag values⟩), b) := by
  subst hm
  rw [runFrom_defineEnumTag_some, defineEnum, ht]
  dsimp only
  rw [if_neg hne]

theorem not_overflows_defineEnumTag (values : List (String × Int64)) :
    ¬Overflows b (defineEnumTag tag values) := by
  rintro ⟨name, h⟩
  cases tag with
  | none => exact nomatch h
  | some m =>
    rw [runFrom_defineEnumTag_some] at h
    split at h <;> cases h

/-- **The values of enumerators.** Let every given value be one that can be evaluated behind the
enumerators in front of it. The translation of an enum overflows just when the values lead to the
greatest word. Otherwise the enumerators have the values of C; the enum gets these, is stored under
its tag, and makes them visible, unless the tag has another definition by then. -/
theorem TypeNode.translate_enum (h : GivenEvaluate cx tag 0 b es) :
    (Overflows b ((TypeNode.enum tag (some es)).translate cx) ↔ ReachesLimit cx tag 0 b es) ∧
      (¬ReachesLimit cx tag 0 b es → ∃ vs c, Numbered cx tag 0 b es vs c ∧
        ((∀ m t, tag = some m → c.enum? m = some t → t = enumType tag es vs) →
          ∃ b', runFrom b ((TypeNode.enum tag (some es)).translate cx) =
              (.ok (enumType tag es vs), b') ∧ EnumAdded b tag es (enumType tag es vs) b') ∧
        ∀ m t, tag = some m → c.enum? m = some t → t ≠ enumType tag es vs →
          runFrom b ((TypeNode.enum tag (some es)).translate cx) =
            (.error (.conflict ⟨"enum", m, t, enumType tag es vs⟩), c)) := by
  have hvalues : ∀ {vs c}, Numbered cx tag 0 b es vs c → Int64.maxValue ∉ vs →
      runFrom b ((TypeNode.enum tag (some es)).translate cx) =
        runFrom c (defineEnumTag tag ((es.map (·.name)).zip vs)) := by
    intro vs c hvs hlimit
    rw [TypeNode.translate, runFrom_bind_ok (hvs.runFrom_translateValues rfl hlimit)]
  have hnumbered := GivenEvaluate.numbered (show GivenEvaluate cx tag (0 : Int64).toInt b es from h)
  refine ⟨⟨fun hover => ?_, ?_⟩, fun hreach => ?_⟩
  · refine hnumbered.resolve_left ?_
    rintro ⟨vs, c, hvs, hlimit⟩
    unfold Overflows at hover
    rw [hvalues hvs hlimit] at hover
    exact not_overflows_defineEnumTag _ hover
  · rintro ⟨before, behind, vs, c, rfl, hbefore, hlimit⟩
    rw [TypeNode.translate]
    exact (hbefore.overflows rfl hlimit).bind _
  · obtain ⟨vs, c, hvs, hlimit⟩ := hnumbered.resolve_right hreach
    refine ⟨vs, c, hvs, fun htag => ?_, fun m t hm ht hne => ?_⟩
    · obtain ⟨b', hdefine, henumerators, hstored⟩ := runFrom_defineEnumTag htag
      refine ⟨b', (hvalues hvs hlimit).trans hdefine, hstored, ?_, fun name hname => ?_⟩
      · rintro before first behind rfl hname
        rw [henumerators, hvs.get?_enumerators hname]
      · rw [henumerators, hvs.get?_of_not_mem hname]
    · exact (hvalues hvs hlimit).trans (runFrom_defineEnumTag_conflict hm ht hne)

end Proofs

/-! ### Counting up and starting again -/

/-- `A, B, C = 1 << 4, D, E = A | C, F = -1, G` -/
def modeEnumerators : List (Enumerator (Expr TypeNode)) :=
  [⟨"A", none⟩, ⟨"B", none⟩,
   ⟨"C", some (.binary "<<" (.literal .int "1") (.literal .int "4"))⟩, ⟨"D", none⟩,
   ⟨"E", some (.binary "|" (.ident "A") (.ident "C"))⟩,
   ⟨"F", some (.unary "-" (.literal .int "1"))⟩, ⟨"G", none⟩]

/-- The type of these enumerators. -/
def modeType : CType :=
  .enum (some "mode") [("A", 0), ("B", 1), ("C", 16), ("D", 17), ("E", 16), ("F", -1), ("G", 0)]

/-- A header without declarations. -/
def noDeclarations : Builder := ⟨"mode.h", {}, .empty⟩

/-- The context of a declaration whose place is not known. -/
def unplaced : Context := ⟨.lp64, 8, none⟩

theorem numbered_mode :
    ∃ c, Numbered unplaced (some "mode") 0 noDeclarations modeEnumerators
      [0, 1, 16, 17, 16, -1, 0] c :=
  ⟨_, .counted rfl <| .counted rfl <| .given (Prod.ext (by decide +kernel) rfl) <| .counted rfl <|
    .given (Prod.ext (by decide +kernel) rfl) <| .given (Prod.ext (by decide +kernel) rfl) <|
      .counted rfl .nil⟩

theorem TypeNode.translate_enum_mode :
    GivenEvaluate unplaced (some "mode") 0 noDeclarations modeEnumerators ∧
      ∃ b', runFrom noDeclarations
          ((TypeNode.enum (some "mode") (some modeEnumerators)).translate unplaced) =
            (.ok modeType, b') ∧
        EnumAdded noDeclarations (some "mode") modeEnumerators modeType b' := by
  obtain ⟨c, hnumbered⟩ := numbered_mode
  obtain ⟨hover, hvalues⟩ := translate_enum hnumbered.givenEvaluate
  have hresult : (runFrom noDeclarations
      ((TypeNode.enum (some "mode") (some modeEnumerators)).translate unplaced)).1 =
        .ok modeType := by
    decide +kernel
  have hreach : ¬ReachesLimit unplaced (some "mode") 0 noDeclarations modeEnumerators := by
    rw [← hover]
    rintro ⟨name, h⟩
    exact nomatch hresult.symm.trans h
  obtain ⟨vs, c', -, haccepted, hconflict⟩ := hvalues hreach
  obtain ⟨b', hrun, hadded⟩ := haccepted fun m t hm ht => by
    by_contra hne
    rw [hconflict m t hm ht hne] at hresult
    exact nomatch hresult
  rw [hrun] at hresult
  rw [Except.ok.inj hresult] at hrun hadded
  exact ⟨hnumbered.givenEvaluate, b', hrun, hadded⟩

/-! ### The greatest word -/

/-- `A = 9223372036854775807` -/
def greatestEnumerator : List (Enumerator (Expr TypeNode)) :=
  [⟨"A", some (.literal .int "9223372036854775807")⟩]

/-- All values of an enum are words, and none is counted; it is refused all the same. -/
theorem TypeNode.refuses_greatest :
    GivenEvaluate unplaced (some "E") 0 noDeclarations greatestEnumerator ∧
      noDeclarations.enum? "E" = none ∧
      (∃ c, Numbered unplaced (some "E") 0 noDeclarations greatestEnumerator
        [Int64.maxValue] c) ∧
      (∀ e ∈ greatestEnumerator, e.value.isSome) ∧
      Overflows noDeclarations
        ((TypeNode.enum (some "E") (some greatestEnumerator)).translate unplaced) := by
  have hnumbered : Numbered unplaced (some "E") 0 noDeclarations greatestEnumerator
      [Int64.maxValue] _ := .given (Prod.ext (by decide +kernel) rfl) .nil
  exact ⟨hnumbered.givenEvaluate, rfl, ⟨_, hnumbered⟩, by decide, "A", by decide +kernel⟩

end ForeignCall
