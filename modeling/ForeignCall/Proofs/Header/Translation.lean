import ForeignCall.Proofs.Declaration.EnumBodies
import ForeignCall.Proofs.Header.Steps

/-!
# ForeignCall.Proofs.Header.Translation

A translation does nothing but changes, whether it fails or not, and the type that it gives is one
that its node can denote.

* `TypeNode.translate_yields` — the translation of a type changes tags and enumerators;
* `translateUnit_becomes` — the translation of a file is a row of changes;
* `Builder.after_becomes` — so are translations one after another.
-/

namespace ForeignCall

open Build

/-! ## Constants and declared names -/

namespace Context

variable {allowed : List String → Prop} {P : Builder → Prop} {α : Type}

section

variable {change : Builder → Builder → Prop} {Q : Int64 → Builder → Prop}

/-- What follows the layout of an operand, whichever sizes `fits` lets through. -/
theorem yields_sizeOf_layout (fits : Int → Option Int64) (x : Except LayoutError Layout)
    (error : ConstError) :
    Yields change P (match x with
      | .error e => throw (.layout e)
      | .ok l =>
        match fits l.size with
        | some n => pure n
        | none => raise error) fun _ _ => True := by
  cases x with
  | error e => exact yields_throw _
  | ok l =>
    dsimp only
    split
    · exact yields_pure fun _ _ => trivial
    · exact yields_throw _

theorem evaluates_sizeOf (cx : Context) {t : TypeNode} {Q : CType → Builder → Prop}
    (h : Evaluates change P (t.translate cx) Q (t.sizeofs cx)) :
    Evaluates change P (cx.sizeOf ⟨t.display, t.translate cx⟩) (fun _ _ => True)
      (exprSizeofs cx (.sizeofType t)) := by
  unfold sizeOf
  -- comparing a size with the bound of a word by definition would count down from the bound
  generalize fit = fits
  exact evaluates_sizeof h fun u => yields_bind yields_get fun b => yields_sizeOf_layout fits _ _

theorem evaluates_castTo (cx : Context) {operand : Operand} {Q : CType → Builder → Prop}
    {sizeofs : Sizeofs} (h : Evaluates change P operand.translate Q sizeofs) (value : Int64) :
    Evaluates change P (cx.castTo operand value) (fun _ _ => True) sizeofs := by
  unfold castTo
  refine h.then fun t => ?_
  split
  · exact yields_throw _
  · exact yields_throw _
  · split
    · exact yields_pure fun _ _ => trivial
    · exact yields_throw _

theorem yields_orRaise (cx : Context) (error : ConstError) (v : Option Int64) :
    Yields change P (orRaise cx.environment error v) fun _ _ => True := by
  cases v with
  | none => exact yields_throw _
  | some v => exact yields_pure fun _ _ => trivial

end

theorem yields_wordsType (cx : Context) (words : List String) :
    Yields (Builder.TagChange allowed) P (cx.wordsType words)
      fun t b => b.Denotes allowed t := by
  unfold wordsType
  refine yields_bind yields_get fun found => ?_
  dsimp only
  split
  · next t hnamed =>
    refine yields_pure fun b hb => ?_
    obtain ⟨rfl, -⟩ := hb
    split at hnamed
    · exact .typedef hnamed
    · cases hnamed
  · split
    · exact yields_throw _
    · next t hspelled => exact yields_pure fun _ _ => .spelled hspelled
    · exact yields_throw _

theorem yields_declareTag (cx : Context) (kind : TagKind) (tag : Option String) :
    Yields (Builder.TagChange allowed) P (cx.declareTag kind tag)
      fun t b => b.Denotes allowed t := by
  cases tag with
  | none => exact yields_throw _
  | some tag =>
    refine yields_bind (Q := fun _ b => (b.aggregate? kind tag).isSome)
      (yields_modify (fun b _ => .declare b kind tag) fun b _ => ?_) fun _ => ?_
    · rw [Builder.get?_declare, if_pos ⟨rfl, rfl⟩]
      rfl
    · exact yields_pure fun b hb => .placeholder hb

theorem yields_defineTag (kind : TagKind) (tag : Option String) (members : List (Member CType)) :
    Yields (Builder.TagChange allowed) (fun b => ∀ m ∈ members, b.Denotes allowed m.type)
      (defineTag kind tag members) fun t b => b.Denotes allowed t := by
  cases tag with
  | none => exact yields_pure fun b hb => .aggregate hb nofun
  | some name =>
    have hstore : Yields (Builder.TagChange allowed)
        (fun b => ∀ m ∈ members, b.Denotes allowed m.type)
        (store fun b => b.define kind name (.aggregate kind (some name) members))
        fun _ b => b.Denotes allowed (.aggregate kind (some name) members) := by
      refine yields_store (fun b b' hb h => .define hb h) fun b b' hb h => ?_
      have hchange : b.TagChange allowed b' := .define hb h
      refine .aggregate (fun m hm => hchange.denotes (hb m hm)) fun name' hname => ?_
      obtain rfl := Option.some.inj hname
      rw [Builder.get?_define h, if_pos ⟨rfl, rfl⟩]
    exact yields_bind hstore fun _ => yields_pure fun b hb => hb

theorem yields_defineEnumTag {tag : Option String} {values : List (String × Int64)}
    (hbody : allowed (values.map (·.1))) :
    Yields (Builder.TagChange allowed) (fun _ => True) (defineEnumTag tag values)
      fun t b => b.Denotes allowed t := by
  cases tag with
  | none => exact yields_pure fun b _ => .enum hbody nofun
  | some name =>
    have hstore : Yields (Builder.TagChange allowed) (fun _ => True)
        (store fun b => b.defineEnum name (.enum (some name) values))
        fun _ b => b.Denotes allowed (.enum (some name) values) := by
      refine yields_store (fun b b' _ h => .defineEnum hbody h) fun b b' _ h => ?_
      refine .enum hbody fun name' hname => ?_
      obtain rfl := Option.some.inj hname
      rw [Builder.get?_defineEnum h, if_pos rfl]
    exact yields_bind hstore fun _ => yields_pure fun b hb => hb

theorem yields_enumOf (cx : Context) (tag : Option String) :
    Yields (Builder.TagChange allowed) P (cx.enumOf tag) fun t b => b.Denotes allowed t := by
  unfold enumOf
  refine yields_bind yields_get fun found => ?_
  split
  · next t ht =>
    refine yields_pure fun b hb => ?_
    obtain ⟨rfl, -⟩ := hb
    obtain ⟨name, rfl, hname⟩ := Option.bind_eq_some_iff.mp ht
    exact .enumTag hname
  · exact yields_throw _

theorem yields_addEnumerator (tag : Option String) (name : String) (value : Int64) :
    Yields (Builder.TagChange allowed) P (addEnumerator tag name value) fun _ _ => True := by
  unfold addEnumerator
  refine yields_bind (Q := fun _ _ => True)
    (yields_modify (fun b _ => .enumerator b name value tag) fun _ _ => trivial) fun _ => ?_
  split
  · exact yields_pure fun _ _ => trivial
  · exact yields_throw _

end Context

/-! ## Types -/

open Context

section Types

variable {allowed : List String → Prop}

mutual

/-- The translation of a type changes tags and enumerators, and gives a type that the node can
denote. -/
theorem TypeNode.translate_evaluates (cx : Context) : (t : TypeNode) →
    (∀ body ∈ t.enumBodies, allowed body) →
    Evaluates (Builder.TagChange allowed) (fun _ => True) (t.translate cx)
      (fun u b => b.Denotes allowed u) (t.sizeofs cx)
  | .identifier words, _ => (cx.yields_wordsType words).evaluates
  | .pointer base, h =>
    (TypeNode.translate_evaluates cx base h).then fun _ => yields_pure fun _ hb => .pointer hb
  | .array base none, h =>
    (TypeNode.translate_evaluates cx base h).then fun _ => yields_pure fun _ hb => .array none hb
  | .array base (some dim), h => by
    rw [TypeNode.enumBodies, List.forall_mem_append] at h
    have hdim : Evaluates (Builder.TagChange allowed) (fun _ => True)
        (cx.dimension (base.display ++ "[" ++ exprText dim ++ "]") (lower cx dim))
        (fun _ _ => True) (exprSizeofs cx dim) := by
      refine ((evaluate_evaluates cx dim h.2).adapt _).then fun v => ?_
      split
      · exact yields_throw _
      · exact yields_pure fun _ _ => trivial
    exact evaluates_bind (TypeNode.translate_evaluates cx base h.1) fun _ =>
      (hdim.keep Builder.TagChange.denotes).then fun _ => yields_pure fun _ hb => .array _ hb.1
  | .function none ret variadic, h =>
    (TypeNode.translate_evaluates cx ret h).then fun _ =>
      yields_pure fun _ hb => .func variadic nofun hb
  | .function (some params) ret variadic, h => by
    rw [TypeNode.enumBodies, List.forall_mem_append] at h
    have hret : ∀ members : List (Member CType), Evaluates (Builder.TagChange allowed)
        (fun b => ∀ m ∈ members, b.Denotes allowed m.type)
        (ret.translate cx >>= fun t => pure (CType.func members t variadic))
        (fun u b => b.Denotes allowed u) (ret.sizeofs cx) := fun members =>
      -- what the parameters denote, they denote still when the returned type has been translated
      ((TypeNode.translate_evaluates cx ret h.2).keep fun hchange hmembers m hm =>
        hchange.denotes (hmembers m hm)).then fun _ =>
          yields_pure fun _ hb => .func variadic hb.1 hb.2
    rw [TypeNode.translate, TypeNode.sizeofs]
    dsimp only
    split
    · -- the word `void` alone stands for no parameters
      have hempty := hret []
      exact ⟨fun b _ => hempty.yields b nofun, fun b _ => hempty.within b nofun⟩
    · exact evaluates_bind (translateMembers_evaluates cx params h.1) hret
  | .aggregate kind tag none, _ => (cx.yields_declareTag kind tag).evaluates
  | .aggregate kind tag (some fields), h =>
    (translateMembers_evaluates cx fields h).then fun members => yields_defineTag kind tag members
  | .enum tag none, _ => (cx.yields_enumOf tag).evaluates
  | .enum tag (some es), h => by
    rw [TypeNode.enumBodies, List.forall_mem_cons] at h
    refine (translateValues_evaluates cx tag 0 es h.2).then fun values => ?_
    intro b hb
    exact yields_defineEnumTag (hb ▸ h.1) b trivial
  | .other kind text, _ => (yields_throw _).evaluates

theorem translateMembers_evaluates (cx : Context) : (ds : List (Declarator TypeNode)) →
    (∀ body ∈ memberBodies ds, allowed body) →
    Evaluates (Builder.TagChange allowed) (fun _ => True) (translateMembers cx ds)
      (fun members b => ∀ m ∈ members, b.Denotes allowed m.type) (memberSizeofs cx ds)
  | [], _ => (yields_pure fun _ _ => nofun).evaluates
  | ⟨_, t, _⟩ :: ds, h => by
    rw [memberBodies, List.forall_mem_append] at h
    exact evaluates_bind (TypeNode.translate_evaluates cx t h.1) fun _ =>
      ((translateMembers_evaluates cx ds h.2).keep Builder.TagChange.denotes).then fun _ =>
        yields_pure fun _ hb => List.forall_mem_cons.mpr hb

theorem translateValues_evaluates (cx : Context) (tag : Option String) (next : Int64) :
    (es : List (Enumerator (Expr TypeNode))) → (∀ body ∈ valueBodies es, allowed body) →
    Evaluates (Builder.TagChange allowed) (fun _ => True) (translateValues cx tag next es)
      (fun values _ => values.map (·.1) = es.map (·.name)) (valueSizeofs cx tag next es)
  | [], _ => (yields_pure fun _ _ => rfl).evaluates
  | ⟨name, none⟩ :: es, h =>
    evaluates_bind (yields_addEnumerator tag name next).evaluates fun after =>
      (translateValues_evaluates cx tag after es h).then fun _ =>
        yields_pure fun _ hb => congrArg (name :: ·) hb
  | ⟨name, some e⟩ :: es, h => by
    rw [valueBodies, List.forall_mem_append] at h
    exact evaluates_bind ((evaluate_evaluates cx e h.1).adapt _) fun value =>
      evaluates_bind (yields_addEnumerator tag name value).evaluates fun after =>
        (translateValues_evaluates cx tag after es h.2).then fun _ =>
          yields_pure fun _ hb => congrArg (name :: ·) hb

/-- The evaluation of an expression changes what the types in it change. -/
theorem evaluate_evaluates (cx : Context) : (e : Expr TypeNode) →
    (∀ body ∈ exprBodies e, allowed body) →
    Evaluates (Builder.TagChange allowed) (fun _ => True) ((lower cx e).evaluate cx.environment)
      (fun _ _ => True) (exprSizeofs cx e)
  | .literal kind text, _ => by
    rw [lower]
    cases kind with
    | int => exact (cx.yields_orRaise _ _).evaluates
    | char | float | string => exact (yields_throw _).evaluates
  | .ident name, _ => by
    rw [lower]
    exact (yields_bind (Q := fun _ _ => True)
      (yields_bind yields_get fun _ => yields_pure fun _ _ => trivial)
        fun _ => cx.yields_orRaise _ _).evaluates
  | .unary op operand, h => by
    rw [lower, Expr.evaluate]
    refine (evaluate_evaluates cx operand h).then fun v => ?_
    split
    · exact cx.yields_orRaise _ _
    · exact yields_throw _
  | .binary op lhs rhs, h => by
    rw [exprBodies, List.forall_mem_append] at h
    rw [lower, Expr.evaluate, exprSizeofs]
    cases binaryOp? op with
    | none => exact (yields_throw _).evaluates
    | some f =>
      exact evaluates_bind (evaluate_evaluates cx lhs h.1) fun l =>
        (evaluate_evaluates cx rhs h.2).then fun r => cx.yields_orRaise _ _
  | .sizeofType t, h => by
    rw [lower]
    exact cx.evaluates_sizeOf (TypeNode.translate_evaluates cx t h)
  | .cast t operand, h => by
    rw [exprBodies, List.forall_mem_append] at h
    rw [lower]
    exact evaluates_bind (evaluate_evaluates cx operand h.2) fun value =>
      cx.evaluates_castTo (TypeNode.translate_evaluates cx t h.1) value
  | .other kind text, _ => by
    rw [lower]
    exact (yields_throw _).evaluates

end

/-! ## Declarations -/

theorem storeNameless_yields (t : CType) :
    Yields (Builder.Change allowed) (fun b => b.Denotes allowed t) (storeNameless t)
      fun _ _ => True := by
  unfold storeNameless
  split
  · exact yields_store (fun b b' hb h => .untagged hb h) fun _ _ _ _ => trivial
  · exact yields_pure fun _ _ => trivial

theorem Declarator.translate_evaluates (target : Target) (pack : Nat) {d : Declarator TypeNode}
    (h : ∀ body ∈ d.type.enumBodies, allowed body) :
    Evaluates (Builder.Change allowed) (fun _ => True) (d.translate target pack)
      (fun _ _ => True) (d.type.sizeofs ⟨target, pack, d.coord⟩) := by
  unfold Declarator.translate
  refine ((TypeNode.translate_evaluates _ d.type h).widen fun _ _ => .tag).then fun t => ?_
  split
  · exact yields_modify (fun b hb => .function _ hb) fun _ _ => trivial
  · next hfunc =>
    exact yields_modify (fun b hb => .global _ hb hfunc) fun _ _ => trivial
  · exact storeNameless_yields _

theorem Declaration.translate_evaluates (target : Target) (pack : Nat) {whole : Declaration}
    (h : ∀ body ∈ whole.enumBodies, allowed body) :
    Evaluates (Builder.Change allowed) (fun _ => True) (whole.translate target pack)
      (fun _ _ => True) (whole.sizeofs target pack) := by
  cases whole with
  | decl d => exact Declarator.translate_evaluates target pack h
  | funcDef d => exact Declarator.translate_evaluates target pack h
  | typedef d =>
    obtain ⟨name, t, coord⟩ := d
    cases name with
    | none => exact (yields_throw _).evaluates
    | some name =>
      exact ((TypeNode.translate_evaluates _ t h).widen fun _ _ => .tag).then fun t =>
        yields_modify (fun b hb => .typedef _ hb) fun _ _ => trivial
  | pragma text => exact (yields_pure fun _ _ => trivial).evaluates
  | other kind text => exact (yields_throw _).evaluates

theorem translateUnit_evaluates (target : Target) (pack : Nat) {unit : TranslationUnit}
    (h : ∀ d ∈ unit, ∀ body ∈ d.enumBodies, allowed body) :
    Evaluates (Builder.Change allowed) (fun _ => True) (translateUnit target pack unit)
      (fun _ _ => True) (unitSizeofs target pack unit) := by
  unfold translateUnit
  induction unit with
  | nil => exact (yields_pure fun _ _ => trivial).evaluates
  | cons d ds ih =>
    rw [List.forall_mem_cons] at h
    rw [List.forM]
    exact evaluates_bind (Declaration.translate_evaluates target pack h.1) fun _ => ih h.2

/-- **The translation of a file is a row of changes**, whether it fails or not. -/
theorem translateUnit_becomes (target : Target) (pack : Nat) {unit : TranslationUnit}
    (h : ∀ d ∈ unit, ∀ body ∈ d.enumBodies, allowed body) (b : Builder) :
    b.Becomes allowed (runFrom b (translateUnit target pack unit)).2 :=
  ((translateUnit_evaluates target pack h).yields b trivial).1

theorem translateUnit_grows (target : Target) (pack : Nat) (unit : TranslationUnit) (b : Builder) :
    b.Grows (runFrom b (translateUnit target pack unit)).2 :=
  (@translateUnit_becomes (fun _ => True) target pack unit (fun _ _ _ _ => trivial) b).grows

end Types

/-! ## Histories -/

/-- Declarations that are translated together, for one target and packing width. -/
structure Batch where
  target : Target
  pack : Nat
  unit : TranslationUnit

namespace Builder

/-- The header after a translation, which may fail halfway. -/
def translate (b : Builder) (batch : Batch) : Builder :=
  (runFrom b (translateUnit batch.target batch.pack batch.unit)).2

/-- The header after some translations, each of which goes on from what the one before has left. -/
def after (b : Builder) (batches : List Batch) : Builder := batches.foldl translate b

/-- The expressions that are evaluated in some translations. -/
def sizeofs (b : Builder) : List Batch → List Sizeof
  | [] => []
  | batch :: batches =>
    unitSizeofs batch.target batch.pack batch.unit b ++ (b.translate batch).sizeofs batches

variable {allowed : List String → Prop} {batches : List Batch}

/-- **Translations in a row are a row of changes.** -/
theorem after_becomes
    (h : ∀ batch ∈ batches, ∀ d ∈ batch.unit, ∀ body ∈ d.enumBodies, allowed body) (b : Builder) :
    b.Becomes allowed (b.after batches) := by
  unfold after
  induction batches generalizing b with
  | nil => exact .refl
  | cons batch batches ih =>
    rw [List.forall_mem_cons] at h
    rw [List.foldl_cons]
    exact (translateUnit_becomes batch.target batch.pack h.1 b).trans (ih h.2 (b.translate batch))

theorem after_grows (b : Builder) (batches : List Batch) : b.Grows (b.after batches) :=
  (@after_becomes (fun _ => True) batches (fun _ _ _ _ _ _ => trivial) b).grows

/-- Adding macros changes nothing but the macros. -/
theorem addMacros_eq (b : Builder) (ds : List Macro) :
    b.addMacros ds =
      { b with spaces := { b.spaces with macros := (b.addMacros ds).spaces.macros } } := by
  unfold addMacros
  induction ds generalizing b with
  | nil => rfl
  | cons d ds ih =>
    rw [List.foldl_cons, ih]
    rfl

end Builder

end ForeignCall
