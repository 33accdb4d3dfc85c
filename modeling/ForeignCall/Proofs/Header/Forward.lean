import ForeignCall.Proofs.Declaration.Mentions
import ForeignCall.Proofs.Header.Contributions
import ForeignCall.Proofs.Header.Declared

/-!
# ForeignCall.Proofs.Header.Forward

Declaring a tag in advance. A translation from a header in which a tag has been declared gives what
it gives without, and leaves what it leaves without, in which the tag is declared then. So the
declaration of a tag alone can stand anywhere in a file, and it shows at most in a placeholder for a
tag that occurs nowhere else.

* `Build.Mentions` — a step does not depend on declarations in advance, and when it succeeds it has
  entered the tags that it mentions and no others;
* `translateUnit_mentions` — the translation of a file mentions the tags in it;
* `Builder.forward_declaration` — the declaration of a tag anywhere in a file.
-/

namespace ForeignCall

/-! ## Steps that mention tags -/

namespace Build

variable {α β : Type} {tags tags' : List Tag}

/-- A step is not disturbed by a tag that has been declared in advance, and if it succeeds the tags
with entries afterwards are `tags` and those that had entries before. -/
structure Mentions (tags : List Tag) (x : Build α) : Prop where
  blind : ∀ (b : Builder) kind name, runFrom (b.declare kind name) x =
    ((runFrom b x).1, (runFrom b x).2.declare kind name)
  entered : ∀ {b a b'}, runFrom b x = (.ok a, b') →
    ∀ tag, b'.Entered tag ↔ tag ∈ tags ∨ b.Entered tag

theorem mentions_pure (a : α) : Mentions [] (pure a) where
  blind _ _ _ := rfl
  entered h tag := by
    cases h
    simp

theorem mentions_throw (tags : List Tag) (e : TranslationError) :
    Mentions tags (throw e : Build α) :=
  ⟨fun _ _ _ => rfl, fun h => nomatch h⟩

theorem mentions_bind {x : Build α} {f : α → Build β} (hx : Mentions tags x)
    (hf : ∀ a, Mentions tags' (f a)) : Mentions (tags ++ tags') (x >>= f) where
  blind b kind name := by
    have hblind := hx.blind b kind name
    rw [runFrom_bind, runFrom_bind, hblind]
    generalize runFrom b x = p
    obtain ⟨e | a, b'⟩ := p
    · rfl
    · exact (hf a).blind b' kind name
  entered h tag := by
    rw [runFrom_bind_eq_ok] at h
    obtain ⟨a, b₁, hfirst, hrest⟩ := h
    rw [(hf a).entered hrest, hx.entered hfirst, List.mem_append]
    tauto

/-- A step behind one that mentions tags. -/
theorem Mentions.then {x : Build α} {f : α → Build β} (hx : Mentions tags x)
    (hf : ∀ a, Mentions [] (f a)) : Mentions tags (x >>= f) :=
  List.append_nil tags ▸ mentions_bind hx hf

/-- A step that looks at the header, but not at the tags that are merely declared. -/
theorem mentions_read {f : Builder → Build α}
    (hread : ∀ (b : Builder) kind name, f (b.declare kind name) = f b)
    (hf : ∀ b, Mentions tags (f b)) : Mentions tags (get >>= f) where
  blind b kind name := by
    rw [runFrom_bind_ok (runFrom_get _), runFrom_bind_ok (runFrom_get b), hread]
    exact (hf b).blind b kind name
  entered {b _ _} h := by
    rw [runFrom_bind_ok (runFrom_get b)] at h
    exact (hf b).entered h

theorem Mentions.adapt (f : TranslationError → TranslationError) {x : Build α}
    (hx : Mentions tags x) : Mentions tags (ExceptT.adapt f x) where
  blind b kind name := by
    rw [runFrom_adapt, runFrom_adapt, hx.blind]
  entered {b _ _} h := by
    have hfirst := congrArg Prod.fst h
    have hsecond := congrArg Prod.snd h
    rw [runFrom_adapt] at hfirst hsecond
    refine hx.entered (b := b) (Prod.ext ?_ hsecond)
    cases hr : (runFrom b x).1 with
    | error e =>
      rw [hr] at hfirst
      cases hfirst
    | ok a =>
      rw [hr] at hfirst
      exact hfirst

theorem mentions_modify {f : Builder → Builder}
    (hblind : ∀ (b : Builder) kind name, f (b.declare kind name) = (f b).declare kind name)
    (hentered : ∀ b tag, (f b).Entered tag ↔ tag ∈ tags ∨ b.Entered tag) :
    Mentions tags (modify f : Build PUnit) where
  blind b kind name := Prod.ext rfl (hblind b kind name)
  entered h tag := by
    cases h
    exact hentered _ tag

/-- A step that leaves the tags alone. -/
theorem mentions_modify_of_tags {f : Builder → Builder}
    (hentry : ∀ b kind name, (f b).aggregate? kind name = b.aggregate? kind name)
    (hset : ∀ b kind name t, f (b.setAggregate kind name t) = (f b).setAggregate kind name t) :
    Mentions [] (modify f : Build PUnit) := by
  refine mentions_modify (Builder.declare_of_tags f hentry hset) fun b tag => ?_
  rw [Builder.Entered, hentry]
  simp [Builder.Entered]

theorem mentions_store {f : Builder → Except Conflict Builder}
    (hblind : ∀ (b : Builder) kind name, f (b.declare kind name) =
      (f b).map fun b' => b'.declare kind name)
    (hentered : ∀ {b b'}, f b = .ok b' → ∀ tag, b'.Entered tag ↔ tag ∈ tags ∨ b.Entered tag) :
    Mentions tags (Context.store f) where
  blind b kind name := by
    unfold Context.store
    rw [runFrom_bind_ok (runFrom_get _), runFrom_bind_ok (runFrom_get b), hblind]
    cases f b <;> rfl
  entered {b _ b'} h tag := by
    unfold Context.store at h
    rw [runFrom_bind_ok (runFrom_get b)] at h
    cases hf : f b with
    | error c =>
      rw [hf] at h
      cases h
    | ok b₁ =>
      rw [hf] at h
      cases h
      exact hentered hf tag

end Build

/-! ## Constants and declared names -/

open Build

namespace Context

/-- What follows the layout of an operand, whichever sizes `fits` lets through. -/
theorem mentions_sizeOf_layout (fits : Int → Option Int64) (x : Except LayoutError Layout)
    (error : ConstError) :
    Mentions [] (match x with
      | .error e => throw (.layout e)
      | .ok l =>
        match fits l.size with
        | some n => pure n
        | none => raise error) := by
  cases x with
  | error e => exact mentions_throw _ _
  | ok l =>
    dsimp only
    split
    · exact mentions_pure _
    · exact mentions_throw _ _

theorem mentions_sizeOf (cx : Context) {operand : Operand} {tags : List Tag}
    (h : Mentions tags operand.translate) : Mentions tags (cx.sizeOf operand) := by
  unfold sizeOf
  -- comparing a size with the bound of a word by definition would count down from the bound
  generalize fit = fits
  refine h.then fun t => mentions_read (fun b kind name => ?_) fun b =>
    mentions_sizeOf_layout fits _ _
  rw [Builder.complete_declare]

theorem mentions_castTo (cx : Context) {operand : Operand} {tags : List Tag}
    (h : Mentions tags operand.translate) (value : Int64) :
    Mentions tags (cx.castTo operand value) := by
  unfold castTo
  refine h.then fun t => ?_
  split
  · exact mentions_throw _ _
  · exact mentions_throw _ _
  · split
    · exact mentions_pure _
    · exact mentions_throw _ _

theorem mentions_orRaise (cx : Context) (error : ConstError) (v : Option Int64) :
    Mentions [] (orRaise cx.environment error v) := by
  cases v with
  | none => exact mentions_throw _ _
  | some v => exact mentions_pure v

theorem mentions_wordsType (cx : Context) (words : List String) :
    Mentions [] (cx.wordsType words) := by
  unfold wordsType
  refine mentions_read (fun b kind name => ?_) fun b => ?_
  · simp only [Builder.typedef?_declare]
  · dsimp only
    split
    · exact mentions_pure _
    · split
      · exact mentions_throw _ _
      · exact mentions_pure _
      · exact mentions_throw _ _

theorem mentions_declareTag (cx : Context) (kind : TagKind) (tag : Option String) :
    Mentions (tag.toList.map (Tag.mk kind)) (cx.declareTag kind tag) := by
  cases tag with
  | none => exact mentions_throw _ _
  | some name =>
    refine Mentions.then (mentions_modify (fun b kind' name' => ?_) fun b tag => ?_)
      fun _ => mentions_pure _
    · exact b.declare_comm kind' kind name' name
    · exact b.entered_declare kind name tag

theorem mentions_defineTag (kind : TagKind) (tag : Option String) (members : List (Member CType)) :
    Mentions (tag.toList.map (Tag.mk kind)) (defineTag kind tag members) := by
  cases tag with
  | none => exact mentions_pure _
  | some name =>
    refine Mentions.then (mentions_store (fun b kind' name' => ?_) fun h tag => ?_)
      fun _ => mentions_pure _
    · exact b.define_declare kind' kind name' name _
    · exact Builder.entered_define h tag

theorem mentions_defineEnumTag (tag : Option String) (values : List (String × Int64)) :
    Mentions [] (defineEnumTag tag values) := by
  cases tag with
  | none => exact mentions_pure _
  | some name =>
    exact Mentions.then (mentions_store (fun b kind name' => b.defineEnum_declare kind name' name _)
      Builder.entered_defineEnum) fun _ => mentions_pure _

theorem mentions_enumOf (cx : Context) (tag : Option String) : Mentions [] (cx.enumOf tag) := by
  unfold enumOf
  refine mentions_read (fun b kind name => ?_) fun b => ?_
  · rw [Builder.enum?_declare]
  · split
    · exact mentions_pure _
    · exact mentions_throw _ _

theorem mentions_addEnumerator (tag : Option String) (name : String) (value : Int64) :
    Mentions [] (addEnumerator tag name value) := by
  unfold addEnumerator
  refine Mentions.then (mentions_modify_of_tags (fun b kind name => by cases kind <;> rfl)
    fun b kind name t => by cases kind <;> rfl) fun _ => ?_
  split
  · exact mentions_pure _
  · exact mentions_throw _ _

end Context

/-! ## Types -/

open Context

mutual

/-- The translation of a type mentions the tags in it. -/
theorem TypeNode.translate_mentions (cx : Context) : (t : TypeNode) →
    Mentions t.mentions (t.translate cx)
  | .identifier words => cx.mentions_wordsType words
  | .pointer base => (TypeNode.translate_mentions cx base).then fun _ => mentions_pure _
  | .array base none => (TypeNode.translate_mentions cx base).then fun _ => mentions_pure _
  | .array base (some dim) => by
    have hdim : Mentions (exprMentions dim)
        (cx.dimension (base.display ++ "[" ++ exprText dim ++ "]") (lower cx dim)) := by
      refine ((evaluate_mentions cx dim).adapt _).then fun v => ?_
      split
      · exact mentions_throw _ _
      · exact mentions_pure _
    exact mentions_bind (TypeNode.translate_mentions cx base) fun _ =>
      hdim.then fun _ => mentions_pure _
  | .function none ret variadic =>
    (TypeNode.translate_mentions cx ret).then fun _ => mentions_pure _
  | .function (some params) ret variadic => by
    have hret : ∀ members : List (Member CType), Mentions ret.mentions
        (ret.translate cx >>= fun t => pure (CType.func members t variadic)) := fun _ =>
      (TypeNode.translate_mentions cx ret).then fun _ => mentions_pure _
    rw [TypeNode.translate]
    split
    · next hvoid =>
      -- the word `void` mentions no tag
      obtain ⟨coord, rfl⟩ := eq_of_isVoidList hvoid
      exact mentions_bind (mentions_pure []) hret
    · exact mentions_bind (translateMembers_mentions cx params) hret
  | .aggregate kind tag none => cx.mentions_declareTag kind tag
  | .aggregate kind tag (some fields) =>
    mentions_bind (translateMembers_mentions cx fields) fun members =>
      mentions_defineTag kind tag members
  | .enum tag none => cx.mentions_enumOf tag
  | .enum tag (some es) =>
    (translateValues_mentions cx tag 0 es).then fun values => mentions_defineEnumTag tag values
  | .other kind text => mentions_throw _ _

theorem translateMembers_mentions (cx : Context) : (ds : List (Declarator TypeNode)) →
    Mentions (memberMentions ds) (translateMembers cx ds)
  | [] => mentions_pure _
  | ⟨_, t, _⟩ :: ds =>
    mentions_bind (TypeNode.translate_mentions cx t) fun _ =>
      (translateMembers_mentions cx ds).then fun _ => mentions_pure _

theorem translateValues_mentions (cx : Context) (tag : Option String) (next : Int64) :
    (es : List (Enumerator (Expr TypeNode))) →
    Mentions (valueMentions es) (translateValues cx tag next es)
  | [] => mentions_pure _
  | ⟨name, none⟩ :: es =>
    mentions_bind (mentions_addEnumerator tag name next) fun after =>
      (translateValues_mentions cx tag after es).then fun _ => mentions_pure _
  | ⟨name, some e⟩ :: es =>
    mentions_bind ((evaluate_mentions cx e).adapt _) fun value =>
      mentions_bind (mentions_addEnumerator tag name value) fun after =>
        (translateValues_mentions cx tag after es).then fun _ => mentions_pure _

/-- The evaluation of an expression mentions the tags in it. -/
theorem evaluate_mentions (cx : Context) : (e : Expr TypeNode) →
    Mentions (exprMentions e) ((lower cx e).evaluate cx.environment)
  | .literal kind text => by
    rw [lower]
    cases kind with
    | int => exact cx.mentions_orRaise _ _
    | char | float | string => exact mentions_throw _ _
  | .ident name => by
    rw [lower]
    refine Mentions.then (mentions_read (fun b kind name' => ?_) fun b => mentions_pure _)
      fun _ => cx.mentions_orRaise _ _
    rw [Builder.enumerator?_declare]
  | .unary op operand => by
    rw [lower, Expr.evaluate]
    refine (evaluate_mentions cx operand).then fun v => ?_
    split
    · exact cx.mentions_orRaise _ _
    · exact mentions_throw _ _
  | .binary op lhs rhs => by
    rw [lower, Expr.evaluate]
    cases binaryOp? op with
    | none => exact mentions_throw _ _
    | some f =>
      exact mentions_bind (evaluate_mentions cx lhs) fun l =>
        (evaluate_mentions cx rhs).then fun r => cx.mentions_orRaise _ _
  | .sizeofType t => by
    rw [lower]
    exact cx.mentions_sizeOf (TypeNode.translate_mentions cx t)
  | .cast t operand => by
    rw [lower]
    exact mentions_bind (evaluate_mentions cx operand) fun value =>
      cx.mentions_castTo (TypeNode.translate_mentions cx t) value
  | .other kind text => by
    rw [lower]
    exact mentions_throw _ _

end

/-! ## Declarations -/

theorem storeNameless_mentions (t : CType) : Mentions [] (storeNameless t) := by
  unfold storeNameless
  split
  · exact mentions_store (fun b kind name => b.defineEnum_declare kind name _ _)
      Builder.entered_defineEnum
  · exact mentions_pure _

theorem Declarator.translate_mentions (target : Target) (pack : Nat) (d : Declarator TypeNode) :
    Mentions d.type.mentions (d.translate target pack) := by
  unfold Declarator.translate
  refine (TypeNode.translate_mentions _ d.type).then fun t => ?_
  split
  · exact mentions_modify_of_tags (fun b kind name => by cases kind <;> rfl)
      fun b kind name t => by cases kind <;> rfl
  · exact mentions_modify_of_tags (fun b kind name => by cases kind <;> rfl)
      fun b kind name t => by cases kind <;> rfl
  · exact storeNameless_mentions _

theorem Declaration.translate_mentions (target : Target) (pack : Nat) (d : Declaration) :
    Mentions d.mentions (d.translate target pack) := by
  cases d with
  | decl d => exact Declarator.translate_mentions target pack d
  | funcDef d => exact Declarator.translate_mentions target pack d
  | typedef d =>
    obtain ⟨name, t, coord⟩ := d
    cases name with
    | none => exact mentions_throw _ _
    | some name =>
      exact (TypeNode.translate_mentions _ t).then fun t =>
        mentions_modify_of_tags (fun b kind name => by cases kind <;> rfl)
          fun b kind name t => by cases kind <;> rfl
  | pragma text => exact mentions_pure _
  | other kind text => exact mentions_throw _ _

/-- **The translation of a file mentions the tags in it**, and is not disturbed by tags that have
been declared in advance. -/
theorem translateUnit_mentions (target : Target) (pack : Nat) (unit : TranslationUnit) :
    Mentions (unitMentions unit) (translateUnit target pack unit) := by
  unfold translateUnit
  induction unit with
  | nil => exact mentions_pure _
  | cons d ds ih =>
    rw [List.forM]
    exact mentions_bind (Declaration.translate_mentions target pack d) fun _ => ih

/-- The declarations of a file are translated one after the other. -/
theorem translateUnit_append (target : Target) (pack : Nat) (before behind : TranslationUnit) :
    translateUnit target pack (before ++ behind) =
      translateUnit target pack before >>= fun _ => translateUnit target pack behind := by
  unfold translateUnit
  induction before with
  | nil => rfl
  | cons d ds ih =>
    rw [List.cons_append, List.forM, List.forM, bind_assoc, ih]

/-! ## Declarations in advance -/

/-- The declaration of a tag alone, such as `struct list;`. -/
def Declaration.forward (kind : TagKind) (name : String) (coord : Option Coord) : Declaration :=
  .decl ⟨none, .aggregate kind (some name) none, coord⟩

/-- A declaration in advance at any place in a file leads to the same error or to the same header,
in which the tag is declared besides. -/
theorem runFrom_forward (target : Target) (pack : Nat) (before behind : TranslationUnit)
    (kind : TagKind) (name : String) (coord : Option Coord) (b : Builder) :
    let plain := runFrom b (translateUnit target pack (before ++ behind))
    let declared := runFrom b
      (translateUnit target pack (before ++ .forward kind name coord :: behind))
    declared.1 = plain.1 ∧ (plain.1 = .ok () → declared.2 = plain.2.declare kind name) := by
  intro plain declared
  simp only [plain, declared, translateUnit_append, runFrom_bind]
  generalize runFrom b (translateUnit target pack before) = p
  obtain ⟨e | x, b₁⟩ := p
  · exact ⟨rfl, nofun⟩
  · have hforward : runFrom b₁ (translateUnit target pack (.forward kind name coord :: behind)) =
        runFrom (b₁.declare kind name) (translateUnit target pack behind) := rfl
    dsimp only
    rw [hforward, (translateUnit_mentions target pack behind).blind]
    exact ⟨rfl, fun _ => rfl⟩

namespace Builder

/-- **The declaration of a tag in advance can stand anywhere in a file.** The translation fails with
the error that it fails with without the declaration. If it succeeds the header is the same when the
tag is mentioned elsewhere, and else it has a placeholder for the tag in addition, which changes
neither its enumerators nor the completion of any type. -/
theorem forward_declaration (target : Target) (pack : Nat) (header : String)
    (before behind : TranslationUnit) (kind : TagKind) (name : String) (coord : Option Coord) :
    let start : Builder := ⟨header, {}, .empty⟩
    let plain := runFrom start (translateUnit target pack (before ++ behind))
    let declared := runFrom start
      (translateUnit target pack (before ++ .forward kind name coord :: behind))
    let h := plain.2.freeze
    let h' := declared.2.freeze
    declared.1 = plain.1 ∧
      (plain.1 = .ok () →
        (⟨kind, name⟩ ∈ unitMentions (before ++ behind) → h' = h) ∧
        (⟨kind, name⟩ ∉ unitMentions (before ++ behind) →
          (h.spaces.aggregates kind).get? name = none ∧
            h' = ⟨h.name, h.spaces.withAggregates kind
              ((h.spaces.aggregates kind).insert name (.placeholder kind name))⟩) ∧
        h'.enumValue? = h.enumValue? ∧ h'.complete = h.complete) := by
  intro start plain declared h h'
  obtain ⟨hresult, hdeclared⟩ := runFrom_forward target pack before behind kind name coord start
  refine ⟨hresult, fun hok => ?_⟩
  have hdeclared : declared.2 = plain.2.declare kind name := hdeclared hok
  have hentered : plain.2.Entered ⟨kind, name⟩ ↔
      ⟨kind, name⟩ ∈ unitMentions (before ++ behind) := by
    have hmentions := (translateUnit_mentions target pack (before ++ behind)).entered
      (b := start) (Prod.ext hok rfl) ⟨kind, name⟩
    have hempty : ¬start.Entered ⟨kind, name⟩ := by cases kind <;> nofun
    rw [hmentions, or_iff_left hempty]
  refine ⟨fun hmem => ?_, fun hmem => ?_, ?_, ?_⟩
  · simp only [h', h, hdeclared, declare_of_isSome (hentered.mpr hmem)]
  · have hnone : plain.2.aggregate? kind name = none :=
      Option.not_isSome_iff_eq_none.mp fun hsome => hmem (hentered.mp hsome)
    refine ⟨hnone, ?_⟩
    simp only [h', hdeclared, declare_of_none hnone]
    rfl
  · funext n
    simp only [h', h, hdeclared, Header.enumValue?, freeze, enumerators_declare]
  · funext t
    simp only [h', hdeclared]
    exact complete_declare plain.2 kind name t

/-- `struct pair;` and `union pair;` in front of the definition and the size of `struct pair`. -/
theorem forward_declaration_pair :
    let start : Builder := ⟨"pair.h", {}, .empty⟩
    let headerOf := fun unit => (runFrom start (translateUnit .lp64 8 unit)).2.freeze
    let h := headerOf Batch.pair.unit
    (runFrom start (translateUnit .lp64 8 Batch.pair.unit)).1 = .ok () ∧
      headerOf (.forward .struct "pair" none :: Batch.pair.unit) = h ∧
      headerOf (.forward .union "pair" (some ⟨"pair.h", 1, 7⟩) :: Batch.pair.unit) =
        ⟨"pair.h",
          { h.spaces with unions := .insert .empty "pair" (.placeholder .union "pair") }⟩ := by
  intro start headerOf h
  have hok : (runFrom start (translateUnit .lp64 8 Batch.pair.unit)).1 = .ok () := by
    decide +kernel
  have hstruct :=
    (forward_declaration .lp64 8 "pair.h" [] Batch.pair.unit .struct "pair" none).2 hok
  have hunion := (forward_declaration .lp64 8 "pair.h" [] Batch.pair.unit .union "pair"
    (some ⟨"pair.h", 1, 7⟩)).2 hok
  have hunions : h.spaces.unions = .empty := by decide +kernel
  refine ⟨hok, hstruct.1 (by decide), (hunion.2.1 (by decide)).2.trans ?_⟩
  change Header.mk "pair.h" { h.spaces with unions := h.spaces.unions.insert "pair" _ } = _
  rw [hunions]

end Builder

end ForeignCall
