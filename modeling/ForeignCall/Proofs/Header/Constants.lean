import ForeignCall.Header.Basic
import ForeignCall.Proofs.Constant.Literals
import ForeignCall.Proofs.Constant.Words
import ForeignCall.Proofs.Text.Parts

/-!
# ForeignCall.Proofs.Header.Constants

Macros that stand for integers. The reader takes a parenthesis from the start and one from the end,
without asking whether they belong together, and the blanks inside; then it looks again. Literals
have no parentheses, so where a literal is left in the end the pairs did belong together.

* `InParens` — a text in nested pairs of parentheses;
* `Signed` — an integer as it is written, with its sign;
* `Unwraps`, `exists_unwraps` — the rounds of the reader, which end for every text;
* `inParens_iff_unwraps` — they take away nested pairs and nothing else;
* **`Header.constant?_exact`** — which macros have a value, and which one.
-/

namespace ForeignCall

/-! ## Integers in parentheses -/

/-- A text in nested pairs of parentheses, with any blanks inside of each. -/
inductive InParens (core : List Char) : Nat → List Char → Prop where
  | bare : InParens core 0 core
  | pair {n : Nat} {before s after : List Char} (hbefore : ∀ c ∈ before, Text.isBlank c)
    (hafter : ∀ c ∈ after, Text.isBlank c) (h : InParens core n s) :
    InParens core (n + 1) ('(' :: (before ++ s ++ after ++ [')']))

/-- A literal of the magnitude of an integer, behind a minus sign if the integer is negative. Blanks
may stand between the sign and the literal; zero may have the sign or not. -/
inductive Signed (v : Int64) : List Char → Prop where
  | plain {literal : List Char} {w : Int64} (h : intLiteral? literal = some w)
    (hw : w.toInt = |v.toInt|) (hv : 0 ≤ v.toInt) : Signed v literal
  | minus {blanks literal : List Char} {w : Int64} (hblanks : ∀ c ∈ blanks, Text.isBlank c)
    (h : intLiteral? literal = some w) (hw : w.toInt = |v.toInt|) (hv : v.toInt ≤ 0) :
    Signed v ('-' :: (blanks ++ literal))

def isParen (c : Char) : Bool := c = '(' || c = ')'

/-- All parentheses that open stand in front of those that close, and there are as many of both. -/
def Nests (s : List Char) : Prop :=
  ∃ n, s.filter isParen = List.replicate n '(' ++ List.replicate n ')'

/-- The rounds in which parentheses are taken away, until a round finds none. -/
inductive Unwraps (core : List Char) : Nat → List Char → Prop where
  | done (h : unwrap? core = none) : Unwraps core 0 core
  | round {n : Nat} {s inner : List Char} (h : unwrap? s = some inner)
    (hrest : Unwraps core n (Text.trim inner)) : Unwraps core (n + 1) s

variable {core s inner : List Char} {n fuel : Nat} {v w : Int64} {c : Char}

/-! ## Parentheses -/

theorem not_isParen_of_isBlank (h : Text.isBlank c) : ¬isParen c := by
  intro hc
  simp only [isParen, Bool.or_eq_true, decide_eq_true_eq] at hc
  rcases hc with rfl | rfl <;> cases h

theorem not_isParen_of_isAlphanum (h : c.isAlphanum) : ¬isParen c := by
  intro hc
  simp only [isParen, Bool.or_eq_true, decide_eq_true_eq] at hc
  rcases hc with rfl | rfl <;> cases h

theorem filter_isParen_of_isBlank (h : ∀ c ∈ s, Text.isBlank c) : s.filter isParen = [] :=
  List.filter_eq_nil_iff.mpr fun c hc => not_isParen_of_isBlank (h c hc)

/-! ## Rounds -/

theorem unwrap?_eq_some_iff : unwrap? s = some inner ↔ s = '(' :: (inner ++ [')']) := by
  constructor
  · intro h
    unfold unwrap? at h
    split at h
    · next rest =>
      obtain ⟨hlast, hinner⟩ := Option.ite_none_right_eq_some.mp h
      obtain ⟨inside, rfl⟩ := List.getLast?_eq_some_iff.mp hlast
      rw [← Option.some.inj hinner, List.dropLast_concat]
    · cases h
  · rintro rfl
    simp [unwrap?]

theorem length_trim_le (s : List Char) : (Text.trim s).length ≤ s.length := by
  obtain ⟨before, after, -, -, hs⟩ := Text.exists_append_trim s
  have hlength := congrArg List.length hs
  simp only [List.length_append] at hlength
  omega

/-- A round takes two characters or more. -/
theorem length_trim_lt_of_unwrap? (h : unwrap? s = some inner) :
    (Text.trim inner).length + 2 ≤ s.length := by
  rw [unwrap?_eq_some_iff.mp h]
  simpa using length_trim_le inner

/-- **The rounds end**, whatever the text is. -/
theorem exists_unwraps (s : List Char) : ∃ n core, Unwraps core n s := by
  induction hlength : s.length using Nat.strongRecOn generalizing s with
  | _ k ih =>
    cases h : unwrap? s with
    | none => exact ⟨0, s, .done h⟩
    | some inner =>
      have hlt := length_trim_lt_of_unwrap? h
      obtain ⟨n, core, hrest⟩ := ih _ (by omega) (Text.trim inner) rfl
      exact ⟨n + 1, core, .round h hrest⟩

namespace Unwraps

/-- Half the length of a text is enough rounds. -/
theorem two_mul_le_length (h : Unwraps core n s) : 2 * n ≤ s.length := by
  induction h with
  | done => exact Nat.zero_le _
  | round h _ ih =>
    have hlt := length_trim_lt_of_unwrap? h
    omega

/-- A limit on the rounds does not show if it is large enough. -/
theorem unwrapAll_eq (h : Unwraps core n s) (hfuel : n ≤ fuel) : unwrapAll fuel s = core := by
  induction h generalizing fuel with
  | done h =>
    cases fuel with
    | zero => rfl
    | succ fuel => simp only [unwrapAll, h]
  | round h _ ih =>
    obtain ⟨fuel, rfl⟩ := Nat.exists_eq_succ_of_ne_zero (by omega : fuel ≠ 0)
    simp only [unwrapAll, h]
    exact ih (by omega)

theorem getLast?_core (h : Unwraps core n s) (hs : ∀ c ∈ s.getLast?, ¬Text.isBlank c) :
    ∀ c ∈ core.getLast?, ¬Text.isBlank c := by
  induction h with
  | done => exact hs
  | round _ _ ih => exact ih Text.getLast?_trim

/-- Only nested pairs are taken away: each round takes the outermost one. -/
theorem inParens (h : Unwraps core n s) : InParens core n s := by
  induction h with
  | done => exact .bare
  | @round n s inner h _ ih =>
    obtain ⟨before, after, hbefore, hafter, hinner⟩ := Text.exists_append_trim inner
    have hs : s = '(' :: (before ++ Text.trim inner ++ after ++ [')']) := by
      rw [← hinner, unwrap?_eq_some_iff.mp h]
    exact hs ▸ .pair hbefore hafter ih

end Unwraps

namespace InParens

theorem trimmed (h : InParens core n s) (hcore : Text.Trimmed core) (hne : core ≠ []) :
    Text.Trimmed s ∧ s ≠ [] := by
  cases h with
  | bare => exact ⟨hcore, hne⟩
  | @pair n before s after =>
    have hlast : ('(' :: (before ++ s ++ after ++ [')'])).getLast? = some ')' := by
      rw [← List.cons_append, List.getLast?_concat]
    refine ⟨⟨?_, ?_⟩, List.cons_ne_nil _ _⟩
    · rintro c ⟨⟩
      decide
    · rw [hlast]
      rintro c ⟨⟩
      decide

/-- Nested pairs are taken away down to what has none around it. -/
theorem unwraps (h : InParens core n s) (hcore : Text.Trimmed core) (hne : core ≠ [])
    (hdone : unwrap? core = none) : Unwraps core n s := by
  induction h with
  | bare => exact .done hdone
  | @pair n before s after hbefore hafter h ih =>
    obtain ⟨hs, hs'⟩ := h.trimmed hcore hne
    refine .round (unwrap?_eq_some_iff.mpr rfl) ?_
    rw [Text.trim_append hbefore hafter hs hs']
    exact ih

/-- A text without parentheses has just the pairs around it. -/
theorem filter_isParen (h : InParens core n s) (hcore : ∀ c ∈ core, ¬isParen c) :
    s.filter isParen = List.replicate n '(' ++ List.replicate n ')' := by
  induction h with
  | bare => simpa using hcore
  | @pair n before s after hbefore hafter h ih =>
    have hopen : isParen '(' = true := by decide
    have hclose : [')'].filter isParen = [')'] := by decide
    have hclosing : List.replicate (n + 1) ')' = List.replicate n ')' ++ [')'] :=
      List.replicate_succ'
    rw [List.filter_cons_of_pos hopen, List.filter_append, List.filter_append, List.filter_append,
      filter_isParen_of_isBlank hbefore, filter_isParen_of_isBlank hafter, ih, hclose, hclosing,
      List.nil_append, List.append_nil, List.append_assoc]
    rfl

end InParens

/-- Where a text without parentheses is left in the end, the rounds have taken away nested pairs. -/
theorem inParens_iff_unwraps (hcore : Text.Trimmed core) (hne : core ≠ [])
    (hparens : ∀ c ∈ core, ¬isParen c) : InParens core n s ↔ Unwraps core n s := by
  refine ⟨fun h => h.unwraps hcore hne ?_, Unwraps.inParens⟩
  refine Option.eq_none_iff_forall_ne_some.mpr fun inner hinner => ?_
  rw [unwrap?_eq_some_iff.mp hinner] at hparens
  exact hparens '(' List.mem_cons_self (by decide)

/-! ## Signed literals -/

/-- A literal has no blanks. -/
theorem trimmed_of_intLiteral? (h : intLiteral? s = some w) : Text.Trimmed s ∧ s ≠ [] := by
  refine ⟨⟨fun c hc => ?_, fun c hc => ?_⟩, ?_⟩
  · exact Text.not_isBlank_of_isAlphanum (isAlphanum_of_intLiteral? h (List.mem_of_mem_head? hc))
  · exact Text.not_isBlank_of_isAlphanum (isAlphanum_of_intLiteral? h (List.mem_of_getLast? hc))
  · rintro rfl
    cases h

namespace Signed

theorem trimmed (h : Signed v core) : Text.Trimmed core ∧ core ≠ [] := by
  cases h with
  | plain h => exact trimmed_of_intLiteral? h
  | @minus blanks literal w hblanks h =>
    obtain ⟨⟨-, hlast⟩, hne⟩ := trimmed_of_intLiteral? h
    refine ⟨⟨?_, ?_⟩, List.cons_ne_nil _ _⟩
    · rintro c ⟨⟩
      decide
    · have hsame : ('-' :: blanks ++ literal).getLast? = literal.getLast? := by
        rw [List.getLast?_append, List.getLast?_eq_some_getLast hne, Option.some_or]
      rw [← List.cons_append, hsame]
      exact hlast

theorem not_isParen (h : Signed v core) : ∀ c ∈ core, ¬isParen c := by
  intro c hc
  cases h with
  | plain h => exact not_isParen_of_isAlphanum (isAlphanum_of_intLiteral? h hc)
  | minus hblanks h =>
    rcases List.mem_cons.mp hc with rfl | hc
    · decide
    · rcases List.mem_append.mp hc with hc | hc
      · exact not_isParen_of_isBlank (hblanks c hc)
      · exact not_isParen_of_isAlphanum (isAlphanum_of_intLiteral? h hc)

end Signed

/-- A text without a minus sign is read as a literal. -/
theorem signed_iff_of_head?_ne (h : core.head? ≠ some '-') :
    Signed v core ↔ intLiteral? core = some v := by
  constructor
  · intro hsigned
    cases hsigned with
    | plain hliteral hw hv =>
      rw [abs_of_nonneg hv, Int64.toInt_inj] at hw
      exact hw ▸ hliteral
    | minus => exact absurd rfl h
  · intro hliteral
    have hv := nonneg_of_intLiteral? hliteral
    exact .plain hliteral (abs_of_nonneg hv).symm hv

/-- Behind a minus sign a literal is read without the blanks in front of it. -/
theorem signed_minus_iff (hend : ∀ c ∈ ('-' :: s).getLast?, ¬Text.isBlank c) :
    Signed v ('-' :: s) ↔ ∃ w, intLiteral? (Text.trim s) = some w ∧ v.toInt = -w.toInt := by
  constructor
  · intro hsigned
    generalize hcore : '-' :: s = core at hsigned
    cases hsigned with
    | plain hliteral =>
      subst hcore
      exact absurd (isAlphanum_of_intLiteral? hliteral List.mem_cons_self) (by decide)
    | @minus blanks literal w hblanks hliteral hw hv =>
      obtain ⟨-, rfl⟩ := List.cons.inj hcore
      obtain ⟨htrimmed, hne⟩ := trimmed_of_intLiteral? hliteral
      have htrim : Text.trim (blanks ++ literal) = literal := by
        simpa using Text.trim_append hblanks (b := []) (by simp) htrimmed hne
      rw [abs_of_nonpos hv] at hw
      exact ⟨w, htrim.symm ▸ hliteral, by omega⟩
  · rintro ⟨w, hliteral, hv⟩
    have hw := nonneg_of_intLiteral? hliteral
    -- no blank ends the text, so all that is trimmed stands in front of the literal
    have hend' : ∀ c ∈ s.getLast?, ¬Text.isBlank c := by
      intro c hc
      rw [List.getLast?_cons, Option.mem_def.mp hc] at hend
      exact hend c rfl
    obtain ⟨blanks, hblanks, hs⟩ := Text.exists_append_trimLeft s
    rw [← Text.trim_eq_trimLeft hend'] at hs
    rw [hs]
    exact .minus hblanks hliteral (by rw [abs_of_nonpos (by omega)]; omega) (by omega)

theorem signedLiteral?_of_unwraps (h : Unwraps core n (Text.trim s)) :
    signedLiteral? s = some v ↔ Signed v core := by
  have hrounds := h.two_mul_le_length
  have hend := h.getLast?_core Text.getLast?_trim
  have hcore : unwrapAll (Text.trim s).length (Text.trim s) = core := h.unwrapAll_eq (by omega)
  simp only [signedLiteral?, hcore]
  split
  · next rest =>
    rw [signed_minus_iff hend, Option.map_eq_some_iff]
    -- a literal is not negative, so its negation is a word
    refine exists_congr fun w => and_congr_right fun hw => ?_
    have hnonneg := nonneg_of_intLiteral? hw
    have hlt := w.toInt_lt
    have hword : IsWord (-w.toInt) := ⟨by omega, by omega⟩
    rw [← Int64.toInt_inj, toInt_ofInt hword, eq_comm]
  · next hminus =>
    refine (signed_iff_of_head?_ne fun hhead => ?_).symm
    obtain ⟨rest, rfl⟩ := List.head?_eq_some_iff.mp hhead
    exact hminus rest rfl

/-- A text is read as an integer just when it is one in nested pairs of parentheses. -/
theorem signedLiteral?_eq_some_iff :
    signedLiteral? s = some v ↔ ∃ n core, InParens core n (Text.trim s) ∧ Signed v core := by
  constructor
  · intro h
    obtain ⟨n, core, hrounds⟩ := exists_unwraps (Text.trim s)
    exact ⟨n, core, hrounds.inParens, (signedLiteral?_of_unwraps hrounds).mp h⟩
  · rintro ⟨n, core, hparens, hsigned⟩
    obtain ⟨hcore, hne⟩ := hsigned.trimmed
    have hrounds := (inParens_iff_unwraps hcore hne hsigned.not_isParen).mp hparens
    exact (signedLiteral?_of_unwraps hrounds).mpr hsigned

/-- What is read as an integer has all its parentheses in nested pairs. -/
theorem nests_of_signedLiteral? (h : signedLiteral? s = some v) : Nests s := by
  obtain ⟨n, core, hparens, hsigned⟩ := signedLiteral?_eq_some_iff.mp h
  obtain ⟨before, after, hbefore, hafter, hs⟩ := Text.exists_append_trim s
  refine ⟨n, ?_⟩
  rw [hs, List.filter_append, List.filter_append, filter_isParen_of_isBlank hbefore,
    filter_isParen_of_isBlank hafter, hparens.filter_isParen hsigned.not_isParen, List.nil_append,
    List.append_nil]

example : signedLiteral? " ( (- 0x10UL) )".toList = some (-16) := by decide +kernel
example : signedLiteral? "(1)+(2)".toList = none := by decide +kernel
example : signedLiteral? "(1".toList = none := by decide +kernel

/-! ## Macros -/

theorem Header.constant?_eq_some_iff {h : Header} {name : String} :
    h.constant? name = some v ↔ ∃ d, h.spaces.macros.get? name = some d ∧ d.params = none ∧
      signedLiteral? d.replacement.toList = some v := by
  unfold Header.constant?
  cases h.spaces.macros.get? name with
  | none => simp
  | some d => cases hparams : d.params <;> simp [Macro.isFunctionLike, hparams]

/-- **Constants are read exactly.** A macro has a value just when it has no parameters and its
replacement is a literal with an optional minus sign in any number of nested parentheses; the value
is that of the literal with the sign. There is none where the parentheses do not match, stand side
by side or are left open. The rounds that take parentheses away end for every text, the last after
half its length at most. -/
theorem Header.constant?_exact (h : Header) (name : String) :
    (∀ v, h.constant? name = some v ↔
      ∃ d, h.spaces.macros.get? name = some d ∧ d.params = none ∧
        ∃ n core, InParens core n (Text.trim d.replacement.toList) ∧ Signed v core) ∧
    (∀ d, h.spaces.macros.get? name = some d → ¬Nests d.replacement.toList →
      h.constant? name = none) ∧
    ∀ s, ∃ n core, Unwraps core n s ∧ 2 * n ≤ s.length ∧
      ∀ fuel, s.length ≤ fuel → unwrapAll fuel s = core := by
  refine ⟨fun v => ?_, fun d hd hnests => ?_, fun s => ?_⟩
  · simp only [constant?_eq_some_iff, signedLiteral?_eq_some_iff]
  · refine Option.eq_none_iff_forall_ne_some.mpr fun v hv => hnests ?_
    obtain ⟨d', hd', -, hvalue⟩ := constant?_eq_some_iff.mp hv
    obtain rfl := Option.some.inj (hd.symm.trans hd')
    exact nests_of_signedLiteral? hvalue
  · obtain ⟨n, core, hrounds⟩ := exists_unwraps s
    have hlength := hrounds.two_mul_le_length
    exact ⟨n, core, hrounds, hlength, fun fuel hfuel => hrounds.unwrapAll_eq (by omega)⟩

end ForeignCall
