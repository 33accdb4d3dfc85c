import ForeignCall.Constant.Literal
import Mathlib.Data.Nat.Digits.Defs
import Mathlib.Tactic.Common

/-!
# ForeignCall.Proofs.Constant.Literals

Integer literals as C has them: what their digits spell, and what the reader makes of them. The
reader allows more suffixes than C, and it has no values beyond a signed word of 64 bits.

* `Radix`, `IsNumeral` — the numerals of C, with their exact values;
* `splitSuffix_append`, `ofDigits?_splitBase_eq_some_iff` — how the reader takes a literal apart;
* `intLiteral?_append` — the value of a numeral with a suffix;
* `exists_isNumeral_of_intLiteral?` — what has a value is a numeral with a suffix.
-/

namespace ForeignCall

/-! ## Numerals -/

/-- A character stands for a number as a digit of `base`; letters are of either case. -/
def IsDigit (base : Nat) (c : Char) (d : Nat) : Prop :=
  d < base ∧ (c = d.digitChar ∨ c = d.digitChar.toUpper)

/-- Digits of `base` spell a number. -/
def Spells (base : Nat) (s : List Char) (n : Nat) : Prop :=
  ∃ ds, List.Forall₂ (IsDigit base) s ds ∧ Nat.ofDigits base ds.reverse = n

/-- The ways to write a number in C. -/
inductive Radix where
  | decimal | octal | hexadecimal | binary
deriving DecidableEq

namespace Radix

def base : Radix → Nat
  | decimal => 10
  | octal => 8
  | hexadecimal => 16
  | binary => 2

/-- What stands in front of the digits. -/
def starts : Radix → List (List Char)
  | decimal => [[]]
  | octal => [['0']]
  | hexadecimal => [['0', 'x'], ['0', 'X']]
  | binary => [['0', 'b'], ['0', 'B']]

/-- Decimal digits do not start with a zero, octal ones may be missing, as in `0`. -/
def Allows : Radix → List Char → Prop
  | decimal, digits => digits ≠ [] ∧ digits.head? ≠ some '0'
  | octal, _ => True
  | hexadecimal, digits | binary, digits => digits ≠ []

theorem base_le (radix : Radix) : radix.base ≤ 16 := by cases radix <;> decide

end Radix

/-- A numeral of C, with its exact value. -/
def IsNumeral (radix : Radix) (s : List Char) (n : Nat) : Prop :=
  ∃ start ∈ radix.starts, ∃ digits, s = start ++ digits ∧ radix.Allows digits ∧
    Spells radix.base digits n

variable {base n acc d : Nat} {c : Char} {s body run digits : List Char} {radix : Radix}

/-! ## Digits -/

theorem digitValue_eq_some_iff (hd : d < 16) :
    Text.digitValue c = some d ↔ c = d.digitChar ∨ c = d.digitChar.toUpper := by
  constructor
  · intro h
    have hc : c.toNat < 123 := by
      unfold Text.digitValue at h
      dsimp only at h
      split at h
      · omega
      · split at h
        · omega
        · split at h
          · omega
          · cases h
    have htable : ∀ m < 123, ∀ d < 16, Text.digitValue (Char.ofNat m) = some d →
        Char.ofNat m = d.digitChar ∨ Char.ofNat m = d.digitChar.toUpper := by decide +kernel
    rw [← Char.ofNat_toNat c] at h ⊢
    exact htable _ hc _ hd h
  · have htable : ∀ d < 16, Text.digitValue d.digitChar = some d ∧
        Text.digitValue d.digitChar.toUpper = some d := by decide
    rintro (rfl | rfl)
    · exact (htable d hd).1
    · exact (htable d hd).2

theorem digitIn_eq_some_iff (hbase : base ≤ 16) :
    Text.digitIn base c = some d ↔ IsDigit base c d := by
  rw [Text.digitIn, Option.filter_eq_some_iff, decide_eq_true_iff, and_comm, IsDigit]
  exact and_congr_right fun hd => digitValue_eq_some_iff (hd.trans_le hbase)

theorem foldDigits_eq_some_iff (hbase : base ≤ 16) :
    Text.foldDigits base acc s = some n ↔
      ∃ ds, List.Forall₂ (IsDigit base) s ds ∧ ds.foldl (fun m d => m * base + d) acc = n := by
  induction s generalizing acc with
  | nil =>
    constructor
    · intro h
      exact ⟨[], .nil, Option.some.inj h⟩
    · rintro ⟨_, hds, hn⟩
      cases hds
      exact congrArg some hn
  | cons c s ih =>
    simp only [Text.foldDigits, Option.bind_eq_some_iff, digitIn_eq_some_iff hbase, ih]
    constructor
    · rintro ⟨d, hd, ds, hds, hn⟩
      exact ⟨d :: ds, .cons hd hds, hn⟩
    · rintro ⟨_, hds, hn⟩
      cases hds with
      | cons hd hds => exact ⟨_, hd, _, hds, hn⟩

theorem ofDigits_reverse (base : Nat) (ds : List Nat) :
    Nat.ofDigits base ds.reverse = ds.foldl (fun m d => m * base + d) 0 := by
  rw [Nat.ofDigits_eq_foldr, List.foldr_reverse]
  congr 1
  funext m d
  rw [Nat.cast_id, Nat.mul_comm, Nat.add_comm]

theorem ofDigits?_eq_some_iff (hbase : base ≤ 16) :
    Text.ofDigits? base s = some n ↔ s ≠ [] ∧ Spells base s n := by
  unfold Text.ofDigits? Spells
  rw [Option.ite_none_left_eq_some, List.isEmpty_iff, foldDigits_eq_some_iff hbase]
  simp only [ofDigits_reverse, ne_eq]

/-! ## Starts -/

theorem isNumeral_of_ofDigits? (radix : Radix) {start : List Char} (hstart : start ∈ radix.starts)
    (hallows : digits ≠ [] → radix.Allows digits) (h : Text.ofDigits? radix.base digits = some n) :
    IsNumeral radix (start ++ digits) n := by
  obtain ⟨hne, hspells⟩ := (ofDigits?_eq_some_iff radix.base_le).mp h
  exact ⟨start, hstart, digits, rfl, hallows hne, hspells⟩

theorem ofDigits?_of_spells (radix : Radix) (hne : digits ≠ [])
    (h : Spells radix.base digits n) : Text.ofDigits? radix.base digits = some n :=
  (ofDigits?_eq_some_iff radix.base_le).mpr ⟨hne, h⟩

theorem splitBase_of_head?_ne (h : s.head? ≠ some '0') : splitBase s = (10, s) := by
  unfold splitBase
  split <;> first | rfl | simp at h

/-- Behind a zero octal digits do not name another base. -/
theorem splitBase_octal (hc : IsDigit 8 c d) : splitBase ('0' :: c :: s) = (8, c :: s) := by
  have hdigits : ∀ d < 8, d.digitChar ∉ ['x', 'X', 'b', 'B'] ∧
      d.digitChar.toUpper ∉ ['x', 'X', 'b', 'B'] := by decide
  have hne : c ∉ ['x', 'X', 'b', 'B'] := by
    obtain ⟨hd, rfl | rfl⟩ := hc
    · exact (hdigits d hd).1
    · exact (hdigits d hd).2
  unfold splitBase
  split <;> simp_all

/-- What the reader finds behind the start of a text is what the numerals of C have there. -/
theorem ofDigits?_splitBase_eq_some_iff :
    Text.ofDigits? (splitBase s).1 (splitBase s).2 = some n ↔ ∃ radix, IsNumeral radix s n := by
  constructor
  · intro h
    unfold splitBase at h
    split at h
    · exact ⟨_, isNumeral_of_ofDigits? .hexadecimal (.head _) id h⟩
    · exact ⟨_, isNumeral_of_ofDigits? .hexadecimal (.tail _ (.head _)) id h⟩
    · exact ⟨_, isNumeral_of_ofDigits? .binary (.head _) id h⟩
    · exact ⟨_, isNumeral_of_ofDigits? .binary (.tail _ (.head _)) id h⟩
    · exact ⟨_, isNumeral_of_ofDigits? .octal (.head _) (fun _ => trivial) h⟩
    · next hoctal =>
      by_cases hzero : s = ['0']
      · subst hzero
        exact ⟨.octal, _, .head _, [], rfl, trivial, [], .nil, Option.some.inj h⟩
      · refine ⟨_, isNumeral_of_ofDigits? .decimal (.head _) (fun hne => ⟨hne, fun hhead => ?_⟩) h⟩
        obtain ⟨rest, rfl⟩ := List.head?_eq_some_iff.mp hhead
        cases rest with
        | nil => exact hzero rfl
        | cons c rest => exact hoctal c rest rfl
  · rintro ⟨radix, start, hstart, digits, rfl, hallows, hspells⟩
    cases radix with
    | decimal =>
      obtain rfl := List.mem_singleton.mp hstart
      rw [List.nil_append, splitBase_of_head?_ne hallows.2]
      exact ofDigits?_of_spells .decimal hallows.1 hspells
    | octal =>
      obtain rfl := List.mem_singleton.mp hstart
      obtain ⟨ds, hds, rfl⟩ := hspells
      cases hds with
      | nil => rfl
      | cons hd hds =>
        rw [List.singleton_append, splitBase_octal hd]
        exact ofDigits?_of_spells .octal (List.cons_ne_nil _ _) ⟨_, .cons hd hds, rfl⟩
    | hexadecimal | binary =>
      simp only [Radix.starts, List.mem_cons, List.not_mem_nil, or_false] at hstart
      rcases hstart with rfl | rfl <;> exact ofDigits?_of_spells _ hallows hspells

/-! ## Ends -/

/-- A suffix as the reader allows it: up to three of its letters, in any order. -/
def IsLooseSuffix (run : List Char) : Prop := run.length ≤ 3 ∧ run.all isSuffixLetter

instance (run : List Char) : Decidable (IsLooseSuffix run) := inferInstanceAs (Decidable (_ ∧ _))

theorem splitSuffix_append (hrun : run.all isSuffixLetter)
    (hbody : ∀ c ∈ body, ¬isSuffixLetter c) : splitSuffix (body ++ run) = (body, run.length) := by
  have hrun' : ∀ c ∈ run.reverse, isSuffixLetter c := fun c hc =>
    List.all_eq_true.mp hrun c (List.mem_reverse.mp hc)
  unfold splitSuffix
  dsimp only
  rw [List.reverse_append, List.takeWhile_append_of_pos hrun', List.dropWhile_append_of_pos hrun']
  cases hreverse : body.reverse with
  | nil => simp [List.reverse_eq_nil_iff.mp hreverse]
  | cons c rest =>
    have hc : ¬isSuffixLetter c := hbody c (List.mem_reverse.mp (hreverse ▸ List.mem_cons_self))
    rw [List.takeWhile_cons_of_neg hc, List.dropWhile_cons_of_neg hc, ← hreverse,
      List.reverse_reverse, List.append_nil, List.length_reverse]

/-- A text is what the reader splits it into. -/
theorem append_splitSuffix (s : List Char) :
    ∃ run, s = (splitSuffix s).1 ++ run ∧ run.length = (splitSuffix s).2 ∧
      run.all isSuffixLetter := by
  refine ⟨(s.reverse.takeWhile isSuffixLetter).reverse, ?_, List.length_reverse, ?_⟩
  · unfold splitSuffix
    rw [← List.reverse_append, List.takeWhile_append_dropWhile, List.reverse_reverse]
  · rw [List.all_reverse, List.all_takeWhile]

theorem exists_isDigit {ds : List Nat} (h : List.Forall₂ (IsDigit base) s ds) (hc : c ∈ s) :
    ∃ d, IsDigit base c d := by
  induction h with
  | nil => cases hc
  | cons hd _ ih =>
    rcases List.mem_cons.mp hc with rfl | hc
    · exact ⟨_, hd⟩
    · exact ih hc

/-- What holds of all that names a base and of all digits holds of a numeral. -/
theorem IsNumeral.forall_mem (h : IsNumeral radix s n) {p : Char → Bool}
    (hstarts : radix.starts.all (·.all p))
    (hdigits : ∀ d < 16, p d.digitChar ∧ p d.digitChar.toUpper) (hc : c ∈ s) : p c := by
  obtain ⟨start, hstart, digits, rfl, -, ds, hds, -⟩ := h
  rcases List.mem_append.mp hc with hc | hc
  · exact List.all_eq_true.mp (List.all_eq_true.mp hstarts start hstart) c hc
  · obtain ⟨d, hd, rfl | rfl⟩ := exists_isDigit hds hc
    · exact (hdigits d (hd.trans_le radix.base_le)).1
    · exact (hdigits d (hd.trans_le radix.base_le)).2

/-- No letter of a suffix is a digit or names a base. -/
theorem IsNumeral.not_isSuffixLetter (h : IsNumeral radix s n) (hc : c ∈ s) :
    ¬isSuffixLetter c := by
  have hother : !isSuffixLetter c :=
    h.forall_mem (p := (!isSuffixLetter ·)) (by cases radix <;> decide) (by decide +kernel) hc
  simpa using hother

theorem IsNumeral.isAlphanum (h : IsNumeral radix s n) (hc : c ∈ s) : c.isAlphanum :=
  h.forall_mem (p := Char.isAlphanum) (by cases radix <;> decide) (by decide +kernel) hc

theorem isAlphanum_of_isSuffixLetter (h : isSuffixLetter c) : c.isAlphanum := by
  simp only [isSuffixLetter, Bool.or_eq_true, decide_eq_true_eq] at h
  rcases h with ((rfl | rfl) | rfl) | rfl <;> decide

/-! ## Values -/

/-- A numeral with a suffix has its exact value, if this is at most the greatest word. -/
theorem intLiteral?_append (h : IsNumeral radix body n) (hrun : IsLooseSuffix run) :
    intLiteral? (body ++ run) = if n ≤ maxInt64 then some (Int64.ofNat n) else none := by
  have hvalue := ofDigits?_splitBase_eq_some_iff.mpr ⟨radix, h⟩
  unfold intLiteral?
  rw [splitSuffix_append hrun.2 fun c => h.not_isSuffixLetter]
  dsimp only
  rw [if_neg (Nat.not_lt.mpr hrun.1), hvalue]
  by_cases hmax : n ≤ maxInt64
  · rw [Option.filter_some, if_pos (decide_eq_true hmax), if_pos hmax, Option.map_some]
  · rw [Option.filter_some, if_neg (by simpa using hmax), if_neg hmax, Option.map_none]

/-- A text without the form of a numeral with a suffix has no value. -/
theorem intLiteral?_eq_none
    (h : ∀ radix body n run, s = body ++ run → IsNumeral radix body n → ¬IsLooseSuffix run) :
    intLiteral? s = none := by
  obtain ⟨run, hs, hlength, hletters⟩ := append_splitSuffix s
  unfold intLiteral?
  dsimp only
  split
  · rfl
  · next hshort =>
    cases hvalue : Text.ofDigits? (splitBase (splitSuffix s).1).1 (splitBase (splitSuffix s).1).2 with
    | none => rfl
    | some n =>
      obtain ⟨radix, hnumeral⟩ := ofDigits?_splitBase_eq_some_iff.mp hvalue
      exact absurd ⟨hlength ▸ Nat.not_lt.mp hshort, hletters⟩ (h radix _ n run hs hnumeral)

/-- What has a value is a numeral with a suffix, and has the value of the numeral. -/
theorem exists_isNumeral_of_intLiteral? {w : Int64} (h : intLiteral? s = some w) :
    ∃ radix body n run, s = body ++ run ∧ IsNumeral radix body n ∧ IsLooseSuffix run ∧
      w.toInt = n := by
  by_contra hform
  have hnone : intLiteral? s = none := by
    refine intLiteral?_eq_none fun radix body n run hs hnumeral hrun => ?_
    rw [hs, intLiteral?_append hnumeral hrun] at h
    split at h
    · next hmax =>
      obtain rfl := Option.some.inj h
      have hlt : n < 2 ^ 63 := by
        unfold maxInt64 at hmax
        omega
      exact hform ⟨radix, body, n, run, hs, hnumeral, hrun, Int64.toInt_ofNat_of_lt hlt⟩
    · cases h
  cases hnone.symm.trans h

/-- Literals have no sign. -/
theorem nonneg_of_intLiteral? {w : Int64} (h : intLiteral? s = some w) : 0 ≤ w.toInt := by
  obtain ⟨-, -, n, -, -, -, -, hw⟩ := exists_isNumeral_of_intLiteral? h
  omega

/-- Literals have letters and digits only. -/
theorem isAlphanum_of_intLiteral? {w : Int64} (h : intLiteral? s = some w) (hc : c ∈ s) :
    c.isAlphanum := by
  obtain ⟨radix, body, n, run, rfl, hnumeral, hrun, -⟩ := exists_isNumeral_of_intLiteral? h
  rcases List.mem_append.mp hc with hc | hc
  · exact hnumeral.isAlphanum hc
  · exact isAlphanum_of_isSuffixLetter (List.all_eq_true.mp hrun.2 c hc)

end ForeignCall
