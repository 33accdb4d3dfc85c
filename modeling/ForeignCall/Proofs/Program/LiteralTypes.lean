import ForeignCall.Program.Literal
import ForeignCall.Proofs.Constant.Literals
import ForeignCall.Proofs.Constant.Words
import Mathlib.Data.List.Find

/-!
# ForeignCall.Proofs.Program.LiteralTypes

The types of integer literals. C has a list of candidates for each way to write a number and each
suffix, and a literal has the first type of its list that holds its value.

* `LiteralSuffix.spellings`, `candidates` — the suffixes of C, and its lists;
* `IsIntLiteral` — the integer literals of C, with their exact values;
* **`literal_typed`** — which literals have a type, and which type.
-/

namespace ForeignCall

/-! ## Literals of C -/

/-- A suffix, whichever way its letters are written. -/
inductive LiteralSuffix where
  | plain | u | l | ul | ll | ull

namespace LiteralSuffix

/-- The letters of one `ll` are of one case. -/
def spellings : LiteralSuffix → List String
  | plain => [""]
  | u => ["u", "U"]
  | l => ["l", "L"]
  | ul => ["ul", "uL", "Ul", "UL", "lu", "lU", "Lu", "LU"]
  | ll => ["ll", "LL"]
  | ull => ["ull", "uLL", "Ull", "ULL", "llu", "llU", "LLu", "LLU"]

end LiteralSuffix

/-- An integer literal of C, with its exact value. -/
def IsIntLiteral (radix : Radix) (suffix : LiteralSuffix) (text : String) (n : Nat) : Prop :=
  ∃ body, ∃ run ∈ suffix.spellings, text.toList = body ++ run.toList ∧ IsNumeral radix body n

/-- The integer types that a literal can have in C, signed ones with `true`, in their order. -/
def candidates : Radix → LiteralSuffix → List (IntKind × Bool)
  | .decimal, .plain => [(.int, true), (.long, true), (.longLong, true)]
  | _, .plain =>
    [(.int, true), (.int, false), (.long, true), (.long, false), (.longLong, true),
     (.longLong, false)]
  | _, .u => [(.int, false), (.long, false), (.longLong, false)]
  | .decimal, .l => [(.long, true), (.longLong, true)]
  | _, .l => [(.long, true), (.long, false), (.longLong, true), (.longLong, false)]
  | _, .ul => [(.long, false), (.longLong, false)]
  | .decimal, .ll => [(.longLong, true)]
  | _, .ll => [(.longLong, true), (.longLong, false)]
  | _, .ull => [(.longLong, false)]

namespace Target

/-- The sizes of the integer types are in their order, and none is beyond 64 bits. -/
structure OrdersIntegers (target : Target) : Prop where
  int : 1 ≤ target.int.size
  long : target.int.size ≤ target.long.size
  longLong : target.long.size ≤ target.longLong.size
  word : target.longLong.size ≤ 8

/-- A number is in the range of an integer type; one bit of a signed type is its sign. -/
def Holds (target : Target) (n : Nat) (candidate : IntKind × Bool) : Prop :=
  n < 2 ^ ((target.integral candidate.1).size * 8 - if candidate.2 then 1 else 0)

instance (target : Target) (n : Nat) (candidate : IntKind × Bool) :
    Decidable (target.Holds n candidate) := inferInstanceAs (Decidable (_ < _))

end Target

/-- The first type that holds a number. -/
def firstType (target : Target) (text : String) (n : Nat) (types : List (IntKind × Bool)) :
    Except LiteralError CType :=
  match types.find? fun candidate => target.Holds n candidate with
  | some (kind, signed) => .ok (.integral kind signed)
  | none => .error (.tooLarge text)

/-- A numeral with some run of suffix letters; not all of these are suffixes in C. -/
def HasLooseSuffix (text : String) : Prop :=
  ∃ radix body n run, text.toList = body ++ run ∧ IsNumeral radix body n ∧ IsLooseSuffix run ∧
    run ≠ []

variable {target : Target} {text : String} {radix : Radix} {suffix : LiteralSuffix} {n : Nat}
  {body run : List Char}

/-! ## Candidates -/

/-- The list that is searched, by what is found in the text. -/
def searched (run : List Char) (decimal : Bool) : List (IntKind × Bool) :=
  (literalKinds (run.countP fun c => c = 'l' || c = 'L')).flatMap fun k =>
    (literalSigns (run.any fun c => c = 'u' || c = 'U') decimal).map fun s => (k, s)

/-- Whether a literal counts as decimal. -/
def countsDecimal (body : List Char) : Bool := !(1 < body.length && body.head? = some '0')

theorem isLooseSuffix_of_mem_spellings {run : String} (h : run ∈ suffix.spellings) :
    IsLooseSuffix run.toList := by
  have hall : ∀ run ∈ suffix.spellings, IsLooseSuffix run.toList := by
    cases suffix <;> decide
  exact hall run h

/-- For the suffixes of C the lists of C are searched. -/
theorem searched_eq {run : String} (h : run ∈ suffix.spellings) :
    searched run.toList true = candidates .decimal suffix ∧
      searched run.toList false = candidates .octal suffix := by
  have hall : ∀ run ∈ suffix.spellings, searched run.toList true = candidates .decimal suffix ∧
      searched run.toList false = candidates .octal suffix := by cases suffix <;> decide
  exact hall run h

/-- Only the lists of decimal literals are lists of their own. -/
theorem candidates_eq_octal (h : radix ≠ .decimal) :
    candidates radix suffix = candidates .octal suffix := by
  cases radix with
  | decimal => exact absurd rfl h
  | octal | hexadecimal | binary => cases suffix <;> rfl

/-- The type of a literal is what the search finds. -/
theorem intLiteralType_append (htext : text.toList = body ++ run) (h : IsNumeral radix body n)
    (hrun : IsLooseSuffix run) {v : Int64} {found : Option (IntKind × Bool)} :
    ((searched run (countsDecimal body)).findM? fun (k, s) => inRange target k s v.toInt) =
        .ok found →
      intLiteralType target text v =
        match found with
        | some (k, s) => .ok (.integral k s)
        | none => .error (.tooLarge text) := by
  intro hfound
  unfold intLiteralType
  rw [htext, splitSuffix_append hrun.2 fun c => h.not_isSuffixLetter]
  dsimp only
  rw [List.drop_left]
  unfold searched countsDecimal at hfound
  rw [hfound]
  cases found <;> rfl

/-- A literal counts as decimal if it is, and so does `0`. -/
theorem countsDecimal_cases (h : IsNumeral radix body n) :
    radix = .decimal ∧ countsDecimal body = true ∨
      radix ≠ .decimal ∧ (countsDecimal body = false ∨ n = 0 ∧ countsDecimal body = true) := by
  obtain ⟨start, hstart, digits, rfl, hallows, hspells⟩ := h
  unfold countsDecimal
  cases radix with
  | decimal =>
    obtain rfl := List.mem_singleton.mp hstart
    exact .inl ⟨rfl, by simp [hallows.2]⟩
  | octal =>
    obtain rfl := List.mem_singleton.mp hstart
    obtain ⟨ds, hds, rfl⟩ := hspells
    cases hds with
    | nil => exact .inr ⟨by decide, .inr ⟨rfl, rfl⟩⟩
    | cons => exact .inr ⟨by decide, .inl (by simp)⟩
  | hexadecimal | binary =>
    simp only [Radix.starts, List.mem_cons, List.not_mem_nil, or_false] at hstart
    rcases hstart with rfl | rfl <;> exact .inr ⟨by decide, .inl (by simp)⟩

/-! ## Ranges -/

/-- The kinds of the candidates. -/
theorem candidate_kind {candidate : IntKind × Bool} (h : candidate ∈ candidates radix suffix) :
    candidate.1 ∈ [IntKind.int, .long, .longLong] := by
  have hall : ∀ candidate ∈ candidates radix suffix,
      candidate.1 ∈ [IntKind.int, .long, .longLong] := by
    cases radix <;> cases suffix <;> decide
  exact hall candidate h

theorem Target.OrdersIntegers.size_bounds (h : target.OrdersIntegers) {kind : IntKind}
    (hkind : kind ∈ [IntKind.int, .long, .longLong]) :
    1 ≤ (target.integral kind).size ∧ (target.integral kind).size ≤ 8 := by
  obtain ⟨hint, hlong, hlongLong, hword⟩ := h
  simp only [List.mem_cons, List.not_mem_nil, or_false] at hkind
  rcases hkind with rfl | rfl | rfl <;> dsimp only [Target.integral] <;> omega

/-- A word that is not negative is in the range of a type that holds it. -/
theorem inRange_eq {kind : IntKind} (hpos : 1 ≤ (target.integral kind).size)
    (hsize : (target.integral kind).size ≤ 8) (signed : Bool) :
    inRange target kind signed (n : Int) = .ok (decide (target.Holds n (kind, signed))) := by
  have habove : ∀ bits : Nat, (n : Int) ≤ 2 ^ bits - 1 ↔ n < 2 ^ bits := fun bits => by
    rw [Int.le_sub_one_iff]
    exact_mod_cast Iff.rfl
  have hbelow : ∀ bits : Nat, -(2 : Int) ^ bits ≤ n := fun bits =>
    (Int.neg_nonpos_of_nonneg (pow_nonneg (by decide) bits)).trans (Int.natCast_nonneg n)
  rw [inRange_of_sized hpos (by omega), Nat.min_eq_left (by omega), Except.ok.injEq,
    Bool.eq_iff_iff, decide_eq_true_iff, Target.Holds, inBits]
  cases signed with
  | true =>
    simp only [if_true, Bool.and_eq_true, decide_eq_true_iff, habove]
    exact and_iff_right (hbelow _)
  | false =>
    simp only [Bool.false_eq_true, if_false, Bool.and_eq_true, decide_eq_true_iff, habove]
    exact and_iff_right (Int.natCast_nonneg n)

/-- A search in which every test has an outcome finds what these outcomes say. -/
theorem findM?_eq_ok {α ε : Type} {p : α → Except ε Bool} {q : α → Bool} {xs : List α}
    (h : ∀ x ∈ xs, p x = .ok (q x)) : xs.findM? p = .ok (xs.find? q) := by
  induction xs with
  | nil => rfl
  | cons x xs ih =>
    rw [List.findM?, h x List.mem_cons_self, List.find?_cons,
      ih fun y hy => h y (List.mem_cons_of_mem x hy)]
    cases q x <;> rfl

/-- The search finds the first type that holds the value. -/
theorem findM?_candidates (h : target.OrdersIntegers) :
    ((candidates radix suffix).findM? fun (k, s) => inRange target k s (n : Int)) =
      .ok ((candidates radix suffix).find? fun candidate => target.Holds n candidate) :=
  findM?_eq_ok fun candidate hmem =>
    have hsize := h.size_bounds (candidate_kind hmem)
    inRange_eq hsize.1 hsize.2 candidate.2

/-- Every type holds zero. -/
theorem find?_candidates_zero :
    ((candidates radix suffix).find? fun candidate => target.Holds 0 candidate) =
      (candidates radix suffix).head? := by
  cases hlist : candidates radix suffix with
  | nil => rfl
  | cons candidate rest => exact List.find?_cons_of_pos (decide_eq_true (Nat.two_pow_pos _))

/-! ## Types -/

/-- The list that is searched gives the type of C's list, also for `0`, which is octal there. -/
theorem intLiteralType_eq {run : String} (h : target.OrdersIntegers)
    (hrun : run ∈ suffix.spellings) (htext : text.toList = body ++ run.toList)
    (hnumeral : IsNumeral radix body n) {v : Int64} (hv : v.toInt = n) :
    intLiteralType target text v = firstType target text n (candidates radix suffix) := by
  obtain ⟨hdecimal, hother⟩ := searched_eq hrun
  have hsearch : (searched run.toList (countsDecimal body)).findM?
      (fun (k, s) => inRange target k s v.toInt) =
        .ok ((candidates radix suffix).find? fun candidate => target.Holds n candidate) := by
    rw [hv]
    rcases countsDecimal_cases hnumeral with ⟨rfl, hcounts⟩ | ⟨hradix, hcounts | ⟨rfl, hcounts⟩⟩
    · rw [hcounts, hdecimal, findM?_candidates h]
    · rw [hcounts, hother, ← candidates_eq_octal hradix, findM?_candidates h]
    · have hheads : (candidates .decimal suffix).head? = (candidates .octal suffix).head? := by
        cases suffix <;> rfl
      rw [hcounts, hdecimal, findM?_candidates h, find?_candidates_zero, hheads,
        ← find?_candidates_zero, ← candidates_eq_octal hradix]
  exact intLiteralType_append htext hnumeral (isLooseSuffix_of_mem_spellings hrun) hsearch

/-- **The types of integer literals.** On a target whose integer types are ordered, a literal of C
whose value is a word has this value, and the first type of its candidates that holds the value; if
there is none, it is too large. A literal beyond the words is refused, and so is every other text;
only runs of up to three suffix letters that C does not allow are let through. -/
theorem literal_typed (h : target.OrdersIntegers) (text : String) :
    (∀ radix suffix n, IsIntLiteral radix suffix text n →
      (n < 2 ^ 63 → ∃ v, decodeInt text = .ok v ∧ v.toInt = n ∧
        intLiteralType target text v = firstType target text n (candidates radix suffix)) ∧
      (2 ^ 63 ≤ n → decodeInt text = .error (.badInteger text))) ∧
    ((∀ radix suffix n, ¬IsIntLiteral radix suffix text n) → ¬HasLooseSuffix text →
      decodeInt text = .error (.badInteger text)) := by
  refine ⟨fun radix suffix n hliteral => ?_, fun hno hloose => ?_⟩
  · obtain ⟨body, run, hrun, htext, hnumeral⟩ := hliteral
    have hvalue := intLiteral?_append hnumeral (isLooseSuffix_of_mem_spellings hrun)
    rw [← htext, maxInt64] at hvalue
    unfold decodeInt
    refine ⟨fun hn => ?_, fun hn => ?_⟩
    · have hword : (Int64.ofNat n).toInt = n := Int64.toInt_ofNat_of_lt hn
      rw [hvalue, if_pos (by omega)]
      exact ⟨_, rfl, hword, intLiteralType_eq h hrun htext hnumeral hword⟩
    · rw [hvalue, if_neg (by omega)]
  · have hnone : intLiteral? text.toList = none := by
      refine intLiteral?_eq_none fun radix body n run htext hnumeral hrun => ?_
      by_cases hempty : run = []
      · exact hno radix .plain n ⟨body, "", .head _, by simpa [hempty] using htext, hnumeral⟩
      · exact hloose ⟨radix, body, n, run, htext, hnumeral, hrun, hempty⟩
    rw [decodeInt, hnone]

/-- `0x80000000` is an `unsigned int`, and so is `7u`. -/
theorem literal_typed_hexadecimal :
    Target.lp64.OrdersIntegers ∧
      (∃ v, decodeInt "0x80000000" = .ok v ∧ v.toInt = 2 ^ 31 ∧
        intLiteralType .lp64 "0x80000000" v = .ok (.integral .int false)) ∧
      ∃ v, decodeInt "7u" = .ok v ∧ v.toInt = 7 ∧
        intLiteralType .lp64 "7u" v = .ok (.integral .int false) := by
  have horders : Target.lp64.OrdersIntegers := ⟨by decide, by decide, by decide, by decide⟩
  have hplain : IsIntLiteral .hexadecimal .plain "0x80000000" (2 ^ 31) :=
    ⟨"0x80000000".toList, "", .head _, by decide,
      isNumeral_of_ofDigits? .hexadecimal (.head _) id (by decide +kernel)⟩
  have hunsigned : IsIntLiteral .decimal .u "7u" 7 :=
    ⟨['7'], "u", .head _, by decide,
      isNumeral_of_ofDigits? .decimal (.head _) (fun _ => ⟨by decide, by decide⟩) (by decide)⟩
  refine ⟨horders, ?_, ?_⟩
  · exact (literal_typed horders _).1 _ _ _ hplain |>.1 (by decide)
  · exact (literal_typed horders _).1 _ _ _ hunsigned |>.1 (by decide)

/-! ### Beyond the words -/

theorem splitSuffix_of_isIntLiteral (h : IsIntLiteral radix suffix text n) :
    ∃ run ∈ suffix.spellings, text.toList = (splitSuffix text.toList).1 ++ run.toList := by
  obtain ⟨body, run, hrun, htext, hnumeral⟩ := h
  refine ⟨run, hrun, ?_⟩
  rw [htext, splitSuffix_append (isLooseSuffix_of_mem_spellings hrun).2
    fun c => hnumeral.not_isSuffixLetter]

/-- A literal that is an `unsigned long` in C has no value, because it is no word with a sign; and a
text that is no literal in C has one. -/
theorem literal_beyond_words :
    IsIntLiteral .hexadecimal .plain "0xffffffffffffffff" (2 ^ 64 - 1) ∧
      firstType .lp64 "0xffffffffffffffff" (2 ^ 64 - 1) (candidates .hexadecimal .plain) =
        .ok (.integral .long false) ∧
      decodeInt "0xffffffffffffffff" = .error (.badInteger "0xffffffffffffffff") ∧
      (∀ radix suffix n, ¬IsIntLiteral radix suffix "10uu" n) ∧
      decodeInt "10uu" = .ok 10 := by
  refine ⟨⟨"0xffffffffffffffff".toList, "", .head _, by decide,
    isNumeral_of_ofDigits? .hexadecimal (.head _) id (by decide +kernel)⟩, by decide +kernel,
    by decide +kernel, fun radix suffix n hliteral => ?_, by decide +kernel⟩
  obtain ⟨run, hrun, htext⟩ := splitSuffix_of_isIntLiteral hliteral
  have hnone : ∀ run ∈ suffix.spellings,
      "10uu".toList ≠ (splitSuffix "10uu".toList).1 ++ run.toList := by cases suffix <;> decide
  exact hnone run hrun htext

end ForeignCall
