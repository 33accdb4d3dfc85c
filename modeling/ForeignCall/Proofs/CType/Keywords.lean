import ForeignCall.CType.Spelling
import Mathlib.Data.List.Permutation
import Mathlib.Data.List.TakeWhile
import Mathlib.Tactic.Common

/-!
# ForeignCall.Proofs.CType.Keywords

Which keywords spell a type, and which type. The order of the keywords does not matter to the type.
But they are counted one after the other, in bytes, so the program ends at a keyword that does not
fit its count, unless a word in front of it is no keyword and ends the counting.

* `Spelled` — the types that words spell in C, by how often each keyword occurs (`Tally`);
* `Overruns` — the words that do not fit the counts;
* `KeywordCounts.addAll_eq` — what is counted, and which words are too many;
* `spelling_exact` — the type that words have in C, and the words that end the program.
-/

namespace ForeignCall.CType

/-! ## The spellings of C -/

/-- The keywords that stand for a sign. -/
def signWords : List String := ["signed", "__signed", "__signed__", "unsigned"]

/-- The keywords of integer types. -/
def integerWords : List String := signWords ++ ["short", "long", "int", "char"]

/-- The words that spell a type alone. -/
def standaloneTypes : List (String × CType) :=
  [("void", .void), ("float", .floating .float), ("double", .floating .double), ("_Bool", bool),
    ("__builtin_va_list", vaList)]

/-- How often the keywords of integer types occur. -/
structure Tally where
  /-- All sign keywords, those without a sign included. -/
  signs : Nat
  unsigned : Nat
  short : Nat
  long : Nat
  int : Nat
  char : Nat
deriving DecidableEq

namespace Tally

/-- How often the keywords occur in a list. -/
def of (words : List String) : Tally where
  signs := words.countP (· ∈ signWords)
  unsigned := words.count "unsigned"
  short := words.count "short"
  long := words.count "long"
  int := words.count "int"
  char := words.count "char"

/-- The kind of integer that the size keywords name: at most one of `char`, `short` and `long`
occurs, and only `long` occurs twice. Without any of them, `int` or a sign is there. -/
inductive Names (n : Tally) : IntKind → Prop
  | char (hchar : n.char = 1) (hshort : n.short = 0) (hlong : n.long = 0) (hint : n.int = 0) :
    Names n .char
  | short (hshort : n.short = 1) (hlong : n.long = 0) (hchar : n.char = 0) : Names n .short
  | long (hlong : n.long = 1) (hshort : n.short = 0) (hchar : n.char = 0) : Names n .long
  | longLong (hlong : n.long = 2) (hshort : n.short = 0) (hchar : n.char = 0) : Names n .longLong
  | int (hshort : n.short = 0) (hlong : n.long = 0) (hchar : n.char = 0)
    (h : n.int ≠ 0 ∨ n.signs ≠ 0) : Names n .int

/-- The integer type that keywords spell when they occur so often. -/
def Spells (n : Tally) (t : CType) : Prop :=
  n.signs ≤ 1 ∧ n.int ≤ 1 ∧ ∃ kind, n.Names kind ∧ t = .integral kind (n.unsigned = 0)

/-- Some keyword, or the sign keywords together, occur more than 255 times. -/
def Overflows (n : Tally) : Prop :=
  255 < n.signs ∨ 255 < n.short ∨ 255 < n.long ∨ 255 < n.int ∨ 255 < n.char

end Tally

/-- The type that a list of words spells. -/
inductive Spelled (words : List String) : CType → Prop
  | alone {word : String} {t : CType} (h : (word, t) ∈ standaloneTypes) (hwords : words = [word]) :
    Spelled words t
  | longDouble (hwords : words.Perm ["long", "double"]) : Spelled words (.floating .longDouble)
  | integer {t : CType} (hwords : ∀ word ∈ words, word ∈ integerWords)
    (h : (Tally.of words).Spells t) : Spelled words t

/-! ## The words that are counted -/

/-- The keywords that have one count. -/
def countedTogether : List (List String) :=
  [["signed", "__signed", "__signed__"], ["unsigned"], ["short"], ["long"], ["int"], ["char"]]

/-- The words that are counted: those in front of the first that is no keyword of an integer
type. -/
def countedPrefix (words : List String) : List String := words.takeWhile (· ∈ integerWords)

/-- A count exceeds 255: that of some keyword in the words that are counted, or, if all words are
keywords, that of all sign keywords together. -/
def Overruns (words : List String) : Prop :=
  (∃ together ∈ countedTogether, 255 < (countedPrefix words).countP (· ∈ together)) ∨
    (∀ word ∈ words, word ∈ integerWords) ∧ 255 < words.countP (· ∈ signWords)

instance (words : List String) : Decidable (Overruns words) :=
  inferInstanceAs (Decidable (_ ∨ _))

variable {words words' : List String} {word : String} {t : CType}

theorem Tally.of_perm (h : words.Perm words') : Tally.of words = Tally.of words' := by
  simp [Tally.of, h.count_eq, h.countP_eq]

theorem Tally.Spells.not_overflows {n : Tally} (h : n.Spells t) : ¬n.Overflows := by
  obtain ⟨hsigns, hint, kind, hkind, -⟩ := h
  unfold Overflows
  cases hkind <;> omega

/-- The sign keywords with a sign and those without one. -/
theorem countP_signWords (words : List String) :
    words.countP (· ∈ signWords) =
      words.countP (· ∈ ["signed", "__signed", "__signed__"]) + words.count "unsigned" := by
  induction words with
  | nil => rfl
  | cons word words ih =>
    rw [List.countP_cons, List.countP_cons, List.count_cons, ih]
    by_cases hword : word = "unsigned"
    · simp [hword, signWords]
      omega
    · simp [hword, signWords]
      omega

theorem countedPrefix_eq (h : ∀ word ∈ words, word ∈ integerWords) : countedPrefix words = words :=
  List.takeWhile_eq_self_iff.mpr fun word hword => decide_eq_true (h word hword)

theorem forall_countedTogether_iff :
    (∀ together ∈ countedTogether, words.countP (· ∈ together) ≤ 255) ↔
      words.countP (· ∈ ["signed", "__signed", "__signed__"]) ≤ 255 ∧
        words.count "unsigned" ≤ 255 ∧ words.count "short" ≤ 255 ∧ words.count "long" ≤ 255 ∧
          words.count "int" ≤ 255 ∧ words.count "char" ≤ 255 := by
  simp [countedTogether, List.count_eq_countP, beq_eq_decide]

/-- If all words are keywords, the order in which they are counted does not matter. -/
theorem overruns_iff (h : ∀ word ∈ words, word ∈ integerWords) :
    Overruns words ↔ (Tally.of words).Overflows := by
  have hsigns := countP_signWords words
  have hnone : (∃ together ∈ countedTogether, 255 < words.countP (· ∈ together)) ↔
      ¬∀ together ∈ countedTogether, words.countP (· ∈ together) ≤ 255 := by
    simp
  rw [Overruns, countedPrefix_eq h, hnone, forall_countedTogether_iff, and_iff_right h]
  simp only [Tally.Overflows, Tally.of]
  omega

/-! ## Counting -/

namespace KeywordCounts

/-- Each count is a byte. -/
def InBytes (n : KeywordCounts) : Prop :=
  n.signed ≤ 255 ∧ n.unsigned ≤ 255 ∧ n.short ≤ 255 ∧ n.long ≤ 255 ∧ n.int ≤ 255 ∧ n.char ≤ 255

instance (n : KeywordCounts) : Decidable n.InBytes := inferInstanceAs (Decidable (_ ∧ _))

/-- The counts of a list of keywords, added to those of what is in front of it. -/
def after (n : KeywordCounts) (words : List String) : KeywordCounts where
  signed := n.signed + words.countP (· ∈ ["signed", "__signed", "__signed__"])
  unsigned := n.unsigned + words.count "unsigned"
  short := n.short + words.count "short"
  long := n.long + words.count "long"
  int := n.int + words.count "int"
  char := n.char + words.count "char"

theorem after_append (n : KeywordCounts) (words words' : List String) :
    n.after (words ++ words') = (n.after words).after words' := by
  simp [after, Nat.add_assoc]

theorem InBytes.of_after {n : KeywordCounts} (h : (n.after words).InBytes) : n.InBytes := by
  simp only [InBytes, after] at *
  omega

theorem add_eq {n : KeywordCounts} (hn : n.InBytes) :
    n.add word = if word ∈ integerWords then
      some (if (n.after [word]).InBytes then .ok (n.after [word]) else .error .add) else none := by
  obtain ⟨hsigned, hunsigned, hshort, hlong, hint, hchar⟩ := hn
  unfold add
  split
  case h_9 => simp_all [integerWords, signWords]
  all_goals
    simp [after, integerWords, signWords, InBytes, addCounts, *]
    split <;> rfl

/-- **What the counts give.** The words in front of the first that is no keyword have to fit. -/
theorem addAll_eq {n : KeywordCounts} (hn : n.InBytes) :
    n.addAll words = if (n.after (countedPrefix words)).InBytes then
      .ok (if ∀ word ∈ words, word ∈ integerWords then some (n.after words) else none)
      else .error .add := by
  induction words generalizing n with
  | nil => simp [addAll, countedPrefix, after, hn]
  | cons word words ih =>
    rw [addAll, add_eq hn]
    by_cases hword : word ∈ integerWords
    · have hstart : countedPrefix (word :: words) = word :: countedPrefix words := by
        simp [countedPrefix, hword]
      have hcons (ws : List String) : n.after (word :: ws) = (n.after [word]).after ws :=
        after_append n [word] ws
      rw [hstart, if_pos hword, hcons (countedPrefix words), hcons words]
      by_cases hfits : (n.after [word]).InBytes
      · simp [hfits, ih hfits, hword]
      · have hlater : ¬((n.after [word]).after (countedPrefix words)).InBytes :=
          fun h => hfits h.of_after
        simp [hfits, hlater]
    · have hstart : countedPrefix (word :: words) = [] := by simp [countedPrefix, hword]
      have hempty : n.after [] = n := rfl
      simp [hword, hstart, hempty, hn]

/-- The counts with the sign keywords taken together. -/
def tally (n : KeywordCounts) : Tally :=
  ⟨n.signed + n.unsigned, n.unsigned, n.short, n.long, n.int, n.char⟩

theorem signs_after (words : List String) :
    (({} : KeywordCounts).after words).signed + (({} : KeywordCounts).after words).unsigned =
      words.countP (· ∈ signWords) := by
  simp only [after, countP_signWords, Nat.zero_add]

theorem tally_after (words : List String) :
    (({} : KeywordCounts).after words).tally = Tally.of words := by
  rw [tally, signs_after]
  simp only [after, Tally.of, Nat.zero_add]

theorem inBytes_after_iff :
    (({} : KeywordCounts).after words).InBytes ↔
      ∀ together ∈ countedTogether, words.countP (· ∈ together) ≤ 255 := by
  simp only [forall_countedTogether_iff, InBytes, after, Nat.zero_add]

/-! ## The type of the counts -/

theorem kind?_eq_some_iff {n : KeywordCounts} {kind : IntKind} :
    n.kind? = some kind ↔
      (n.short, n.long, n.char, kind) ∈ [(0, 0, 1, IntKind.char), (1, 0, 0, .short),
        (0, 0, 0, .int), (0, 1, 0, .long), (0, 2, 0, .longLong)] := by
  unfold kind?
  split <;> simp_all [eq_comm]

/-- The kind that is read, and that is not refused beside the other keywords. -/
theorem names_iff {n : KeywordCounts} {kind : IntKind} :
    n.tally.Names kind ↔ n.kind? = some kind ∧ ¬(kind = .char ∧ 0 < n.int) ∧
      ¬(kind = .int ∧ n.int = 0 ∧ n.signed + n.unsigned = 0) := by
  rw [kind?_eq_some_iff]
  simp only [List.mem_cons, Prod.mk.injEq, List.not_mem_nil, or_false]
  constructor
  · intro h
    cases h <;> simp_all [tally]
    omega
  · rintro ⟨hkind, hchar, hint⟩
    rcases hkind with ⟨hshort, hlong, hcharacter, rfl⟩ | ⟨hshort, hlong, hcharacter, rfl⟩ |
      ⟨hshort, hlong, hcharacter, rfl⟩ | ⟨hshort, hlong, hcharacter, rfl⟩ |
      ⟨hshort, hlong, hcharacter, rfl⟩
    · refine .char hcharacter hshort hlong ?_
      simpa [tally] using hchar
    · exact .short hshort hlong hcharacter
    · refine .int hshort hlong hcharacter ?_
      simpa only [tally, ne_eq, true_and, not_and_or] using hint
    · exact .long hlong hshort hcharacter
    · exact .longLong hlong hshort hcharacter

theorem type?_eq_some_iff {n : KeywordCounts} :
    n.type? (n.signed + n.unsigned) = some t ↔ n.tally.Spells t := by
  have hfew : ¬(1 < n.signed + n.unsigned ∨ 1 < n.int) ↔ n.tally.signs ≤ 1 ∧ n.tally.int ≤ 1 := by
    simp only [tally, not_or, Nat.not_lt]
  have hsign : n.tally.unsigned = n.unsigned := rfl
  unfold type? Tally.Spells
  rw [Option.ite_none_left_eq_some, hfew, and_assoc]
  simp only [names_iff, hsign]
  cases hkind : n.kind? with
  | none => simp
  | some kind => simp [and_assoc, eq_comm]

end KeywordCounts

theorem ofKeywords_of_overruns (h : Overruns words) : ofKeywords words = .error .add := by
  rw [ofKeywords, KeywordCounts.addAll_eq (by decide)]
  by_cases hfits : (({} : KeywordCounts).after (countedPrefix words)).InBytes
  · rw [if_pos hfits]
    rcases h with ⟨together, htogether, hlarge⟩ | ⟨hwords, hsigns⟩
    · exact absurd (KeywordCounts.inBytes_after_iff.mp hfits together htogether) (by omega)
    · rw [if_pos hwords]
      simp only [addCounts, KeywordCounts.signs_after, if_neg (Nat.not_le.mpr hsigns), Except.map]
  · rw [if_neg hfits]

theorem ofKeywords_of_not_overruns (h : ¬Overruns words) :
    ∃ type, ofKeywords words = .ok type ∧
      ∀ t, type = some t ↔ (∀ word ∈ words, word ∈ integerWords) ∧ (Tally.of words).Spells t := by
  obtain ⟨hcounted, hsigns⟩ := not_or.mp h
  have hfits : (({} : KeywordCounts).after (countedPrefix words)).InBytes := by
    rw [KeywordCounts.inBytes_after_iff]
    simpa using hcounted
  rw [ofKeywords, KeywordCounts.addAll_eq (by decide), if_pos hfits]
  by_cases hwords : ∀ word ∈ words, word ∈ integerWords
  · have hsum : words.countP (· ∈ signWords) ≤ 255 :=
      Nat.not_lt.mp fun hlarge => hsigns ⟨hwords, hlarge⟩
    rw [if_pos hwords]
    simp only [addCounts, KeywordCounts.signs_after, if_pos hsum, Except.map]
    refine ⟨_, rfl, fun t => ?_⟩
    rw [and_iff_right hwords, ← KeywordCounts.tally_after, ← KeywordCounts.type?_eq_some_iff,
      KeywordCounts.signs_after]
  · rw [if_neg hwords]
    exact ⟨none, rfl, fun t => iff_of_false nofun fun ht => hwords ht.1⟩

/-! ## The type of the words -/

theorem standalone?_eq_some_iff : standalone? word = some t ↔ (word, t) ∈ standaloneTypes := by
  unfold standalone?
  split
  case h_6 => simp_all [standaloneTypes]
  all_goals simp [standaloneTypes, eq_comm]

theorem uncounted?_eq_some_iff :
    uncounted? words = some t ↔ (∃ word, words = [word] ∧ (word, t) ∈ standaloneTypes) ∨
      words.Perm ["long", "double"] ∧ t = .floating .longDouble := by
  unfold uncounted?
  split
  · simp [eq_comm]
  · simp [List.Perm.swap, eq_comm]
  · next word =>
    have hlength : ¬[word].Perm ["long", "double"] := fun h => absurd h.length_eq (by simp)
    simp [standalone?_eq_some_iff, hlength]
  · next hlong hdouble hword =>
    refine iff_of_false nofun ?_
    rintro (⟨word, rfl, -⟩ | ⟨hperm, -⟩)
    · exact hword word rfl
    · rcases List.perm_pair.mp hperm with rfl | rfl
      · exact hlong rfl
      · exact hdouble rfl

/-- Words that do not fit the counts are many. -/
theorem Overruns.lt_length (h : Overruns words) : 255 < words.length := by
  rcases h with ⟨together, -, hlarge⟩ | ⟨-, hlarge⟩
  · have hlength : (countedPrefix words).length ≤ words.length :=
      (List.takeWhile_prefix _).length_le
    exact hlarge.trans_le (List.countP_le_length.trans hlength)
  · exact hlarge.trans_le List.countP_le_length

/-- Words that do not fit the counts spell no type. -/
theorem Overruns.not_spelled (h : Overruns words) : ¬Spelled words t := by
  have hlength := h.lt_length
  intro hspelled
  cases hspelled with
  | alone ht hword => simp [hword] at hlength
  | longDouble hperm => simp [hperm.length_eq] at hlength
  | integer hwords ht => exact ht.not_overflows ((overruns_iff hwords).mp h)

/-- No word that spells a type alone is a keyword of an integer type. -/
theorem not_mem_integerWords : ∀ e ∈ standaloneTypes, e.1 ∉ integerWords := by decide

/-- Words that fit the counts spell the type that they have in C. -/
theorem ofSpelling_of_not_overruns (h : ¬Overruns words) :
    ∃ type, ofSpelling words = .ok type ∧ ∀ t, type = some t ↔ Spelled words t := by
  obtain ⟨counted, hcounted, hinteger⟩ := ofKeywords_of_not_overruns h
  have huncounted (t : CType) (ht : uncounted? words = some t) :
      ¬∀ word ∈ words, word ∈ integerWords := by
    intro hwords
    rcases uncounted?_eq_some_iff.mp ht with ⟨word, rfl, hword⟩ | ⟨hperm, -⟩
    · exact not_mem_integerWords _ hword (hwords word (by simp))
    · exact absurd (hwords "double" (hperm.mem_iff.mpr (by decide))) (by decide)
  have hspelled (t : CType) : Spelled words t ↔ uncounted? words = some t ∨ counted = some t := by
    rw [uncounted?_eq_some_iff, hinteger]
    constructor
    · rintro (⟨ht, hwords⟩ | hperm | ⟨hwords, ht⟩)
      · exact .inl (.inl ⟨_, hwords, ht⟩)
      · exact .inl (.inr ⟨hperm, rfl⟩)
      · exact .inr ⟨hwords, ht⟩
    · rintro ((⟨word, hwords, ht⟩ | ⟨hperm, rfl⟩) | ⟨hwords, ht⟩)
      · exact .alone ht hwords
      · exact .longDouble hperm
      · exact .integer hwords ht
  unfold ofSpelling
  cases hfound : uncounted? words with
  | none => exact ⟨counted, hcounted, fun t => by simp [hspelled, hfound]⟩
  | some u =>
    refine ⟨some u, rfl, fun t => ?_⟩
    rw [hspelled, hfound, hinteger]
    exact (or_iff_left fun ht => huncounted u hfound ht.1).symm

theorem ofSpelling_of_overruns (h : Overruns words) : ofSpelling words = .error .add := by
  have hnone : uncounted? words = none := by
    rw [Option.eq_none_iff_forall_ne_some]
    intro t ht
    have hlength := h.lt_length
    rcases uncounted?_eq_some_iff.mp ht with ⟨word, rfl, -⟩ | ⟨hperm, -⟩
    · simp at hlength
    · simp [hperm.length_eq] at hlength
  rw [ofSpelling, hnone]
  exact ofKeywords_of_overruns h

/-- Words are read as a type exactly if they spell it. -/
theorem ofSpelling_eq_some_iff : ofSpelling words = .ok (some t) ↔ Spelled words t := by
  by_cases hruns : Overruns words
  · rw [ofSpelling_of_overruns hruns]
    exact iff_of_false nofun hruns.not_spelled
  · obtain ⟨type, htype, hspelled⟩ := ofSpelling_of_not_overruns hruns
    rw [htype, ← hspelled]
    simp

theorem ofSpelling_eq_error_iff : ofSpelling words = .error .add ↔ Overruns words := by
  refine ⟨fun herror => ?_, ofSpelling_of_overruns⟩
  by_contra hfits
  obtain ⟨type, htype, -⟩ := ofSpelling_of_not_overruns hfits
  cases htype.symm.trans herror

/-- Words that spell no type are read as none if they fit the counts. -/
theorem ofSpelling_eq_none_iff :
    ofSpelling words = .ok none ↔ (∀ t, ¬Spelled words t) ∧ ¬Overruns words := by
  by_cases hruns : Overruns words
  · rw [ofSpelling_of_overruns hruns]
    exact iff_of_false nofun fun h => h.2 hruns
  · obtain ⟨type, htype, hspelled⟩ := ofSpelling_of_not_overruns hruns
    rw [htype, and_iff_left hruns, Except.ok.injEq, Option.eq_none_iff_forall_ne_some]
    simp only [hspelled, ne_eq]

/-! ## The order of the words -/

theorem Spelled.perm (h : words.Perm words') (hspelled : Spelled words t) : Spelled words' t := by
  cases hspelled with
  | alone ht hwords => exact .alone ht (List.perm_singleton.mp (hwords ▸ h.symm))
  | longDouble hwords => exact .longDouble (h.symm.trans hwords)
  | integer hwords ht =>
    refine .integer (fun word hword => hwords word (h.mem_iff.mpr hword)) ?_
    rwa [← Tally.of_perm h]

/-- Permuted words have the same outcome exactly if both lists fit the counts or none does. -/
theorem ofSpelling_perm_iff (h : words.Perm words') :
    ofSpelling words' = ofSpelling words ↔ (Overruns words' ↔ Overruns words) := by
  rw [← ofSpelling_eq_error_iff, ← ofSpelling_eq_error_iff]
  refine ⟨fun heq => by rw [heq], fun hruns => ?_⟩
  by_cases herror : ofSpelling words = .error .add
  · rw [herror, hruns.mpr herror]
  · obtain ⟨type, htype, hspelled⟩ :=
      ofSpelling_of_not_overruns (mt ofSpelling_eq_error_iff.mpr herror)
    obtain ⟨type', htype', hspelled'⟩ :=
      ofSpelling_of_not_overruns (mt ofSpelling_eq_error_iff.mpr (mt hruns.mp herror))
    rw [htype, htype']
    congr 1
    ext t
    rw [hspelled, hspelled']
    exact ⟨Spelled.perm h.symm, Spelled.perm h⟩

/-- If all words are keywords, permuted words have the same outcome. -/
theorem ofSpelling_perm (h : words.Perm words') (hwords : ∀ word ∈ words, word ∈ integerWords) :
    ofSpelling words' = ofSpelling words := by
  have hwords' : ∀ word ∈ words', word ∈ integerWords :=
    fun word hword => hwords word (h.mem_iff.mpr hword)
  rw [ofSpelling_perm_iff h, overruns_iff hwords, overruns_iff hwords', Tally.of_perm h]

/-- **What words spell.** Words are read as a type exactly if they spell it in C: a type alone, a
`long double`, or at most one sign and one `int` with the size keywords of a kind. Of the words that
spell nothing, those that fit the counts are read as nothing, and the others end the program. So
permuted words have the same outcome if both lists fit, or both do not; in particular if all words
are keywords. -/
theorem spelling_exact (words : List String) :
    (∀ t, ofSpelling words = .ok (some t) ↔ Spelled words t) ∧
      (ofSpelling words = .ok none ↔ (∀ t, ¬Spelled words t) ∧ ¬Overruns words) ∧
      (ofSpelling words = .error .add ↔ Overruns words) ∧
      ∀ words', words.Perm words' →
        (ofSpelling words' = ofSpelling words ↔ (Overruns words' ↔ Overruns words)) ∧
          ((∀ word ∈ words, word ∈ integerWords) → ofSpelling words' = ofSpelling words) :=
  ⟨fun _ => ofSpelling_eq_some_iff, ofSpelling_eq_none_iff, ofSpelling_eq_error_iff,
    fun _ h => ⟨ofSpelling_perm_iff h, ofSpelling_perm h⟩⟩

theorem spelling_exact_longLong :
    let words := ["unsigned", "long", "long", "int"]
    let words' := ["long", "int", "unsigned", "long"]
    ofSpelling words = .ok (some (.integral .longLong false)) ∧
      words.Perm words' ∧ (∀ word ∈ words, word ∈ integerWords) ∧
        ofSpelling words' = ofSpelling words := by
  intro words words'
  have hperm : words.Perm words' := by decide
  have hwords : ∀ word ∈ words, word ∈ integerWords := by decide
  have hspelled : Spelled words (.integral .longLong false) :=
    .integer hwords ⟨by decide, by decide, .longLong, .longLong rfl rfl rfl, rfl⟩
  obtain ⟨hexact, -, -, hperms⟩ := spelling_exact words
  exact ⟨(hexact _).mpr hspelled, hperm, hwords, (hperms _ hperm).2 hwords⟩

theorem overruns_ints {n : Nat} (hn : 255 < n) (behind : List String) :
    Overruns (List.replicate n "int" ++ behind) := by
  have hints : ∀ word ∈ List.replicate n "int", decide (word ∈ integerWords) = true := by
    intro word hword
    rw [List.eq_of_mem_replicate hword]
    decide
  refine .inl ⟨["int"], by decide, ?_⟩
  rw [countedPrefix, List.takeWhile_append_of_pos hints, List.countP_append, List.countP_replicate]
  exact hn.trans_le (Nat.le_add_right ..)

/-- The word `int`, 257 times, ends the program, although it spells no type. It still does so with
another word behind it, but not in front of it. -/
theorem ints_overrun :
    let ints := List.replicate 257 "int"
    ofSpelling ints = .error .add ∧ (∀ t, ¬Spelled ints t) ∧
      (ints ++ ["point"]).Perm ("point" :: ints) ∧ ofSpelling (ints ++ ["point"]) = .error .add ∧
        ofSpelling ("point" :: ints) = .ok none := by
  intro ints
  have hruns : Overruns ints := by
    rw [← List.append_nil ints]
    exact overruns_ints (by decide) []
  exact ⟨ofSpelling_of_overruns hruns, fun _ => hruns.not_spelled,
    List.perm_append_singleton .., ofSpelling_of_overruns (overruns_ints (by decide) _), rfl⟩

end ForeignCall.CType
