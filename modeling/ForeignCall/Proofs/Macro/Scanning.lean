import ForeignCall.Macro.Basic
import ForeignCall.Proofs.Text.Parts
import Mathlib.Data.List.Forall2
import Mathlib.Data.List.TakeWhile

/-!
# ForeignCall.Proofs.Macro.Scanning

The list of macros that the preprocessor prints, line by line. A line defines a macro when it is
written in a small grammar, and the scanner reads exactly this grammar: every line that is not blank
becomes the one macro that it defines, or is reported with its number when it defines none.

* `Macro.Writes` — the lines that define a macro;
* `Macro.ofLine?_eq_some_iff` — what is read of one line;
* `forall₂_lineResults` — what is read of one line after another;
* `scanMacros_exact` — what is read of a text, and that the line of a macro reads back.
-/

namespace ForeignCall

namespace Macro

variable {m : Macro} {s name list rest body : List Char} {ps : List (List Char)} {c : Char}

/-! ## The grammar -/

/-- A name: one or more letters, digits and underscores. -/
def IsName (s : List Char) : Prop := s ≠ [] ∧ ∀ c ∈ s, isNameChar c

/-- Parameters: names, and maybe three dots behind them. -/
def AreParams (ps : List (List Char)) : Prop :=
  ∃ names, (∀ p ∈ names, IsName p) ∧ (ps = names ∨ ps = names ++ [dots])

/-- A macro that can be defined. -/
structure WellFormed (m : Macro) : Prop where
  name : IsName m.name.toList
  params : ∀ ps ∈ m.params, AreParams (ps.map String.toList)

/-- The name, and the parameters in parentheses. -/
def signature (m : Macro) : String :=
  match m.params with
  | none => m.name
  | some ps => m.name ++ "(" ++ ",".intercalate ps ++ ")"

/-- The line defines the macro. The blank in front of a replacement that is empty may be missing. -/
def Writes (m : Macro) (line : String) : Prop :=
  m.WellFormed ∧ (line = "#define " ++ m.signature ++ " " ++ m.replacement ∨
    m.replacement = "" ∧ line = "#define " ++ m.signature)

/-! ## Parameters -/

theorem isNameChar_ne (h : isNameChar c) : c ≠ ',' ∧ c ≠ ')' ∧ c ≠ '\n' ∧ c ≠ '\r' := by
  refine ⟨?_, ?_, ?_, ?_⟩ <;> rintro rfl <;> exact absurd h (by decide)

theorem isName_iff : IsName s ↔ !s.isEmpty && s.all isNameChar := by
  simp [IsName]

/-- Only the last parameter may be dots. -/
theorem areParams_cons_cons {p q : List Char} :
    AreParams (p :: q :: ps) ↔ IsName p ∧ AreParams (q :: ps) := by
  constructor
  · rintro ⟨names, hnames, h | h⟩
    · subst h
      exact ⟨hnames p (by simp), q :: ps, fun r hr => hnames r (by simp [hr]), .inl rfl⟩
    · cases names with
      | nil => simp at h
      | cons r names =>
        obtain ⟨rfl, hrest⟩ := List.cons.inj h
        exact ⟨hnames p (by simp), names, fun r hr => hnames r (by simp [hr]), .inr hrest⟩
  · rintro ⟨hp, names, hnames, hrest⟩
    refine ⟨p :: names, by simpa [hp] using hnames, ?_⟩
    simpa using hrest

theorem areParams_singleton {p : List Char} : AreParams [p] ↔ p = dots ∨ IsName p := by
  constructor
  · rintro ⟨names, hnames, rfl | h⟩
    · exact .inr (hnames p (by simp))
    · cases names with
      | nil => simp_all
      | cons r names => simp at h
  · rintro (rfl | hp)
    · exact ⟨[], by simp, .inr rfl⟩
    · exact ⟨[p], by simpa using hp, .inl rfl⟩

theorem validParams_iff : validParams ps ↔ AreParams ps := by
  induction ps with
  | nil => exact iff_of_true rfl ⟨[], by simp, .inl rfl⟩
  | cons p ps ih =>
    cases ps with
    | nil => simp [validParams, areParams_singleton, isName_iff]
    | cons q ps => simp [validParams, areParams_cons_cons, isName_iff, ← ih]

/-- No parameter is empty, and none holds a character that ends a parameter, a list or a line. -/
theorem AreParams.ne_of_mem (h : AreParams ps) {p : List Char} (hp : p ∈ ps) :
    p ≠ [] ∧ ∀ c ∈ p, c ≠ ',' ∧ c ≠ ')' ∧ c ≠ '\n' ∧ c ≠ '\r' := by
  obtain ⟨names, hnames, h⟩ := h
  have hor : p ∈ names ∨ p = dots := by
    rcases h with rfl | rfl
    · exact .inl hp
    · simpa using hp
  rcases hor with hname | rfl
  · exact ⟨(hnames p hname).1, fun c hc => isNameChar_ne ((hnames p hname).2 c hc)⟩
  · exact ⟨by decide, by simp [dots]⟩

theorem mem_intercalate (hc : c ∈ [','].intercalate ps) : c = ',' ∨ ∃ p ∈ ps, c ∈ p := by
  induction ps with
  | nil => simp at hc
  | cons p ps ih =>
    cases ps with
    | nil => exact .inr ⟨p, by simp, by simpa using hc⟩
    | cons q ps =>
      simp only [List.intercalate_cons_cons, List.mem_append, List.mem_singleton] at hc
      rcases hc with (hp | rfl) | hrest
      · exact .inr ⟨p, by simp, hp⟩
      · exact .inl rfl
      · exact (ih hrest).imp_right fun ⟨r, hr, hcr⟩ => ⟨r, .tail p hr, hcr⟩

/-- A list of parameters stays on its line and ends at the first closing parenthesis. -/
theorem AreParams.ne_of_mem_intercalate (h : AreParams ps) (hc : c ∈ [','].intercalate ps) :
    c ≠ ')' ∧ c ≠ '\n' ∧ c ≠ '\r' := by
  rcases mem_intercalate hc with rfl | ⟨p, hp, hcp⟩
  · decide
  · exact ((h.ne_of_mem hp).2 c hcp).2

theorem intercalate_ne_nil {p : List Char} (hp : p ≠ []) : [','].intercalate (p :: ps) ≠ [] := by
  cases ps <;> simp [List.intercalate_cons_cons, hp]

theorem paramsOf_eq_some_iff :
    paramsOf list = some ps ↔ AreParams ps ∧ list = [','].intercalate ps := by
  unfold paramsOf
  rw [Text.splitWhere_eq_splitOn]
  by_cases hempty : list = []
  · subst hempty
    constructor
    · intro h
      obtain rfl : [] = ps := by simpa using h
      exact ⟨validParams_iff.mp rfl, rfl⟩
    · rintro ⟨hps, hlist⟩
      cases ps with
      | nil => simp
      | cons p ps => exact absurd hlist.symm (intercalate_ne_nil (hps.ne_of_mem (by simp)).1)
  · simp only [List.isEmpty_iff, hempty, if_false]
    constructor
    · intro h
      obtain ⟨hvalid, rfl⟩ : validParams (list.splitOn ',') ∧ list.splitOn ',' = ps := by
        simpa using h
      exact ⟨validParams_iff.mp hvalid, (List.intercalate_splitOn ',').symm⟩
    · rintro ⟨hps, rfl⟩
      have hsplit : ([','].intercalate ps).splitOn ',' = ps :=
        List.splitOn_intercalate ',' (fun p hp hc => ((hps.ne_of_mem hp).2 _ hc).1 rfl) fun h => by
          simp [h] at hempty
      rw [hsplit, if_pos (validParams_iff.mpr hps)]

/-! ## Lines -/

theorem replacementOf_eq_some_iff :
    replacementOf s = some body ↔ s = ' ' :: body ∨ body = [] ∧ s = [] := by
  cases s with
  | nil => simp [replacementOf, eq_comm]
  | cons c s => by_cases hc : c = ' ' <;> simp [replacementOf, hc]

/-- A name ends where the name characters end. -/
theorem splitName (hname : IsName name) (hrest : ∀ c ∈ rest.head?, ¬isNameChar c) :
    (name ++ rest).takeWhile isNameChar = name ∧ (name ++ rest).dropWhile isNameChar = rest := by
  rw [List.takeWhile_append_of_pos hname.2, List.dropWhile_append_of_pos hname.2]
  cases rest with
  | nil => simp
  | cons c rest =>
    have hc : ¬isNameChar c := hrest c rfl
    simp [hc]

theorem ofDefinition?_paren (hname : IsName name) :
    ofDefinition? (name ++ '(' :: rest) =
      (Text.splitFirst? ')' rest).bind fun (list, rest) =>
        (paramsOf list).bind fun params =>
          (replacementOf rest).map fun body =>
            ⟨String.ofList name, some (params.map String.ofList), String.ofList body⟩ := by
  have hparen : ¬isNameChar '(' := by decide
  have hhead : ∀ c ∈ ('(' :: rest).head?, ¬isNameChar c := by simpa using hparen
  obtain ⟨htake, hdrop⟩ := splitName hname hhead
  rw [ofDefinition?, htake, hdrop]
  exact if_neg (by simpa using hname.1)

theorem ofDefinition?_plain (hname : IsName name) (hrest : ∀ c ∈ rest.head?, ¬isNameChar c)
    (hparen : rest.head? ≠ some '(') :
    ofDefinition? (name ++ rest) =
      (replacementOf rest).map fun body => ⟨String.ofList name, none, String.ofList body⟩ := by
  obtain ⟨htake, hdrop⟩ := splitName hname hrest
  rw [ofDefinition?, htake, hdrop, if_neg (by simpa using hname.1)]
  split
  · next => exact absurd rfl hparen
  · rfl

/-- What is read as a definition starts with a name. -/
theorem exists_name (h : ofDefinition? s = some m) :
    ∃ name rest, s = name ++ rest ∧ IsName name ∧ ∀ c ∈ rest.head?, ¬isNameChar c := by
  refine ⟨s.takeWhile isNameChar, s.dropWhile isNameChar, List.takeWhile_append_dropWhile.symm,
    ⟨fun hnone => ?_, fun c hc => List.mem_takeWhile_imp hc⟩, fun c hc => ?_⟩
  · rw [ofDefinition?, hnone] at h
    exact nomatch h
  · have hnot := List.head?_dropWhile_not isNameChar s
    rw [Option.mem_def.mp hc] at hnot
    simpa using hnot

theorem exists_signature (h : ofDefinition? s = some m) :
    m.WellFormed ∧ ∃ rest, replacementOf rest = some m.replacement.toList ∧
      s = m.signature.toList ++ rest := by
  obtain ⟨name, rest, rfl, hname, hhead⟩ := exists_name h
  by_cases hparen : rest.head? = some '('
  · obtain ⟨rest, rfl⟩ := List.head?_eq_some_iff.mp hparen
    rw [ofDefinition?_paren hname] at h
    obtain ⟨⟨list, rest'⟩, hclose, h⟩ := Option.bind_eq_some_iff.mp h
    obtain ⟨params, hparams, h⟩ := Option.bind_eq_some_iff.mp h
    obtain ⟨body, hbody, rfl⟩ := Option.map_eq_some_iff.mp h
    obtain ⟨hps, rfl⟩ := paramsOf_eq_some_iff.mp hparams
    obtain ⟨rfl, -⟩ := Text.splitFirst?_eq_some_iff.mp hclose
    refine ⟨⟨by simpa using hname, by simpa [Function.comp_def] using hps⟩, rest',
      by simpa using hbody, ?_⟩
    simp [signature, Function.comp_def]
  · rw [ofDefinition?_plain hname hhead hparen] at h
    obtain ⟨body, hbody, rfl⟩ := Option.map_eq_some_iff.mp h
    exact ⟨⟨by simpa using hname, by simp⟩, rest, by simpa using hbody, by simp [signature]⟩

theorem ofDefinition?_signature (hm : m.WellFormed)
    (hbody : replacementOf rest = some m.replacement.toList) :
    ofDefinition? (m.signature.toList ++ rest) = some m := by
  obtain ⟨name, params, replacement⟩ := m
  obtain ⟨hname, hparams⟩ := hm
  cases params with
  | none =>
    -- neither a name character nor a parenthesis follows the name
    have hblank : ¬isNameChar ' ' := by decide
    have hhead : (∀ c ∈ rest.head?, ¬isNameChar c) ∧ rest.head? ≠ some '(' := by
      obtain rfl | ⟨-, rfl⟩ := replacementOf_eq_some_iff.mp hbody
      · simpa using hblank
      · simp
    rw [signature, ofDefinition?_plain hname hhead.1 hhead.2, hbody]
    simp
  | some ps =>
    have hps : AreParams (ps.map String.toList) := hparams ps rfl
    have hclose : ')' ∉ [','].intercalate (ps.map String.toList) := fun hmem =>
      (hps.ne_of_mem_intercalate hmem).1 rfl
    have hsignature : (signature ⟨name, some ps, replacement⟩).toList ++ rest =
        name.toList ++ '(' :: ([','].intercalate (ps.map String.toList) ++ ')' :: rest) := by
      simp [signature]
    rw [hsignature, ofDefinition?_paren hname, Text.splitFirst?_append hclose]
    simp [paramsOf_eq_some_iff.mpr ⟨hps, rfl⟩, hbody, Function.comp_def]

/-- What follows the keyword is a macro's signature and what its replacement is read of. -/
theorem ofDefinition?_eq_some_iff :
    ofDefinition? s = some m ↔
      m.WellFormed ∧ ∃ rest, replacementOf rest = some m.replacement.toList ∧
        s = m.signature.toList ++ rest := by
  constructor
  · exact exists_signature
  · rintro ⟨hm, rest, hbody, rfl⟩
    exact ofDefinition?_signature hm hbody

/-- A line that defines a macro, as the characters that the reader goes through. -/
theorem writes_iff {line : String} :
    m.Writes line ↔
      m.WellFormed ∧ ∃ rest, replacementOf rest = some m.replacement.toList ∧
        line.toList = keyword ++ (m.signature.toList ++ rest) := by
  have hkeyword (t : String) : ("#define " ++ t).toList = keyword ++ t.toList :=
    String.toList_append
  have hblank : (" " : String).toList = [' '] := rfl
  simp only [Writes, ← String.toList_inj, replacementOf_eq_some_iff,
    String.append_assoc, hkeyword, String.toList_append, hblank]
  constructor
  · rintro ⟨hm, hs | ⟨hbody, hs⟩⟩
    · exact ⟨hm, ' ' :: m.replacement.toList, .inl rfl, hs⟩
    · exact ⟨hm, [], .inr ⟨by simp [hbody], rfl⟩, by rw [hs, List.append_nil]⟩
  · rintro ⟨hm, rest, rfl | ⟨hbody, rfl⟩, hs⟩
    · exact ⟨hm, .inl hs⟩
    · exact ⟨hm, .inr ⟨by simpa using hbody, by rw [hs, List.append_nil]⟩⟩

/-- The macro that is read of a line is the one that the line defines. -/
theorem ofLine?_eq_some_iff : ofLine? s = some m ↔ m.Writes (String.ofList s) := by
  rw [writes_iff, String.toList_ofList, ofLine?]
  split
  · next hprefix =>
    obtain ⟨rest, rfl⟩ := List.isPrefixOf_iff_prefix.mp hprefix
    simp [ofDefinition?_eq_some_iff]
  · next hprefix =>
    constructor
    · exact nofun
    · rintro ⟨-, rest, -, rfl⟩
      exact absurd (List.isPrefixOf_iff_prefix.mpr (List.prefix_append _ _)) hprefix

/-- The name and the parameters of a macro stay on their line. -/
theorem WellFormed.signature_ne (hm : m.WellFormed) (hc : c ∈ m.signature.toList) :
    c ≠ '\n' ∧ c ≠ '\r' := by
  obtain ⟨name, params, replacement⟩ := m
  have hname : ∀ c ∈ name.toList, c ≠ '\n' ∧ c ≠ '\r' := fun c hc =>
    (isNameChar_ne (hm.name.2 c hc)).2.2
  cases params with
  | none => exact hname c hc
  | some ps =>
    simp only [signature, String.toList_append, List.mem_append] at hc
    rcases hc with ((hc | hc) | hc) | hc
    · exact hname c hc
    · obtain rfl : c = '(' := by simpa using hc
      decide
    · exact ((hm.params ps rfl).ne_of_mem_intercalate (by simpa using hc)).2
    · obtain rfl : c = ')' := by simpa using hc
      decide

/-- Only the replacement of a macro can make its line more or less than one line. -/
theorem Writes.exists_front {line : String} (h : m.Writes line) :
    ∃ front, '#' ∈ front ∧ (∀ c ∈ front, c ≠ '\n' ∧ c ≠ '\r') ∧
      line.toList = front ++ m.replacement.toList := by
  obtain ⟨hm, rest, hrest, hline⟩ := writes_iff.mp h
  have hkeyword : '#' ∈ keyword ∧ keyword.all fun c => c ≠ '\n' ∧ c ≠ '\r' := by decide
  have hfront : ∀ c ∈ keyword ++ m.signature.toList, c ≠ '\n' ∧ c ≠ '\r' := fun c hc =>
    (List.mem_append.mp hc).elim (fun hc => of_decide_eq_true (List.all_eq_true.mp hkeyword.2 c hc))
      hm.signature_ne
  rw [← List.append_assoc] at hline
  rcases replacementOf_eq_some_iff.mp hrest with rfl | ⟨hempty, rfl⟩
  · refine ⟨keyword ++ m.signature.toList ++ [' '], by simp [hkeyword.1], fun c hc => ?_,
      by simpa using hline⟩
    rcases List.mem_append.mp hc with hc | hc
    · exact hfront c hc
    · obtain rfl : c = ' ' := by simpa using hc
      decide
  · exact ⟨_, List.mem_append_left _ hkeyword.1, hfront, by rw [hline, hempty]⟩

end Macro

/-! ## Texts -/

variable {line : List Char} {number : Nat}

/-- What the scanner has to say of a numbered line: the only macro that it defines, or a warning
that repeats it when it defines none. -/
def Classified (numbered : List Char × Nat) : Macro ⊕ MacroWarning → Prop
  | .inl m => ∀ m' : Macro, m'.Writes (String.ofList numbered.1) ↔ m' = m
  | .inr w => (∀ m : Macro, ¬m.Writes (String.ofList numbered.1)) ∧
      w = ⟨numbered.2, String.ofList numbered.1⟩

theorem classified_of_lineResult {result : Macro ⊕ MacroWarning}
    (h : lineResult number line = some result) : Classified (line, number) result := by
  unfold lineResult at h
  split at h
  · exact nomatch h
  · cases hread : Macro.ofLine? line with
    | none =>
      obtain rfl : .inr ⟨number, String.ofList line⟩ = result := by simpa [hread] using h
      refine ⟨fun m hm => ?_, rfl⟩
      rw [Macro.ofLine?_eq_some_iff.mpr hm] at hread
      exact nomatch hread
    | some m =>
      obtain rfl : .inl m = result := by simpa [hread] using h
      intro m'
      rw [← Macro.ofLine?_eq_some_iff, hread, Option.some_inj, eq_comm]

theorem lineResult_eq_none_iff : lineResult number line = none ↔ line.all Text.isBlank := by
  unfold lineResult
  split
  · simp_all
  · cases Macro.ofLine? line <;> simp_all

/-- The lines that are not blank are classified one after another, each under its number. -/
theorem forall₂_lineResults (lines : List (List Char)) (number : Nat) :
    List.Forall₂ Classified
      ((lines.zipIdx number).filter fun numbered => !numbered.1.all Text.isBlank)
      (lineResults number lines) := by
  induction lines generalizing number with
  | nil => exact .nil
  | cons line lines ih =>
    rw [List.zipIdx_cons, lineResults]
    cases hresult : lineResult number line with
    | none =>
      have hblank := lineResult_eq_none_iff.mp hresult
      simpa [hblank] using ih (number + 1)
    | some result =>
      have hblank : ¬line.all Text.isBlank := fun h => by
        rw [lineResult_eq_none_iff.mpr h] at hresult
        exact nomatch hresult
      rw [List.filter_cons_of_pos (by simpa using hblank)]
      exact .cons (classified_of_lineResult hresult) (ih (number + 1))

theorem lineResults_of_writes {m : Macro} (h : m.Writes (String.ofList line)) :
    lineResults number [line] = [.inl m] := by
  obtain ⟨front, hmem, -, hline⟩ := h.exists_front
  rw [String.toList_ofList] at hline
  have hblank : ¬line.all Text.isBlank := fun hall =>
    absurd (List.all_eq_true.mp hall '#' (by simp [hline, hmem])) (by decide)
  simp [lineResults, lineResult, hblank, Macro.ofLine?_eq_some_iff.mpr h]

/-- The line of a macro is one line, with and without a line feed behind it. -/
theorem lines_of_writes {m : Macro} {line : String} (h : m.Writes line)
    (hfeed : '\n' ∉ m.replacement.toList) (hreturn : m.replacement.toList.getLast? ≠ some '\r') :
    Text.lines line.toList = [line.toList] ∧
      Text.lines (line.toList ++ ['\n']) = [line.toList] := by
  obtain ⟨front, hmem, hfront, hline⟩ := h.exists_front
  have hne : line.toList ≠ [] := by
    rw [hline]
    exact List.append_ne_nil_of_left_ne_nil (List.ne_nil_of_mem hmem) _
  have hfeed' : '\n' ∉ line.toList := by
    rw [hline, List.mem_append, not_or]
    exact ⟨fun hc => (hfront _ hc).1 rfl, hfeed⟩
  have hreturn' : line.toList.getLast? ≠ some '\r' := by
    rw [hline, List.getLast?_append]
    intro hlast
    rcases Option.or_eq_some_iff.mp hlast with hlast | ⟨-, hlast⟩
    · exact hreturn hlast
    · exact (hfront _ (List.mem_of_getLast? hlast)).2 rfl
  refine ⟨Text.lines_of_not_mem hne hfeed', ?_⟩
  rw [Text.lines_append hfeed', Text.dropReturn, if_neg hreturn']
  rfl

/-- The scanner reads the lines of a text by the grammar of definitions: it has one result for each
line that is not blank, in their order. The line of a macro reads back as this macro. -/
theorem scanMacros_exact :
    (∀ text : String, ∃ lines results, Text.HasLines text.toList lines ∧
      List.Forall₂ Classified
        ((lines.zipIdx 1).filter fun numbered => !numbered.1.all Text.isBlank) results ∧
      (scanMacros text).macros = results.filterMap Sum.getLeft? ∧
      (scanMacros text).warnings = results.filterMap Sum.getRight?) ∧
    ∀ (m : Macro) (line : String), m.Writes line → '\n' ∉ m.replacement.toList →
      m.replacement.toList.getLast? ≠ some '\r' →
      scanMacros line = ⟨[m], []⟩ ∧ scanMacros (line ++ "\n") = ⟨[m], []⟩ := by
  refine ⟨fun text => ⟨_, _, Text.hasLines_lines _, forall₂_lineResults _ 1, rfl, rfl⟩,
    fun m line h hfeed hreturn => ?_⟩
  have hresults : lineResults 1 [line.toList] = [.inl m] :=
    lineResults_of_writes (by rwa [String.ofList_toList])
  obtain ⟨hlast, hended⟩ := lines_of_writes h hfeed hreturn
  constructor
  · simp [scanMacros, hlast, hresults]
  · simp [scanMacros, hended, hresults]

theorem scanMacros_exact_open :
    (⟨"OPEN", some ["path", "..."], "open(path, __VA_ARGS__)"⟩ : Macro).Writes
        "#define OPEN(path,...) open(path, __VA_ARGS__)" ∧
      scanMacros "#define OPEN(path,...) open(path, __VA_ARGS__)" =
        ⟨[⟨"OPEN", some ["path", "..."], "open(path, __VA_ARGS__)"⟩], []⟩ := by
  have hread : Macro.ofLine? "#define OPEN(path,...) open(path, __VA_ARGS__)".toList =
      some ⟨"OPEN", some ["path", "..."], "open(path, __VA_ARGS__)"⟩ := by decide +kernel
  have hwrites := Macro.ofLine?_eq_some_iff.mp hread
  rw [String.ofList_toList] at hwrites
  exact ⟨hwrites, (scanMacros_exact.2 _ _ hwrites (by decide +kernel) (by decide +kernel)).1⟩

end ForeignCall
