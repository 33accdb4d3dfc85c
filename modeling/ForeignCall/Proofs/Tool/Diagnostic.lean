import ForeignCall.Proofs.Constant.Literals
import ForeignCall.Proofs.Text.Parts
import ForeignCall.Tool.Diagnostic
import Mathlib.Data.List.Forall2

/-!
# ForeignCall.Proofs.Tool.Diagnostic

Reports of syntax errors that are read back. A report consists of its file, line, column and
message with colons in between, so it reads back when the reader finds the same colons. It does not
for a file that is called by one letter: this letter and the colon behind it pass for a drive.

* `IsDecimal`, `readDecimal_eq_some_iff` — decimal numbers as the reader of a report has them;
* `ofTrimmed?_eq_some_iff` — what is read of a text without blanks around it;
* `report_recovered` — which reports read back, and what any text that is read consists of.
-/

namespace ForeignCall

variable {n d bound : Nat} {c : Char} {s : List Char}

/-! ## Decimal numbers -/

theorem isDigit_of_decimal (h : IsDigit 10 c d) : c.isDigit := by
  have hdigits : ∀ d < 10, d.digitChar.isDigit ∧ d.digitChar.toUpper.isDigit := by decide
  obtain ⟨hd, rfl | rfl⟩ := h
  · exact (hdigits d hd).1
  · exact (hdigits d hd).2

theorem Spells.isDigit (h : Spells 10 s n) (hc : c ∈ s) : c.isDigit := by
  obtain ⟨ds, hds, -⟩ := h
  obtain ⟨d, hd⟩ := exists_isDigit hds hc
  exact isDigit_of_decimal hd

/-- The digits of a number spell it. -/
theorem spells_toDigits (n : Nat) : Spells 10 (Nat.toDigits 10 n) n := by
  induction n using Nat.strongRecOn with
  | _ n ih =>
    by_cases hn : n < 10
    · rw [Nat.toDigits_of_lt_base hn]
      exact ⟨[n], .cons ⟨hn, .inl rfl⟩ .nil, by simp⟩
    · obtain ⟨ds, hds, hvalue⟩ := ih (n / 10) (by omega)
      have hlast : IsDigit 10 (n % 10).digitChar (n % 10) := ⟨by omega, .inl rfl⟩
      rw [Nat.toDigits_of_base_le (by decide) (by omega)]
      refine ⟨ds ++ [n % 10], List.rel_append hds (.cons hlast .nil), ?_⟩
      rw [List.reverse_append, List.reverse_singleton, List.singleton_append, Nat.ofDigits_cons,
        hvalue]
      exact Nat.mod_add_div n 10

/-- A decimal number: one or more digits, maybe with a plus sign in front of them. -/
def IsDecimal (s : List Char) (n : Nat) : Prop :=
  ∃ digits, digits ≠ [] ∧ Spells 10 digits n ∧ (s = digits ∨ s = '+' :: digits)

theorem isDecimal_toDigits (n : Nat) : IsDecimal (Nat.toDigits 10 n) n :=
  ⟨_, Nat.toDigits_ne_nil, spells_toDigits n, .inl rfl⟩

theorem IsDecimal.mem (h : IsDecimal s n) (hc : c ∈ s) : c.isDigit ∨ c = '+' := by
  obtain ⟨digits, -, hspells, rfl | rfl⟩ := h
  · exact .inl (hspells.isDigit hc)
  · rcases List.mem_cons.mp hc with rfl | hc
    · exact .inr rfl
    · exact .inl (hspells.isDigit hc)

theorem readDecimal_eq_some_iff :
    Text.readDecimal bound s = some n ↔ IsDecimal s n ∧ n ≤ bound := by
  unfold Text.readDecimal
  dsimp only
  rw [Option.filter_eq_some_iff, ofDigits?_eq_some_iff (by decide), decide_eq_true_iff,
    and_congr_left_iff]
  intro _
  split
  · next rest =>
    constructor
    · rintro ⟨hne, hspells⟩
      exact ⟨rest, hne, hspells, .inr rfl⟩
    · rintro ⟨digits, hne, hspells, rfl | hplus⟩
      · -- no digit is a plus sign
        exact absurd (hspells.isDigit List.mem_cons_self) (by decide)
      · obtain rfl := List.tail_eq_of_cons_eq hplus
        exact ⟨hne, hspells⟩
  · next hplus =>
    constructor
    · rintro ⟨hne, hspells⟩
      exact ⟨s, hne, hspells, .inl rfl⟩
    · rintro ⟨digits, hne, hspells, rfl | rfl⟩
      · exact ⟨hne, hspells⟩
      · exact absurd rfl (hplus digits)

namespace Diagnostic

/-! ## Reports -/

/-- The text of a report. -/
def report (d : Diagnostic) : String :=
  d.file ++ ":" ++ toString d.line ++ ":" ++ toString d.column ++ ": " ++ d.message

/-- The name of a file without its drive, as reports have it. -/
structure IsFileName (file : List Char) : Prop where
  ne_nil : file ≠ []
  no_colon : ':' ∉ file
  trimmed : Text.Trimmed file

/-- Nothing, or a letter and a colon. -/
def IsDrive (drive : List Char) : Prop := drive = [] ∨ ∃ c : Char, c.isAlpha ∧ drive = [c, ':']

/-- The file has no drive, and its name is one letter. -/
def PassesForDrive (drive file : List Char) : Prop :=
  drive = [] ∧ ∃ c : Char, c.isAlpha ∧ file = [c]

variable {drive file line column rest message : List Char}

theorem splitDrive_append : (splitDrive s).1 ++ (splitDrive s).2 = s := by
  unfold splitDrive
  split
  · split <;> rfl
  · rfl

theorem splitDrive_file (hdrive : IsDrive drive) (hfile : IsFileName file)
    (h : ¬PassesForDrive drive file) :
    splitDrive (drive ++ (file ++ ':' :: rest)) = (drive, file ++ ':' :: rest) := by
  obtain rfl | ⟨c, hc, rfl⟩ := hdrive
  · match file, hfile with
    | [], hfile => exact absurd rfl hfile.ne_nil
    | [c], _ =>
      have hc : c.isAlpha = false := by
        simpa using fun hc => h ⟨rfl, c, hc, rfl⟩
      simp [splitDrive, hc]
    | c :: c' :: file, hfile =>
      have hc' : c' ≠ ':' := fun hc' => hfile.no_colon (by simp [hc'])
      unfold splitDrive
      split
      · next heq => simp_all
      · rfl
  · simp [splitDrive, hc]

theorem splitDrive_letter (hc : c.isAlpha) : splitDrive (c :: ':' :: rest) = ([c, ':'], rest) := by
  simp [splitDrive, hc]

/-! ## What is read -/

/-- Behind the drive a report consists of its file, line, column and message. -/
theorem ofTrimmed?_eq_some_iff {d : Diagnostic} :
    ofTrimmed? s = some d ↔ ∃ file line column rest,
      (splitDrive s).2 = file ++ ':' :: (line ++ ':' :: (column ++ ':' :: rest)) ∧
      ':' ∉ file ∧ ':' ∉ line ∧ ':' ∉ column ∧ file ≠ [] ∧
      Text.readDecimal limit line = some d.line ∧ Text.readDecimal limit column = some d.column ∧
      d.file = String.ofList ((splitDrive s).1 ++ file) ∧
      d.message = String.ofList (Text.trim rest) := by
  obtain ⟨name, lineNumber, columnNumber, message⟩ := d
  unfold ofTrimmed?
  dsimp only
  constructor
  · intro h
    obtain ⟨⟨file, rest₁⟩, hfile, h⟩ := Option.bind_eq_some_iff.mp h
    rw [Option.ite_none_left_eq_some] at h
    obtain ⟨hne, h⟩ := h
    obtain ⟨⟨line, rest₂⟩, hline, h⟩ := Option.bind_eq_some_iff.mp h
    obtain ⟨_, hlineValue, h⟩ := Option.bind_eq_some_iff.mp h
    obtain ⟨⟨column, rest⟩, hcolumn, h⟩ := Option.bind_eq_some_iff.mp h
    obtain ⟨_, hcolumnValue, h⟩ := Option.bind_eq_some_iff.mp h
    cases h
    obtain ⟨hs, hfileColon⟩ := Text.splitFirst?_eq_some_iff.mp hfile
    obtain ⟨rfl, hlineColon⟩ := Text.splitFirst?_eq_some_iff.mp hline
    obtain ⟨rfl, hcolumnColon⟩ := Text.splitFirst?_eq_some_iff.mp hcolumn
    exact ⟨file, line, column, rest, hs, hfileColon, hlineColon, hcolumnColon, by simpa using hne,
      hlineValue, hcolumnValue, rfl, rfl⟩
  · rintro ⟨file, line, column, rest, hs, hfile, hline, hcolumn, hne, hlineValue, hcolumnValue,
      rfl, rfl⟩
    rw [hs, Text.splitFirst?_append hfile]
    simp [hne, Text.splitFirst?_append hline, hlineValue, Text.splitFirst?_append hcolumn,
      hcolumnValue]

/-- Blanks are taken from a report only behind its last colon. -/
theorem trim_report {d : Diagnostic} (h : ∀ c ∈ d.file.toList.head?, ¬Text.isBlank c) :
    Text.trim d.report.toList =
      d.file.toList ++ ':' :: (Nat.toDigits 10 d.line ++ ':' :: (Nat.toDigits 10 d.column ++
        ':' :: Text.trimRight (' ' :: d.message.toList))) := by
  let place := d.file.toList ++ ':' :: (Nat.toDigits 10 d.line ++ ':' :: Nat.toDigits 10 d.column)
  have hreport : d.report.toList = (place ++ [':']) ++ ' ' :: d.message.toList := by
    simp [report, place]
  have hstart : ∀ c ∈ d.report.toList.head?, ¬Text.isBlank c := by
    rw [hreport]
    cases hfile : d.file.toList with
    | nil => simp [place, hfile, show Text.isBlank ':' = false by decide]
    | cons c file => simpa [place, hfile] using h
  have hstop : ∀ c ∈ (place ++ [':']).getLast?, ¬Text.isBlank c := by
    simp [show Text.isBlank ':' = false by decide]
  rw [Text.trim, Text.trimLeft_eq_self hstart, hreport, Text.trimRight_append hstop]
  simp [place]

theorem trim_message (h : Text.Trimmed message) :
    Text.trim (Text.trimRight (' ' :: message)) = message := by
  cases message with
  | nil => decide
  | cons c message =>
    have hstop : ∀ c' ∈ (' ' :: c :: message).getLast?, ¬Text.isBlank c' := by simpa using h.2
    have hleft : Text.trimLeft (' ' :: c :: message) = Text.trimLeft (c :: message) := by
      simp [Text.trimLeft, show Text.isBlank ' ' = true by decide]
    rw [Text.trimRight_eq_self hstop, Text.trim, hleft]
    exact Text.trim_eq_self h

theorem no_colon_toDigits (n : Nat) : ':' ∉ Nat.toDigits 10 n := fun h =>
  absurd (Nat.isDigit_of_mem_toDigits (by decide) (by decide) h) (by decide)

theorem readDecimal_toDigits (h : n ≤ limit) :
    Text.readDecimal limit (Nat.toDigits 10 n) = some n :=
  readDecimal_eq_some_iff.mpr ⟨isDecimal_toDigits n, h⟩

/-- What stands behind the last colon of a report holds no number in front of a colon. -/
theorem readDecimal_message {a b : List Char}
    (h : Text.trimRight (' ' :: message) = a ++ ':' :: b) : Text.readDecimal limit a = none := by
  have hblank : a ++ ':' :: b <+: ' ' :: message := h ▸ Text.trimRight_prefix _
  rw [Option.eq_none_iff_forall_ne_some]
  intro n hn
  obtain ⟨hdecimal, -⟩ := readDecimal_eq_some_iff.mp hn
  cases a with
  | nil => simp at hblank
  | cons c a =>
    obtain ⟨rfl, -⟩ := List.cons_prefix_cons.mp hblank
    exact absurd (hdecimal.mem List.mem_cons_self) (by decide)

/-! ## Reading reports -/

variable {d : Diagnostic}

theorem not_isBlank_start (hdrive : IsDrive drive) (hfile : IsFileName file) :
    ∀ c ∈ (drive ++ file).head?, ¬Text.isBlank c := by
  obtain rfl | ⟨c, hc, rfl⟩ := hdrive
  · exact hfile.trimmed.1
  · simpa using Text.not_isBlank_of_isAlpha hc

theorem ofText?_report (hname : d.file.toList = drive ++ file) (hdrive : IsDrive drive)
    (hfile : IsFileName file) (hline : d.line ≤ limit) (hcolumn : d.column ≤ limit)
    (hmessage : Text.Trimmed d.message.toList) (h : ¬PassesForDrive drive file) :
    ofText? d.report = some d := by
  have hstart := not_isBlank_start hdrive hfile
  rw [← hname] at hstart
  rw [ofText?, trim_report hstart, hname, List.append_assoc, ofTrimmed?_eq_some_iff,
    splitDrive_file hdrive hfile h]
  refine ⟨file, _, _, _, rfl, hfile.no_colon, no_colon_toDigits _, no_colon_toDigits _,
    hfile.ne_nil, readDecimal_toDigits hline, readDecimal_toDigits hcolumn, ?_, ?_⟩
  · rw [← hname, String.ofList_toList]
  · rw [trim_message hmessage, String.ofList_toList]

theorem ofText?_report_eq_none (hname : d.file.toList = drive ++ file)
    (h : PassesForDrive drive file) : ofText? d.report = none := by
  obtain ⟨rfl, c, hc, rfl⟩ := h
  have hstart : ∀ c ∈ d.file.toList.head?, ¬Text.isBlank c := by
    simpa [hname] using Text.not_isBlank_of_isAlpha hc
  rw [Option.eq_none_iff_forall_ne_some]
  intro e he
  rw [ofText?, trim_report hstart, hname, List.nil_append, List.singleton_append,
    ofTrimmed?_eq_some_iff, splitDrive_letter hc] at he
  obtain ⟨file, line, column, rest, hrest, hfile, hline, -, -, -, hcolumn, -, -⟩ := he
  -- the line passes for the file and the column for the line, so the message holds the column
  obtain ⟨-, hrest⟩ := Text.eq_of_append_separator (no_colon_toDigits _) hfile hrest
  obtain ⟨-, hrest⟩ := Text.eq_of_append_separator (no_colon_toDigits _) hline hrest
  rw [readDecimal_message hrest] at hcolumn
  exact nomatch hcolumn

/-- What is read of a text stands in it, with colons in between. -/
theorem exists_parts_of_ofText? {text : String} (h : ofText? text = some d) :
    ∃ line column rest, Text.trim text.toList =
        d.file.toList ++ ':' :: (line ++ ':' :: (column ++ ':' :: rest)) ∧
      IsDecimal line d.line ∧ IsDecimal column d.column ∧
      d.message = String.ofList (Text.trim rest) := by
  obtain ⟨file, line, column, rest, hs, -, -, -, -, hline, hcolumn, hfile, hmessage⟩ :=
    ofTrimmed?_eq_some_iff.mp h
  refine ⟨line, column, rest, ?_, (readDecimal_eq_some_iff.mp hline).1,
    (readDecimal_eq_some_iff.mp hcolumn).1, hmessage⟩
  rw [hfile, String.toList_ofList, List.append_assoc, ← hs, splitDrive_append]

/-- **A report reads back exactly when its file does not pass for a drive**, else nothing is read;
and a text of which something is read consists of this file, line, column and message, with colons
in between. -/
theorem report_recovered (drive file message : String) (line column : Nat) (text : String) :
    (IsDrive drive.toList → IsFileName file.toList → line ≤ limit → column ≤ limit →
      Text.Trimmed message.toList →
      (ofText? (report ⟨drive ++ file, line, column, message⟩) =
          some ⟨drive ++ file, line, column, message⟩ ↔
        ¬PassesForDrive drive.toList file.toList) ∧
      (PassesForDrive drive.toList file.toList →
        ofText? (report ⟨drive ++ file, line, column, message⟩) = none)) ∧
    ∀ d : Diagnostic, ofText? text = some d →
      ∃ line column rest, Text.trim text.toList =
          d.file.toList ++ ':' :: (line ++ ':' :: (column ++ ':' :: rest)) ∧
        IsDecimal line d.line ∧ IsDecimal column d.column ∧
        d.message = String.ofList (Text.trim rest) := by
  refine ⟨fun hdrive hfile hline hcolumn hmessage => ?_, fun d => exists_parts_of_ofText?⟩
  have hname : (drive ++ file).toList = drive.toList ++ file.toList := String.toList_append
  refine ⟨⟨fun hread hpasses => ?_, ?_⟩, fun hpasses => ofText?_report_eq_none hname hpasses⟩
  · rw [ofText?_report_eq_none hname hpasses] at hread
    exact nomatch hread
  · exact ofText?_report hname hdrive hfile hline hcolumn hmessage

theorem report_recovered_stdio :
    IsDrive "C:".toList ∧ IsFileName "\\include\\stdio.h".toList ∧
      Text.Trimmed "syntax error".toList ∧
      ofText? (report ⟨"C:" ++ "\\include\\stdio.h", 7, 4294967295, "syntax error"⟩) =
        some ⟨"C:" ++ "\\include\\stdio.h", 7, 4294967295, "syntax error"⟩ := by
  have hdrive : IsDrive "C:".toList := .inr ⟨'C', by decide, by decide +kernel⟩
  have hfile : IsFileName "\\include\\stdio.h".toList :=
    ⟨by decide +kernel, by decide +kernel, by decide +kernel⟩
  have hmessage : Text.Trimmed "syntax error".toList := by decide +kernel
  have hpasses : ¬PassesForDrive "C:".toList "\\include\\stdio.h".toList := fun h =>
    absurd h.1 (by decide +kernel)
  have hread := (report_recovered "C:" "\\include\\stdio.h" "syntax error" 7 4294967295 "").1
    hdrive hfile (by decide) (by decide) hmessage
  exact ⟨hdrive, hfile, hmessage, hread.1.mpr hpasses⟩

/-- A report on a file that is called `a` is not read. -/
theorem report_letter_lost :
    IsDrive "".toList ∧ IsFileName "a".toList ∧ Text.Trimmed "m".toList ∧
      report ⟨"" ++ "a", 1, 2, "m"⟩ = "a:1:2: m" ∧ ofText? "a:1:2: m" = none := by
  refine ⟨.inl rfl, ⟨by decide +kernel, by decide +kernel, by decide +kernel⟩, by decide +kernel,
    by decide +kernel, by decide +kernel⟩

end Diagnostic

end ForeignCall
