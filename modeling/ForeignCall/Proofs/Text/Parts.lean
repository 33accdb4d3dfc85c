import ForeignCall.Text.Blank
import Mathlib.Data.List.TakeWhile

/-!
# ForeignCall.Proofs.Text.Parts

How a text is taken apart: at separators, from the blanks around it, and into lines.

* `splitFirst?_eq_some_iff` — the first separator is the one with none in front of it;
* `append_mark_eq_iff` — when the texts on the two sides of a mark are not told apart;
* `splitWhere_eq_splitOn` — the parts between separators are those of the core library;
* `Trimmed`, `trim_eq_self` — a text without blanks at its ends is left as it is;
* `trimRight_append` — blanks are taken from behind what ends without one;
* `trim_append`, `exists_append_trim` — blanks around a text, and nothing else, are taken from it;
* `HasLines`, `hasLines_iff` — what the lines of a text are.
-/

namespace ForeignCall.Text

variable {separator : Char} {s a b : List Char}

/-! ## Separators -/

theorem splitFirst?_append (h : separator ∉ a) :
    splitFirst? separator (a ++ separator :: b) = some (a, b) := by
  induction a with
  | nil => simp [splitFirst?]
  | cons c a ih =>
    rw [List.mem_cons, not_or] at h
    simp [splitFirst?, Ne.symm h.1, ih h.2]

theorem splitFirst?_eq_some_iff :
    splitFirst? separator s = some (a, b) ↔ s = a ++ separator :: b ∧ separator ∉ a := by
  constructor
  · intro h
    induction s generalizing a with
    | nil => simp [splitFirst?] at h
    | cons c s ih =>
      rw [splitFirst?] at h
      split at h
      · next hc => simp_all
      · next hc =>
        obtain ⟨⟨a', b'⟩, hsplit, hab⟩ := Option.map_eq_some_iff.mp h
        obtain ⟨rfl, rfl⟩ := Prod.mk.inj hab
        have hrest := ih hsplit
        simp [hrest.1, hrest.2, Ne.symm hc]
  · rintro ⟨rfl, h⟩
    exact splitFirst?_append h

/-- What stands on the two sides of the first separator. -/
theorem eq_of_append_separator {a' b' : List Char} (ha : separator ∉ a) (ha' : separator ∉ a')
    (h : a ++ separator :: b = a' ++ separator :: b') : a = a' ∧ b = b' := by
  have hsplit := splitFirst?_append (b := b) ha
  rw [h, splitFirst?_append ha'] at hsplit
  simp_all

/-- What stands on the two sides of the last separator. -/
theorem eq_of_append_last_separator {a' b' : List Char} (hb : separator ∉ b)
    (hb' : separator ∉ b') (h : a ++ separator :: b = a' ++ separator :: b') : a = a' ∧ b = b' := by
  have hreverse : b.reverse ++ separator :: a.reverse = b'.reverse ++ separator :: a'.reverse := by
    simpa using congrArg List.reverse h
  obtain ⟨hright, hleft⟩ := eq_of_append_separator (by simpa using hb) (by simpa using hb') hreverse
  exact ⟨List.reverse_inj.mp hleft, List.reverse_inj.mp hright⟩

/-- A mark that holds its first character only once does not overlap itself: behind one mark, the
next starts where the first ends or later. -/
theorem eq_of_mark_append {mark between : List Char} (hmark : separator ∉ mark) {b' : List Char}
    (h : separator :: mark ++ b = between ++ (separator :: mark ++ b')) (hne : between ≠ []) :
    ∃ middle, between = separator :: mark ++ middle ∧ b = middle ++ (separator :: mark ++ b') := by
  rcases List.append_eq_append_iff.mp h with ⟨middle, hbetween, hb⟩ | ⟨rest, hwhole, hb⟩
  · exact ⟨middle, hbetween, hb⟩
  · obtain ⟨c, between, rfl⟩ := List.exists_cons_of_ne_nil hne
    obtain ⟨rfl, rfl⟩ := List.cons.inj hwhole
    cases rest with
    | nil => exact ⟨[], by simp, by simpa using hb.symm⟩
    | cons d rest =>
      obtain ⟨rfl, -⟩ := List.cons.inj hb
      simp at hmark

/-- Where two texts around such a mark are one, they part at one mark, or one of them parts at a
mark behind the other's. -/
theorem append_mark_eq_iff {mark : List Char} (hmark : separator ∉ mark) {a' b' : List Char} :
    a ++ (separator :: mark ++ b) = a' ++ (separator :: mark ++ b') ↔
      a = a' ∧ b = b' ∨
        (∃ middle, a' = a ++ (separator :: mark ++ middle) ∧
          b = middle ++ (separator :: mark ++ b')) ∨
        ∃ middle, a = a' ++ (separator :: mark ++ middle) ∧
          b' = middle ++ (separator :: mark ++ b) := by
  constructor
  · intro h
    rcases List.append_eq_append_iff.mp h with ⟨between, rfl, hb⟩ | ⟨between, rfl, hb⟩
    · by_cases hne : between = []
      · subst hne
        exact .inl (by simpa using hb)
      · exact .inr (.inl (by simpa using eq_of_mark_append hmark hb hne))
    · by_cases hne : between = []
      · subst hne
        exact .inl (by simpa using hb.symm)
      · exact .inr (.inr (by simpa using eq_of_mark_append hmark hb hne))
  · rintro (⟨rfl, rfl⟩ | ⟨middle, rfl, rfl⟩ | ⟨middle, rfl, rfl⟩) <;> simp

/-- The parts that are joined by a separator may hold it themselves. -/
theorem splitOn_intercalate_eq_flatMap {parts : List (List Char)} (h : parts ≠ []) :
    ([separator].intercalate parts).splitOn separator =
      parts.flatMap fun part => part.splitOn separator := by
  induction parts with
  | nil => exact absurd rfl h
  | cons part parts ih =>
    cases parts with
    | nil => simp
    | cons next parts =>
      rw [List.intercalate_cons_cons, List.append_assoc, List.singleton_append,
        List.splitOn_append_cons_self, ih (List.cons_ne_nil next parts)]
      exact List.flatMap_cons.symm

theorem splitWhere_eq_splitOn {α : Type} [DecidableEq α] (x : α) (s : List α) :
    splitWhere (· = x) s = s.splitOn x := by
  induction s with
  | nil => simp [splitWhere]
  | cons c s ih =>
    obtain ⟨p, ps, hparts⟩ := List.exists_cons_of_ne_nil (List.splitOn_ne_nil x s)
    rw [splitWhere, ih, hparts, List.splitOn_cons_eq_if_modifyHead, hparts]
    by_cases hc : c = x <;> simp [hc]

/-! ## Blanks -/

/-- A text that neither starts nor ends with a blank. -/
def Trimmed (s : List Char) : Prop :=
  (∀ c ∈ s.head?, ¬isBlank c) ∧ ∀ c ∈ s.getLast?, ¬isBlank c

instance : DecidablePred Trimmed := fun s =>
  decidable_of_iff (s.head?.all (!isBlank ·) ∧ s.getLast?.all (!isBlank ·)) (by
    simp [Trimmed, Option.all_eq_true])

theorem not_isBlank_of_isAlpha {c : Char} (h : c.isAlpha) : ¬isBlank c := by
  have hclass : (decide (65 ≤ c.val ∧ c.val ≤ 90) || (97 ≤ c.val && c.val ≤ 122)) = true := h
  simp only [Bool.or_eq_true, Bool.and_eq_true, decide_eq_true_eq, UInt32.le_iff_toNat_le,
    Char.toNat_val] at hclass
  have hcode : 65 ≤ c.toNat ∧ c.toNat ≤ 122 := by
    simp at hclass
    omega
  simp only [isBlank, Bool.or_eq_true, Bool.and_eq_true, decide_eq_true_eq, beq_iff_eq]
  omega

theorem not_isBlank_of_isDigit {c : Char} (h : c.isDigit) : ¬isBlank c := by
  simp only [Char.isDigit, Bool.and_eq_true, decide_eq_true_eq, ge_iff_le,
    UInt32.le_iff_toNat_le, Char.toNat_val] at h
  have hcode : 48 ≤ c.toNat ∧ c.toNat ≤ 57 := h
  simp only [isBlank, Bool.or_eq_true, Bool.and_eq_true, decide_eq_true_eq, beq_iff_eq]
  omega

theorem not_isBlank_of_isAlphanum {c : Char} (h : c.isAlphanum) : ¬isBlank c := by
  rcases Bool.or_eq_true_iff.mp h with h | h
  · exact not_isBlank_of_isAlpha h
  · exact not_isBlank_of_isDigit h

theorem trimLeft_eq_self (h : ∀ c ∈ s.head?, ¬isBlank c) : trimLeft s = s := by
  cases s with
  | nil => rfl
  | cons c s => simpa [trimLeft] using h

theorem trimRight_prefix (s : List Char) : trimRight s <+: s := by
  unfold trimRight
  rw [← List.reverse_suffix, List.reverse_reverse]
  exact List.dropWhile_suffix _

theorem trimRight_append (h : ∀ c ∈ a.getLast?, ¬isBlank c) :
    trimRight (a ++ b) = a ++ trimRight b := by
  have ha : a.reverse.dropWhile isBlank = a.reverse :=
    trimLeft_eq_self (by simpa [List.head?_reverse] using h)
  unfold trimRight
  rw [List.reverse_append, List.dropWhile_append, ha]
  split
  · next hb => simp [List.isEmpty_iff.mp hb]
  · simp

theorem trimRight_eq_self (h : ∀ c ∈ s.getLast?, ¬isBlank c) : trimRight s = s := by
  simpa [trimRight] using trimRight_append (b := []) h

theorem trim_eq_self (h : Trimmed s) : trim s = s := by
  rw [trim, trimLeft_eq_self h.1, trimRight_eq_self h.2]

theorem trimRight_eq_nil (h : ∀ c ∈ s, isBlank c) : trimRight s = [] := by
  unfold trimRight
  rw [List.reverse_eq_nil_iff, List.dropWhile_eq_nil_iff]
  exact fun c hc => h c (List.mem_reverse.mp hc)

/-- Blanks around a text are taken from it. -/
theorem trim_append (ha : ∀ c ∈ a, isBlank c) (hb : ∀ c ∈ b, isBlank c) (h : Trimmed s)
    (hne : s ≠ []) : trim (a ++ s ++ b) = s := by
  have hstart : ∀ c ∈ (s ++ b).head?, ¬isBlank c := by
    obtain ⟨c, s, rfl⟩ := List.exists_cons_of_ne_nil hne
    exact h.1
  have hleft : trimLeft (a ++ (s ++ b)) = s ++ b :=
    (List.dropWhile_append_of_pos ha).trans (trimLeft_eq_self hstart)
  rw [trim, List.append_assoc, hleft, trimRight_append h.2, trimRight_eq_nil hb, List.append_nil]

/-- What is taken from the start of a text are blanks. -/
theorem exists_append_trimLeft (s : List Char) :
    ∃ blanks, (∀ c ∈ blanks, isBlank c) ∧ s = blanks ++ trimLeft s :=
  ⟨s.takeWhile isBlank, fun _ => List.mem_takeWhile_imp, List.takeWhile_append_dropWhile.symm⟩

/-- From a text that does not end with a blank only those at its start are taken. -/
theorem trim_eq_trimLeft (h : ∀ c ∈ s.getLast?, ¬isBlank c) : trim s = trimLeft s := by
  refine trimRight_eq_self fun c hc => h c ?_
  obtain ⟨blanks, -, hs⟩ := exists_append_trimLeft s
  rw [hs, List.getLast?_append, Option.mem_def.mp hc]
  rfl

/-- What is taken from a text are blanks around it. -/
theorem exists_append_trim (s : List Char) :
    ∃ before after, (∀ c ∈ before, isBlank c) ∧ (∀ c ∈ after, isBlank c) ∧
      s = before ++ trim s ++ after := by
  obtain ⟨before, hbefore, hleft⟩ := exists_append_trimLeft s
  obtain ⟨after, hafter, hright⟩ := exists_append_trimLeft (trimLeft s).reverse
  refine ⟨before, after.reverse, hbefore, fun c hc => hafter c (List.mem_reverse.mp hc), ?_⟩
  have htrim : trimLeft s = trim s ++ after.reverse := by
    simpa [trim, trimRight, trimLeft] using congrArg List.reverse hright
  rw [List.append_assoc, ← htrim, ← hleft]

/-- A text from which the blanks have been taken does not end with one. -/
theorem getLast?_trim : ∀ c ∈ (trim s).getLast?, ¬isBlank c := by
  intro c hc
  rw [trim, trimRight, List.getLast?_reverse] at hc
  have hhead := List.head?_dropWhile_not isBlank (trimLeft s).reverse
  rw [hc] at hhead
  simpa using hhead

/-! ## Lines -/

/-- The lines of a text: each ends at a line feed, of which one carriage return in front of it is a
part, or at the end of the text. -/
inductive HasLines : List Char → List (List Char) → Prop
  | nil : HasLines [] []
  | last {line : List Char} (hne : line ≠ []) (hline : '\n' ∉ line) : HasLines line [line]
  | feed {line rest : List Char} {lines : List (List Char)} (hline : '\n' ∉ line)
    (hreturn : line.getLast? ≠ some '\r') (hrest : HasLines rest lines) :
    HasLines (line ++ '\n' :: rest) (line :: lines)
  | returnFeed {line rest : List Char} {lines : List (List Char)} (hline : '\n' ∉ line)
    (hrest : HasLines rest lines) : HasLines (line ++ '\r' :: '\n' :: rest) (line :: lines)

theorem lines_of_not_mem (hne : s ≠ []) (hs : '\n' ∉ s) : lines s = [s] := by
  have hpieces : pieces s = [s] := by
    rw [pieces, splitWhere_eq_splitOn, List.splitOn_eq_singleton hs]
  rw [lines, hpieces]
  simp [endings, hne]

theorem lines_append (ha : '\n' ∉ a) : lines (a ++ '\n' :: b) = dropReturn a :: lines b := by
  have hpieces : pieces (a ++ '\n' :: b) = a :: pieces b := by
    rw [pieces, splitWhere_eq_splitOn, List.splitOn_append_cons_self_of_not_mem ha, pieces,
      splitWhere_eq_splitOn]
  obtain ⟨p, ps, hb⟩ : ∃ p ps, pieces b = p :: ps :=
    List.exists_cons_of_ne_nil (by
      rw [pieces, splitWhere_eq_splitOn]; exact List.splitOn_ne_nil _ _)
  rw [lines, hpieces, hb, endings, ← hb, lines]
  simp

theorem hasLines_lines (s : List Char) : HasLines s (lines s) := by
  induction hlength : s.length using Nat.strongRecOn generalizing s with
  | _ n ih =>
    by_cases hfeed : '\n' ∈ s
    · obtain ⟨a, b, rfl, ha⟩ := List.eq_append_cons_of_mem hfeed
      have hrest : HasLines b (lines b) := ih b.length (by simp at hlength; omega) b rfl
      rw [lines_append ha]
      unfold dropReturn
      split
      · next hreturn =>
        obtain ⟨line, rfl⟩ := List.getLast?_eq_some_iff.mp hreturn
        simp only [List.mem_append, not_or] at ha
        simpa using HasLines.returnFeed ha.1 hrest
      · next hreturn => exact .feed ha hreturn hrest
    · by_cases hne : s = []
      · subst hne
        exact .nil
      · rw [lines_of_not_mem hne hfeed]
        exact .last hne hfeed

theorem HasLines.eq_lines {ls : List (List Char)} (h : HasLines s ls) : ls = lines s := by
  induction h with
  | nil => rfl
  | last hne hline => rw [lines_of_not_mem hne hline]
  | feed hline hreturn _ ih => rw [lines_append hline, dropReturn, if_neg hreturn, ih]
  | @returnFeed line rest lines' hline _ ih =>
    have hline' : '\n' ∉ line ++ ['\r'] := by simp [hline]
    have happend : line ++ '\r' :: '\n' :: rest = (line ++ ['\r']) ++ '\n' :: rest := by simp
    rw [happend, lines_append hline', ih]
    simp [dropReturn]

theorem hasLines_iff {ls : List (List Char)} : HasLines s ls ↔ ls = lines s :=
  ⟨HasLines.eq_lines, fun h => h ▸ hasLines_lines s⟩

end ForeignCall.Text
