import ForeignCall.Cache.Directory
import Mathlib.Tactic.Common

/-!
# ForeignCall.Proofs.Cache.FileNames

What the file of a header is called, and which names are taken for the file of a header. A name
that is made for a header is recognised again unless the name of the header is empty.

* `length_keyText`, `all_isHexDigit_keyText` — a key is sixteen digits in base sixteen;
* `isHeaderFile_fileName` — the names that are recognised.
-/

namespace ForeignCall

/-! ## Keys -/

theorem isHexDigit_digitChar {d : Nat} (h : d < 16) : isHexDigit d.digitChar = true := by
  have hall : ∀ d < 16, isHexDigit (Nat.digitChar d) = true := by decide
  exact hall d h

/-- Digits in base sixteen are made of digits in base sixteen. -/
theorem isHexDigit_of_mem_toDigits {n : Nat} {c : Char} (h : c ∈ Nat.toDigits 16 n) :
    isHexDigit c = true := by
  induction n using Nat.strongRecOn with
  | ind n ih =>
    rw [Nat.toDigits_eq_if (by decide)] at h
    split at h
    · next hlt =>
      rw [List.mem_singleton.mp h]
      exact isHexDigit_digitChar hlt
    · next hle =>
      rcases List.mem_append.mp h with h | h
      · exact ih (n / 16) (by omega) h
      · rw [List.mem_singleton.mp h]
        exact isHexDigit_digitChar (Nat.mod_lt _ (by decide))

theorem toList_keyText (key : UInt64) :
    (keyText key).toList =
      List.replicate (16 - (Nat.toDigits 16 key.toNat).length) '0' ++ Nat.toDigits 16 key.toNat :=
  String.toList_ofList

theorem length_keyText (key : UInt64) : (keyText key).toList.length = 16 := by
  have hlength : (Nat.toDigits 16 key.toNat).length ≤ 16 :=
    (Nat.length_toDigits_le_iff (by decide) (by decide)).mpr key.toNat_lt
  rw [toList_keyText, List.length_append, List.length_replicate]
  omega

/-- A key is made of digits in base sixteen. -/
theorem all_isHexDigit_keyText (key : UInt64) : (keyText key).toList.all isHexDigit = true := by
  rw [toList_keyText, List.all_append, Bool.and_eq_true, List.all_eq_true, List.all_eq_true]
  refine ⟨fun c hc => ?_, fun c hc => isHexDigit_of_mem_toDigits hc⟩
  rw [List.eq_of_mem_replicate hc]
  decide

/-! ## Names of files -/

/-- Only the empty text has an empty part in the name of a file. -/
theorem isEmpty_sanitizeChars (cs : List Char) : (sanitizeChars false cs).isEmpty = cs.isEmpty := by
  cases cs with
  | nil => rfl
  | cons c cs =>
    unfold sanitizeChars
    split <;> rfl

/-- A key, a dash and a text in front of the ending are recognised if the text is not empty. -/
theorem isHeaderFile_of_toList {name : String} {digits text : List Char}
    (hname : name.toList = digits ++ '-' :: text ++ ".json".toList) (hlength : digits.length = 16)
    (hdigits : digits.all isHexDigit = true) : isHeaderFile name = !text.isEmpty := by
  have hstem : name.toList.take (name.toList.length - ".json".toList.length) =
      digits ++ '-' :: text := by
    rw [hname, List.length_append, Nat.add_sub_cancel]
    exact List.take_left
  have hdash : (digits ++ '-' :: text)[16]? = some '-' := by
    rw [List.getElem?_append_right (Nat.le_of_eq hlength), hlength]
    rfl
  have hkey : (digits ++ '-' :: text).take 16 = digits := by
    rw [← hlength]
    exact List.take_left
  unfold isHeaderFile
  simp only [hstem, hdash, hkey, hdigits, ← hname, decide_true, Bool.true_and, Bool.and_true]
  cases text with
  | nil => simp [hlength]
  | cons c cs => simp [hlength]; omega

/-- **The file of a header is recognised if the name of the header is not empty.** -/
theorem isHeaderFile_fileName (header environment : String) :
    isHeaderFile (fileName header environment) = !header.isEmpty := by
  have hname : (fileName header environment).toList =
      (keyText (cacheKey header environment)).toList ++ '-' :: sanitizeChars false header.toList ++
        ".json".toList := by
    simp [fileName, sanitize]
  have hempty : header.toList.isEmpty = header.isEmpty := by
    rw [Bool.eq_iff_iff, List.isEmpty_iff, String.toList_eq_nil_iff, String.isEmpty_iff]
  rw [isHeaderFile_of_toList hname (length_keyText _) (all_isHexDigit_keyText _),
    isEmpty_sanitizeChars, hempty]

end ForeignCall
