import ForeignCall.Cache.Directory
import Mathlib.Tactic.Common

/-!
# ForeignCall.Proofs.Cache.Entries

What the operations of the cache do to the entries of its directory, one name at a time.

* `entry?_put` — storing sets one entry;
* `entry?_invalidate` — invalidating removes entries and changes none;
* `load_eq_none`, `load_eq_headerOf?`, `store_eq` — loading and storing where nothing is in the way.
-/

namespace ForeignCall

namespace Namespace

variable {α : Type}

/-- Looking a name up among the entries whose names satisfy a condition. -/
theorem lookup_filter (es : List (String × α)) (keep : String → Bool) (name : String) :
    (es.filter fun e => keep e.1).lookup name = if keep name then es.lookup name else none := by
  induction es with
  | nil => simp
  | cons e es ih =>
    obtain ⟨n, v⟩ := e
    rw [List.filter_cons, lookup_cons_eq]
    by_cases hname : name = n
    · subst hname
      by_cases hkeep : keep name <;> simp [hkeep, ih]
    · by_cases hkeep : keep n <;> simp [hkeep, hname, ih, lookup_cons_eq]

theorem get?_filter (ns : Namespace α) (keep : String → Bool) (name : String) :
    (ns.filter fun n _ => keep n).get? name = if keep name then ns.get? name else none :=
  lookup_filter ns.entries keep name

end Namespace

namespace Directory

variable {d : Directory} {header environment : String}

/-- Setting an entry changes that entry only. -/
theorem entry?_put (d : Directory) (name key : String) (entry : Entry) :
    entry? (d.put name entry) key = if key = name then some entry else d.entry? key := by
  cases d with
  | none => simp [ entry?, put, Namespace.get?_insert]
  | some entries => simp [ entry?, put, Namespace.get?_insert]

/-- Invalidating removes an entry or leaves it as it is. -/
theorem entry?_invalidate (d : Directory) (path name : String) :
    entry? (d.invalidate path).2 name = none ∨
      entry? (d.invalidate path).2 name = d.entry? name := by
  cases d with
  | none => exact .inl (by unfold invalidate; split <;> rfl)
  | some entries =>
    unfold invalidate entry?
    split
    · simp only [Option.map_some, Option.bind_some, Namespace.get?_filter]
      split
      · exact .inr rfl
      · exact .inl rfl
    · next obstacle _ =>
      have hfilter := entries.get?_filter (fun n => !isHeaderFile n || !(n < obstacle)) name
      simp only [Option.map_some, Option.bind_some, hfilter]
      split
      · exact .inr rfl
      · exact .inl rfl

/-- Where nothing is stored nothing is loaded. -/
theorem load_eq_none (path : String)
    (hlong : tooLong (fileName header environment) = false)
    (h : d.entry? (fileName header environment) = none) :
    d.load path header environment = .ok none := by
  simp [load, hlong, h]

/-- What is loaded is what the file holds. -/
theorem load_eq_headerOf? (path : String) {text : String}
    (hlong : tooLong (fileName header environment) = false)
    (h : d.entry? (fileName header environment) = some (.file text)) :
    d.load path header environment = .ok (headerOf? text) := by
  simp [load, hlong, h]

/-- What is stored is the document of the header, under the name of the header. -/
theorem store_eq (path : String) {h : Header}
    (hlong : tooLong (fileName h.name environment) = false)
    (hfree : d.entry? (fileName h.name environment) ≠ some .directory) :
    d.store path h environment =
      (.ok (joinPath path (fileName h.name environment)),
        d.put (fileName h.name environment) (.file h.toDocument.render)) := by
  simp [store, hlong, hfree]

end Directory

end ForeignCall
