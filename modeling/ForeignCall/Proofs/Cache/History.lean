import ForeignCall.Proofs.Cache.Entries
import ForeignCall.Proofs.Cache.FileNames
import ForeignCall.Proofs.Namespace
import Mathlib.Data.Finset.Card
import Mathlib.Data.Set.Insert

/-!
# ForeignCall.Proofs.Cache.History

A cache over time. It is used as a map from labels, which are the names of headers in environments,
to headers, and it shall answer as such a map does. It does, as long as no header has an empty name:
the file of such a header is not recognised, so it survives when the cache is invalidated and is
never counted.

* `CacheUse.last?`, `CacheUse.counted` — what a map that spares some names knows of its past;
* `Directory.count_put`, `Directory.invalidate_eq` — how many headers the directory holds;
* `Directory.Holds` — the directory holds what the past says; `Holds.perform_eq` keeps it;
* `Directory.answers_eq_and_faithful_iff` — the answers of a cache, and when a map gives them.
-/

namespace ForeignCall

/-! ## Files in a directory -/

namespace Directory

variable {d : Directory} {name : String}

theorem mem_names_iff : name ∈ d.names ↔ Option.isSome ( d.entry? name) := by
  cases d with
  | none => simp [names, entry?]
  | some entries => exact Namespace.mem_names_iff

/-- Storing counts if the file is new and recognised. -/
theorem count_put (d : Directory) (name : String) (entry : Entry) :
    (d.put name entry).count =
      d.count + if isHeaderFile name ∧ d.entry? name = none then 1 else 0 := by
  have hcount : (d.put name entry).count =
      (if Option.isSome ( d.entry? name) then d.names
        else name :: d.names).countP isHeaderFile := by
    cases d with
    | none => exact ((Namespace.empty.names_insert_perm name entry).countP_eq _)
    | some entries => exact ((entries.names_insert_perm name entry).countP_eq _)
  rw [hcount, count]
  cases h : d.entry? name with
  | none => simp [List.countP_cons]
  | some e => simp

theorem count_eq_zero (h : ∀ name, isHeaderFile name = true → d.entry? name = none) :
    d.count = 0 := by
  refine List.countP_eq_zero.mpr fun name hmem hname => ?_
  have hsome := mem_names_iff.mp hmem
  rw [h name hname] at hsome
  cases hsome

/-- Where no directory has the name of a file, the files of headers are counted and removed. -/
theorem invalidate_eq (path : String)
    (h : ∀ name, isHeaderFile name = true → d.entry? name ≠ some .directory) :
    d.invalidate path =
      (.ok d.count, d.map fun entries => entries.filter fun name _ => !isHeaderFile name) := by
  have hfree : d.obstacle? = none := by
    refine List.find?_eq_none.mpr fun name _ hname => ?_
    rw [Bool.and_eq_true, decide_eq_true_eq] at hname
    exact h name hname.1 hname.2
  unfold invalidate
  rw [hfree]

theorem entry?_filter (d : Directory) (keep : String → Bool) (name : String) :
    entry? (d.map fun entries => entries.filter fun name _ => keep name) name =
      if keep name then d.entry? name else none := by
  cases d with
  | none => simp [ entry?]
  | some entries => exact entries.get?_filter keep name

end Directory

/-! ## Uses and their answers -/

/-- What a header in the cache is found by. -/
structure CacheLabel where
  header : String
  environment : String
deriving DecidableEq

/-- The name of the file with a label. -/
def CacheLabel.file (l : CacheLabel) : String := fileName l.header l.environment

/-- One use of the cache. -/
inductive CacheUse where
  | store (h : Header) (environment : String)
  | load (label : CacheLabel)
  | invalidate
  | count

/-- What a use of the cache gives. -/
inductive CacheAnswer where
  | stored (path : Except CacheError String)
  | loaded (header : Except CacheError (Option Header))
  | number (n : Except CacheError Nat)

namespace Directory

/-- What a use of the cache gives, and the directory afterwards. -/
def perform (path : String) (d : Directory) : CacheUse → CacheAnswer × Directory
  | .store h environment => (d.store path h environment).map .stored id
  | .load l => (.loaded (d.load path l.header l.environment), d)
  | .invalidate => (d.invalidate path).map .number id
  | .count => (.number (.ok d.count), d)

/-- What the cache gives when it is used again and again. -/
def answers (path : String) (d : Directory) : List CacheUse → List CacheAnswer
  | [] => []
  | use :: uses =>
    let (answer, d') := d.perform path use
    answer :: d'.answers path uses

end Directory

/-! ## Maps -/

namespace CacheUse

variable (spares : String → Bool)

/-- The header that has been stored last with a label since the last invalidation, where the past
is given with the latest use first. An invalidation spares the headers with some names. -/
def last? : List CacheUse → CacheLabel → Option Header
  | [], _ => none
  | .store h environment :: past, l =>
    if l = ⟨h.name, environment⟩ then some h else last? past l
  | .invalidate :: past, l => if spares l.header then last? past l else none
  | .load _ :: past, l | .count :: past, l => last? past l

/-- The labels with which a header is stored. -/
def live : List CacheUse → Finset CacheLabel
  | [] => ∅
  | .store h environment :: past => insert ⟨h.name, environment⟩ (live past)
  | .invalidate :: past => (live past).filter fun l => spares l.header
  | .load _ :: past | .count :: past => live past

/-- How many headers would be removed. -/
def counted (past : List CacheUse) : Nat :=
  ((live spares past).filter fun l => !spares l.header).card

/-- What a map gives that invalidations change except for some names. -/
def expected (path : String) (past : List CacheUse) : CacheUse → CacheAnswer
  | .store h environment => .stored (.ok (joinPath path (CacheLabel.file ⟨h.name, environment⟩)))
  | .load l => .loaded (.ok (last? spares past l))
  | .invalidate | .count => .number (.ok (counted spares past))

/-- What such a map gives when it is used again and again. -/
def expectedAll (path : String) (past : List CacheUse) : List CacheUse → List CacheAnswer
  | [] => []
  | use :: uses => expected spares path past use :: expectedAll path (use :: past) uses

/-- The labels that are used are among the given ones, and what is stored reads back. -/
def Within (labels : Set CacheLabel) : CacheUse → Prop
  | .store h environment =>
    ⟨h.name, environment⟩ ∈ labels ∧ Directory.headerOf? h.toDocument.render = some h
  | .load l => l ∈ labels
  | .invalidate | .count => True

variable {spares} {past : List CacheUse} {l : CacheLabel}

theorem mem_live_iff : l ∈ live spares past ↔ (last? spares past l).isSome := by
  induction past with
  | nil => simp [live, last?]
  | cons use past ih =>
    cases use with
    | store h environment =>
      rw [live, last?, Finset.mem_insert, ih]
      split
      · next hl => simp [hl]
      · next hl => simp [hl]
    | invalidate =>
      rw [live, last?, Finset.mem_filter, ih]
      split
      · next hl => simp [hl]
      · next hl => simp [hl]
    | load l' => exact ih
    | count => exact ih

/-- No name is spared. -/
def nothing : String → Bool := fun _ => false

/-- Then all labels count, -/
theorem counted_nothing : counted nothing past = (live nothing past).card := by
  simp [counted, nothing]

/-- and nothing is found behind an invalidation. -/
theorem last?_nothing_invalidate : last? nothing (.invalidate :: past) l = none := rfl

/-- What is found has been stored with the label. -/
theorem store_mem_of_last? {h : Header} (hl : last? spares past l = some h) :
    l.header = h.name ∧ .store h l.environment ∈ past := by
  induction past with
  | nil => cases hl
  | cons use past ih =>
    have hrest (hl : last? spares past l = some h) :
        l.header = h.name ∧ .store h l.environment ∈ use :: past :=
      (ih hl).imp_right (List.mem_cons_of_mem use)
    cases use with
    | store h' environment =>
      rw [last?] at hl
      split at hl
      · next heq =>
        obtain rfl := Option.some.inj hl
        subst heq
        exact ⟨rfl, List.mem_cons_self⟩
      · exact hrest hl
    | invalidate =>
      rw [last?] at hl
      split at hl
      · exact hrest hl
      · cases hl
    | load l' => exact hrest hl
    | count => exact hrest hl

/-- What is found reads back. -/
theorem headerOf?_of_last? {labels : Set CacheLabel} (hpast : ∀ use ∈ past, use.Within labels)
    {h : Header} (hl : last? spares past l = some h) :
    Directory.headerOf? h.toDocument.render = some h :=
  (hpast _ (store_mem_of_last? hl).2).2

theorem live_subset {labels : Set CacheLabel} (hpast : ∀ use ∈ past, use.Within labels)
    (hl : l ∈ live spares past) : l ∈ labels := by
  obtain ⟨h, hh⟩ := Option.isSome_iff_exists.mp (mem_live_iff.mp hl)
  obtain ⟨hname, hstore⟩ := store_mem_of_last? hh
  obtain ⟨header, environment⟩ := l
  obtain rfl := hname
  exact (hpast _ hstore).1

section Congruence

variable {labels : Set CacheLabel} {spares' : String → Bool}
  (hspares : ∀ l ∈ labels, spares l.header = spares' l.header)

include hspares

theorem last?_congr (hl : l ∈ labels) : last? spares past l = last? spares' past l := by
  induction past with
  | nil => rfl
  | cons use past ih =>
    cases use with
    | store h environment => rw [last?, last?, ih]
    | invalidate => rw [last?, last?, hspares l hl, ih]
    | load l' => exact ih
    | count => exact ih

/-- Whether a name is spared matters for the names in use only. -/
theorem expected_congr (path : String) (hpast : ∀ use ∈ past, use.Within labels) {use : CacheUse}
    (huse : use.Within labels) :
    expected spares path past use = expected spares' path past use := by
  have hlive : counted spares past = counted spares' past := by
    unfold counted
    congr 1
    ext l
    rw [Finset.mem_filter, Finset.mem_filter]
    constructor
    · rintro ⟨hl, hcounted⟩
      have hmem := live_subset hpast hl
      rw [mem_live_iff, last?_congr hspares hmem] at hl
      exact ⟨mem_live_iff.mpr hl, hspares l hmem ▸ hcounted⟩
    · rintro ⟨hl, hcounted⟩
      have hmem := live_subset hpast hl
      rw [mem_live_iff, ← last?_congr hspares hmem] at hl
      exact ⟨mem_live_iff.mpr hl, (hspares l hmem).symm ▸ hcounted⟩
  cases use with
  | store h environment => rfl
  | load l => rw [expected, expected, last?_congr hspares huse]
  | invalidate => rw [expected, expected, hlive]
  | count => rw [expected, expected, hlive]

theorem expectedAll_congr (path : String) (hpast : ∀ use ∈ past, use.Within labels)
    {uses : List CacheUse} (huses : ∀ use ∈ uses, use.Within labels) :
    expectedAll spares path past uses = expectedAll spares' path past uses := by
  induction uses generalizing past with
  | nil => rfl
  | cons use uses ih =>
    obtain ⟨huse, huses⟩ := List.forall_mem_cons.mp huses
    rw [expectedAll, expectedAll, expected_congr hspares path hpast huse,
      ih (List.forall_mem_cons.mpr ⟨huse, hpast⟩) huses]

end Congruence

end CacheUse

/-! ## The cache as a map -/

namespace Directory

open CacheUse

/-- Nothing gets into the way of the cache: the names of the files fit and are different for
different labels, and the directory has neither these files nor others that are taken for
headers. -/
structure Regular (labels : Set CacheLabel) (d : Directory) : Prop where
  apart : ∀ l ∈ labels, ∀ l' ∈ labels, l.file = l'.file → l = l'
  short : ∀ l ∈ labels, tooLong l.file = false
  fresh : ∀ l ∈ labels, d.entry? l.file = none
  clean : ∀ name, isHeaderFile name = true → d.entry? name = none

/-- The directory holds what has been stored, where invalidations have spared headers without a
name. -/
structure Holds (labels : Set CacheLabel) (past : List CacheUse) (d : Directory) : Prop where
  entry : ∀ l ∈ labels, d.entry? l.file =
    (last? String.isEmpty past l).map fun h => .file h.toDocument.render
  free : ∀ name, isHeaderFile name = true → d.entry? name ≠ some .directory
  count : d.count = counted String.isEmpty past

variable {labels : Set CacheLabel} {past : List CacheUse} {d d' : Directory} {l : CacheLabel}

theorem Regular.holds (hregular : Regular labels d) : Holds labels [] d where
  entry := hregular.fresh
  free name hname h := by
    rw [hregular.clean name hname] at h
    cases h
  count := count_eq_zero hregular.clean

namespace Holds

theorem entry_ne_directory (hholds : Holds labels past d) (hl : l ∈ labels) :
    d.entry? l.file ≠ some .directory := by
  rw [hholds.entry l hl]
  cases last? String.isEmpty past l <;> simp

theorem load_eq (hregular : Regular labels d') (hholds : Holds labels past d)
    (hpast : ∀ use ∈ past, use.Within labels) (path : String) (hl : l ∈ labels) :
    d.load path l.header l.environment = .ok (last? String.isEmpty past l) := by
  have hentry := hholds.entry l hl
  cases hlast : last? String.isEmpty past l with
  | none =>
    rw [hlast] at hentry
    exact load_eq_none path (hregular.short l hl) hentry
  | some h =>
    rw [hlast] at hentry
    rw [load_eq_headerOf? path (hregular.short l hl) hentry, headerOf?_of_last? hpast hlast]

theorem store_eq (hregular : Regular labels d') (hholds : Holds labels past d) (path : String)
    {h : Header} {environment : String} (hl : ⟨h.name, environment⟩ ∈ labels) :
    d.store path h environment =
      (.ok (joinPath path (CacheLabel.file ⟨h.name, environment⟩)),
        d.put (CacheLabel.file ⟨h.name, environment⟩) (.file h.toDocument.render)) := by
  have hlong := hregular.short ⟨h.name, environment⟩ hl
  have hfree := hholds.entry_ne_directory hl
  rw [CacheLabel.file] at hlong hfree ⊢
  exact Directory.store_eq path hlong hfree

/-- Storing. -/
theorem put (hregular : Regular labels d') (hholds : Holds labels past d) {h : Header}
    {environment : String} (hl : ⟨h.name, environment⟩ ∈ labels) :
    Holds labels (.store h environment :: past)
      (d.put (CacheLabel.file ⟨h.name, environment⟩) (.file h.toDocument.render)) where
  entry l' hl' := by
    rw [entry?_put, last?]
    split
    · next hfile =>
      -- only the label that is stored has this file
      rw [if_pos (hregular.apart l' hl' _ hl hfile)]
      rfl
    · next hfile =>
      rw [if_neg fun heq => hfile (congrArg CacheLabel.file heq)]
      exact hholds.entry l' hl'
  free name hname := by
    rw [entry?_put]
    split
    · simp
    · exact hholds.free name hname
  count := by
    have hnew : d.entry? (CacheLabel.file ⟨h.name, environment⟩) = none ↔
        ⟨h.name, environment⟩ ∉ live String.isEmpty past := by
      rw [hholds.entry _ hl, Option.map_eq_none_iff, mem_live_iff, Option.not_isSome_iff_eq_none]
    have hfile : isHeaderFile (CacheLabel.file ⟨h.name, environment⟩) = !h.name.isEmpty :=
      isHeaderFile_fileName h.name environment
    simp only [count_put, hholds.count, hfile, hnew, counted, live, Finset.filter_insert]
    cases hempty : h.name.isEmpty with
    | true => simp
    | false =>
      simp only [Bool.not_false, true_and, if_true, Finset.card_insert_eq_ite, Finset.mem_filter,
        hempty, and_true]
      by_cases hlive : ⟨h.name, environment⟩ ∈ live String.isEmpty past
      · simp [hlive]
      · simp [hlive]

/-- Invalidating. -/
theorem invalidate (hholds : Holds labels past d) :
    Holds labels (.invalidate :: past)
      (d.map fun entries => entries.filter fun name _ => !isHeaderFile name) where
  entry l hl := by
    have hfile : isHeaderFile l.file = !l.header.isEmpty :=
      isHeaderFile_fileName l.header l.environment
    rw [entry?_filter d fun name => !isHeaderFile name, hfile, Bool.not_not, last?]
    split
    · exact hholds.entry l hl
    · rfl
  free name hname := by
    rw [entry?_filter d fun name => !isHeaderFile name, hname]
    simp
  count := by
    have hnone : ∀ name, isHeaderFile name = true → entry?
        (d.map fun entries => entries.filter fun name _ => !isHeaderFile name) name = none := by
      intro name hname
      rw [entry?_filter d fun name => !isHeaderFile name, hname]
      rfl
    rw [count_eq_zero hnone, counted, live, Finset.filter_filter]
    simp

/-- **One use.** It gives what is expected of a map, and the directory holds what has been stored
afterwards. -/
theorem perform_eq (hregular : Regular labels d') (hholds : Holds labels past d)
    (hpast : ∀ use ∈ past, use.Within labels) (path : String) {use : CacheUse}
    (huse : use.Within labels) :
    ∃ after, d.perform path use = (expected String.isEmpty path past use, after) ∧
      Holds labels (use :: past) after := by
  cases use with
  | store h environment =>
    refine ⟨_, ?_, hholds.put hregular huse.1⟩
    rw [perform, hholds.store_eq hregular path huse.1]
    rfl
  | load l =>
    refine ⟨d, ?_, hholds.entry, hholds.free, hholds.count⟩
    rw [perform, hholds.load_eq hregular hpast path huse]
    rfl
  | invalidate =>
    refine ⟨_, ?_, hholds.invalidate⟩
    rw [perform, invalidate_eq path hholds.free, hholds.count]
    rfl
  | count =>
    refine ⟨d, ?_, hholds.entry, hholds.free, hholds.count⟩
    rw [perform, hholds.count]
    rfl

/-- **All uses.** -/
theorem answers_eq_expected (hregular : Regular labels d') (hholds : Holds labels past d)
    (hpast : ∀ use ∈ past, use.Within labels) (path : String) {uses : List CacheUse}
    (huses : ∀ use ∈ uses, use.Within labels) :
    d.answers path uses = expectedAll String.isEmpty path past uses := by
  induction uses generalizing past d with
  | nil => rfl
  | cons use uses ih =>
    obtain ⟨huse, huses⟩ := List.forall_mem_cons.mp huses
    obtain ⟨after, hperform, hafter⟩ := hholds.perform_eq hregular hpast path huse
    rw [answers, expectedAll, hperform]
    exact congrArg _ (ih hafter (List.forall_mem_cons.mpr ⟨huse, hpast⟩) huses)

end Holds

/-- The cache is as good as a map, in every use of it with some labels. -/
def Faithful (labels : Set CacheLabel) (path : String) (d : Directory) : Prop :=
  ∀ uses : List CacheUse, (∀ use ∈ uses, use.Within labels) →
    d.answers path uses = expectedAll nothing path [] uses

/-- The header without a name and declarations. -/
def unnamed : Header := ⟨"", {}⟩

theorem headerOf?_unnamed : headerOf? unnamed.toDocument.render = some unnamed := by
  decide +kernel

/-- **What a cache is.** It is a map in which invalidations spare the headers without a name; it is
a map as it should be when all names that are used are not empty, and only then. -/
theorem answers_eq_and_faithful_iff (hregular : Regular labels d) (path : String) :
    (∀ uses : List CacheUse, (∀ use ∈ uses, use.Within labels) →
      d.answers path uses = expectedAll String.isEmpty path [] uses) ∧
    (Faithful labels path d ↔ ∀ l ∈ labels, l.header ≠ "") := by
  have hanswers : ∀ uses : List CacheUse, (∀ use ∈ uses, use.Within labels) →
      d.answers path uses = expectedAll String.isEmpty path [] uses := fun _ huses =>
    hregular.holds.answers_eq_expected hregular (List.forall_mem_nil _) path huses
  refine ⟨hanswers, fun hfaithful l hl hempty => ?_, fun hnames uses huses => ?_⟩
  · obtain ⟨header, environment⟩ := l
    obtain rfl := hempty
    have huses : ∀ use ∈ [.store unnamed environment, .count], Within labels use :=
      List.forall_mem_cons.mpr ⟨⟨hl, headerOf?_unnamed⟩, List.forall_mem_singleton.mpr trivial⟩
    have hcount := (hanswers _ huses).symm.trans (hfaithful _ huses)
    simp [expectedAll, expected, counted, live, unnamed, nothing, Finset.filter_singleton] at hcount
  · rw [hanswers uses huses]
    refine expectedAll_congr (fun l hl => ?_) path (List.forall_mem_nil _) huses
    exact String.isEmpty_eq_false_iff.mpr (hnames l hl)

/-! ## Two directories -/

/-- The labels of two headers with names. -/
def namedLabels : List CacheLabel := [⟨"math.h", "env"⟩, ⟨"sys/types.h", "env"⟩]

/-- A directory that has another file. -/
def notes : Directory := put none "notes.json" (.file "")

theorem regular_notes : Regular {l | l ∈ namedLabels} notes where
  apart := by
    change ∀ l ∈ namedLabels, ∀ l' ∈ namedLabels, l.file = l'.file → l = l'
    decide +kernel
  short := by
    change ∀ l ∈ namedLabels, tooLong l.file = false
    decide +kernel
  fresh := by
    change ∀ l ∈ namedLabels, notes.entry? l.file = none
    decide +kernel
  clean name hname := by
    rw [notes, entry?_put]
    split
    · next hnotes =>
      have hother : isHeaderFile "notes.json" = false := by decide +kernel
      rw [hnotes, hother] at hname
      cases hname
    · rfl

/-- A cache is a map for headers with names. -/
theorem faithful_notes :
    Regular {l | l ∈ namedLabels} notes ∧ Faithful {l | l ∈ namedLabels} "headers" notes := by
  refine ⟨regular_notes, (answers_eq_and_faithful_iff regular_notes "headers").2.mpr ?_⟩
  change ∀ l ∈ namedLabels, l.header ≠ ""
  decide

theorem regular_unnamed : Regular {⟨"", "env"⟩} none where
  apart l hl l' hl' _ := by rw [Set.mem_singleton_iff.mp hl, Set.mem_singleton_iff.mp hl']
  short l hl := by
    rw [Set.mem_singleton_iff.mp hl]
    decide +kernel
  fresh _ _ := rfl
  clean _ _ := rfl

/-- A header without a name is stored and loaded, but not counted, and it is still there when all
headers have been removed. -/
theorem unnamed_not_counted :
    let stored := CacheAnswer.stored (.ok (joinPath "headers" (fileName "" "env")))
    let found := CacheAnswer.loaded (.ok (some unnamed))
    let number n := CacheAnswer.number (.ok n)
    let uses := [.store unnamed "env", .count, .invalidate, .load ⟨"", "env"⟩]
    (∀ use ∈ uses, use.Within {⟨"", "env"⟩}) ∧
      answers "headers" none uses = [stored, number 0, number 0, found] ∧
      expectedAll nothing "headers" [] uses = [stored, number 1, number 1, .loaded (.ok none)] ∧
      ¬Faithful {⟨"", "env"⟩} "headers" none := by
  intro stored found number uses
  have huses : ∀ use ∈ uses, use.Within {⟨"", "env"⟩} :=
    List.forall_mem_cons.mpr ⟨⟨rfl, headerOf?_unnamed⟩, List.forall_mem_cons.mpr ⟨trivial,
      List.forall_mem_cons.mpr ⟨trivial, List.forall_mem_singleton.mpr rfl⟩⟩⟩
  have hexpected : expectedAll nothing "headers" [] uses =
      [stored, number 1, number 1, .loaded (.ok none)] := rfl
  have hanswers : answers "headers" none uses = [stored, number 0, number 0, found] := by
    rw [regular_unnamed.holds.answers_eq_expected regular_unnamed (List.forall_mem_nil _) "headers"
      huses]
    rfl
  refine ⟨huses, hanswers, hexpected, fun hfaithful => ?_⟩
  have hsame := hfaithful uses huses
  rw [hanswers, hexpected] at hsame
  simp [number] at hsame

end Directory

end ForeignCall
