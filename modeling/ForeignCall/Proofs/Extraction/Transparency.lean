import ForeignCall.Proofs.Extraction.Runs
import Mathlib.Data.Set.Insert

/-!
# ForeignCall.Proofs.Extraction.Transparency

Extractors that share a cache. Each of them stores what it extracts, and finds what another one with
the same environment has stored. The cache is transparent if nobody can tell: after any requests by
any of them, an extractor gives its own result.

* `Fleet` — extractors with the same tools and one cache; `Fleet.Transparent` — the cache shows in
  no answer;
* `Fleet.Filled` — a file holds the result of an extractor with the environment of its name. Each
  request keeps it (`Fleet.Filled.after`), so all histories do (`Fleet.Filled.history`);
* `Fleet.transparent_iff` — the cache is transparent when extractors with the same packing agree on
  all results, and only then: the environment tells apart the packings but not the targets;
* `Fleet.transparent_of_target` — with one target the cache is transparent.
-/

namespace ForeignCall

/-- Extractors that have the same tools and share a cache, and the headers they are used for. -/
structure Fleet where
  tools : Tools Id
  cache : String
  members : Set (Extractor Id)
  headers : Set String
  tools_eq : ∀ x ∈ members, x.tools = tools
  cache_eq : ∀ x ∈ members, x.cache = some cache

/-- One use of an extractor. -/
inductive Request where
  | extract (x : Extractor Id) (name : String)
  | extractFresh (x : Extractor Id) (name : String)
  | invalidate (x : Extractor Id)

/-- The directory after a request. -/
def Request.after (d : Directory) : Request → Directory
  | .extract x name => (x.extractIn d name).2
  | .extractFresh x name => (x.extractFreshIn d name).2
  | .invalidate x => (x.invalidateIn d).2

namespace Fleet

variable {F : Fleet} {d d' : Directory} {x y : Extractor Id} {name : String}

/-- The requests that members make for the headers of the fleet. -/
def Makes (F : Fleet) : Request → Prop
  | .extract x name | .extractFresh x name => x ∈ F.members ∧ name ∈ F.headers
  | .invalidate x => x ∈ F.members

/-- Whatever has been requested before, each member gives the result that it has without the
cache. -/
def Transparent (F : Fleet) (d : Directory) : Prop :=
  ∀ history : List Request, (∀ q ∈ history, F.Makes q) →
    ∀ x ∈ F.members, ∀ name ∈ F.headers,
      (x.extractIn (history.foldl Request.after d) name).1 = x.result name

/-- Nothing gets into the way of the cache: the directory has none of the files of the fleet yet,
their names fit and are different for different headers and environments, and the documents of all
results read back. -/
structure Regular (F : Fleet) (d : Directory) : Prop where
  fresh : ∀ x ∈ F.members, ∀ name ∈ F.headers, d.entry? (fileName name x.environment) = none
  short : ∀ x ∈ F.members, ∀ name ∈ F.headers,
    Directory.tooLong (fileName name x.environment) = false
  apart : ∀ x ∈ F.members, ∀ name ∈ F.headers, ∀ y ∈ F.members, ∀ other ∈ F.headers,
    fileName name x.environment = fileName other y.environment →
      name = other ∧ x.environment = y.environment
  readsBack : ∀ x ∈ F.members, ∀ name ∈ F.headers, ∀ h, x.result name = .ok h →
    Directory.headerOf? h.toDocument.render = some h

/-- Members with the same packing have the same results where one of them has any. -/
def Agrees (F : Fleet) : Prop :=
  ∀ x ∈ F.members, ∀ y ∈ F.members, x.pack = y.pack →
    ∀ name ∈ F.headers, ∀ h, x.result name = .ok h → y.result name = .ok h

/-- Members share the files of the cache when they have the same packing. -/
theorem environment_eq_iff (hx : x ∈ F.members) (hy : y ∈ F.members) :
    x.environment = y.environment ↔ x.pack = y.pack :=
  Extractor.environment_eq_iff ((F.tools_eq x hx).trans (F.tools_eq y hy).symm)

/-! ## What the cache holds -/

/-- A file with the name of a header and an environment holds the result of a member that has this
environment. -/
def Filled (F : Fleet) (d : Directory) : Prop :=
  ∀ x ∈ F.members, ∀ name ∈ F.headers,
    d.entry? (fileName name x.environment) = none ∨
    ∃ y ∈ F.members, y.environment = x.environment ∧ ∃ h, y.result name = .ok h ∧
      d.entry? (fileName name x.environment) = some (.file h.toDocument.render)

namespace Filled

/-- No directory has the name of a file. -/
theorem free (hfilled : F.Filled d) (hx : x ∈ F.members) (hname : name ∈ F.headers) :
    d.entry? (fileName name x.environment) ≠ some .directory := by
  intro hdirectory
  rcases hfilled x hx name hname with hnone | ⟨y, _, _, h, _, hfile⟩
  · rw [hnone] at hdirectory
    cases hdirectory
  · rw [hfile] at hdirectory
    cases hdirectory

/-- Storing the result of a member. -/
theorem put (hregular : F.Regular d') (hfilled : F.Filled d) (hx : x ∈ F.members)
    (hname : name ∈ F.headers) {h : Header} (hr : x.result name = .ok h) :
    F.Filled (d.put (fileName name x.environment) (.file h.toDocument.render)) := by
  intro y hy other hother
  rw [Directory.entry?_put]
  split
  · next hkey =>
    -- only the file of the same header in the same environment has been written
    obtain ⟨rfl, henv⟩ := hregular.apart y hy other hother x hx name hname hkey
    exact .inr ⟨x, hx, henv.symm, h, hr, rfl⟩
  · exact hfilled y hy other hother

/-- A fresh extraction stores a result or nothing. -/
theorem extractFresh (hregular : F.Regular d') (hfilled : F.Filled d) (hx : x ∈ F.members)
    (hname : name ∈ F.headers) : F.Filled (x.extractFreshIn d name).2 := by
  cases hr : x.result name with
  | error e =>
    rw [Extractor.extractFreshIn_of_error (F.cache_eq x hx) hr]
    exact hfilled
  | ok h =>
    rw [Extractor.extractFreshIn_of_ok (F.cache_eq x hx) hr (hregular.short x hx name hname)
      (hfilled.free hx hname)]
    exact hfilled.put hregular hx hname hr

/-- An extraction changes nothing when the header is stored, and else it is a fresh one. -/
theorem extract (hregular : F.Regular d') (hfilled : F.Filled d) (hx : x ∈ F.members)
    (hname : name ∈ F.headers) : F.Filled (x.extractIn d name).2 := by
  have hcache := F.cache_eq x hx
  have hshort := hregular.short x hx name hname
  rcases hfilled x hx name hname with hnone | ⟨y, hy, _, h, hr, hfile⟩
  · rw [Extractor.extractIn_of_none hcache hshort hnone]
    exact hfilled.extractFresh hregular hx hname
  · have hread := hregular.readsBack y hy name hname h hr
    rw [Extractor.extractIn_of_file hcache hshort hfile hread]
    exact hfilled

/-- Invalidating only removes files. -/
theorem invalidate (hfilled : F.Filled d) (hx : x ∈ F.members) :
    F.Filled (x.invalidateIn d).2 := by
  rw [Extractor.snd_invalidateIn (F.cache_eq x hx)]
  intro y hy name hname
  rcases Directory.entry?_invalidate d F.cache (fileName name y.environment) with hgone | hkept
  · exact .inl hgone
  · rw [hkept]
    exact hfilled y hy name hname

/-- Each request keeps the cache filled with results. -/
theorem after (hregular : F.Regular d') (hfilled : F.Filled d) {q : Request} (hq : F.Makes q) :
    F.Filled (q.after d) := by
  cases q with
  | extract x name => exact hfilled.extract hregular hq.1 hq.2
  | extractFresh x name => exact hfilled.extractFresh hregular hq.1 hq.2
  | invalidate x => exact hfilled.invalidate hq

/-- All requests together keep the cache filled with results. -/
theorem history (hregular : F.Regular d') (hfilled : F.Filled d) {history : List Request}
    (hmade : ∀ q ∈ history, F.Makes q) : F.Filled (history.foldl Request.after d) := by
  induction history generalizing d with
  | nil => exact hfilled
  | cons q history ih =>
    rw [List.forall_mem_cons] at hmade
    rw [List.foldl_cons]
    exact ih (hfilled.after hregular hmade.1) hmade.2

end Filled

/-- At first the cache holds nothing of the fleet. -/
theorem Regular.filled (hregular : F.Regular d) : F.Filled d :=
  fun x hx name hname => .inl (hregular.fresh x hx name hname)

/-! ## Transparency -/

/-- In a cache that is filled with results a member gives its own one or that of a member with the
same packing. -/
theorem Filled.answer (hregular : F.Regular d') (hfilled : F.Filled d) (hagrees : F.Agrees)
    (hx : x ∈ F.members) (hname : name ∈ F.headers) : (x.extractIn d name).1 = x.result name := by
  have hcache := F.cache_eq x hx
  have hshort := hregular.short x hx name hname
  rcases hfilled x hx name hname with hnone | ⟨y, hy, henv, h, hr, hfile⟩
  · rw [Extractor.extractIn_of_none hcache hshort hnone]
    cases hr : x.result name with
    | error e => rw [Extractor.extractFreshIn_of_error hcache hr]
    | ok h => rw [Extractor.extractFreshIn_of_ok hcache hr hshort (hfilled.free hx hname)]
  · rw [Extractor.extractIn_of_file hcache hshort hfile (hregular.readsBack y hy name hname h hr)]
    exact (hagrees y hy x hx ((environment_eq_iff hy hx).mp henv) name hname h hr).symm

/-- Where members agree nobody sees the cache. -/
theorem Agrees.transparent (hregular : F.Regular d) (hagrees : F.Agrees) : F.Transparent d :=
  fun _ hmade _ hx _ hname =>
    (hregular.filled.history hregular hmade).answer hregular hagrees hx hname

/-- A member that does not agree shows the cache as soon as another one has extracted. -/
theorem Transparent.agrees (hregular : F.Regular d) (htransparent : F.Transparent d) :
    F.Agrees := by
  intro x hx y hy hpack name hname h hr
  have henv := (environment_eq_iff hx hy).mpr hpack
  have hmade : ∀ q ∈ [Request.extractFresh x name], F.Makes q := by
    intro q hq
    rw [List.mem_singleton.mp hq]
    exact ⟨hx, hname⟩
  have hanswer := htransparent [.extractFresh x name] hmade y hy name hname
  have hafter : (x.extractFreshIn d name).2 =
      d.put (fileName name x.environment) (.file h.toDocument.render) := by
    rw [Extractor.extractFreshIn_of_ok (F.cache_eq x hx) hr (hregular.short x hx name hname)
      (hregular.filled.free hx hname)]
  have hfile : Directory.entry? (x.extractFreshIn d name).2 (fileName name y.environment) =
      some (.file h.toDocument.render) := by
    rw [hafter, henv, Directory.entry?_put, if_pos rfl]
  rw [List.foldl_cons, List.foldl_nil, Request.after,
    Extractor.extractIn_of_file (F.cache_eq y hy) (hregular.short y hy name hname) hfile
      (hregular.readsBack x hx name hname h hr)] at hanswer
  exact hanswer.symm

/-- With one target a shared cache is transparent. -/
theorem transparent_of_target (hregular : F.Regular d)
    (htarget : ∀ x ∈ F.members, ∀ y ∈ F.members, x.target = y.target) : F.Transparent d := by
  refine Agrees.transparent hregular fun x hx y hy hpack name _ h hr => ?_
  have htools := (F.tools_eq x hx).trans (F.tools_eq y hy).symm
  rw [← Extractor.result_congr htools (htarget x hx y hy) hpack, hr]

/-- **A shared cache is transparent exactly when members with the same packing have the same
results.** The environment covers the tools and the packing; where the target makes a difference, a
member answers with the header of another one. -/
theorem transparent_iff (hregular : F.Regular d) : F.Transparent d ↔ F.Agrees :=
  ⟨Transparent.agrees hregular, Agrees.transparent hregular⟩

/-! ## A header that depends on the target -/

namespace Sizing

/-- The header `enum wide { size = n }`. -/
def header (n : Nat) : Header :=
  ⟨"wide.h", { enums := .insert .empty "wide" (.enum (some "wide") [("size", .ofNat n)]) }⟩

/-- Tools that find `enum wide { size = sizeof(long) }` in each header. -/
def tools : Tools Id where
  preprocessor := "cpp"
  parser := "cparse"
  preprocess _ _ := .ok ""
  parse _ := .ok [.decl
    ⟨none, .enum (some "wide") (some [⟨"size", some (.sizeofType (.identifier ["long"]))⟩]), none⟩]

def extractor (s : Target × Nat) : Extractor Id := ⟨tools, s.1, s.2, some "cache"⟩

/-- The extractors for some targets and packings, and one header. -/
def fleet (settings : List (Target × Nat)) : Fleet where
  tools := tools
  cache := "cache"
  members := {x | ∃ s ∈ settings, x = extractor s}
  headers := {"wide.h"}
  tools_eq := by
    rintro x ⟨s, _, rfl⟩
    rfl
  cache_eq := by
    rintro x ⟨s, _, rfl⟩
    rfl

/-- Both targets, with the packing in common and with another one. -/
def settings : List (Target × Nat) := [(.lp64, 8), (.llp64, 8), (.llp64, 4)]

theorem short_fileName : ∀ s ∈ settings,
    Directory.tooLong (fileName "wide.h" (extractor s).environment) = false := by
  decide +kernel

theorem fileName_apart : ∀ s ∈ settings, ∀ s' ∈ settings,
    fileName "wide.h" (extractor s).environment = fileName "wide.h" (extractor s').environment →
      (extractor s).environment = (extractor s').environment := by
  decide +kernel

theorem result_extractor : ∀ s ∈ settings,
    (extractor s).result "wide.h" = .ok (header s.1.long.size) := by
  decide +kernel

theorem headerOf?_header : ∀ n ∈ [4, 8],
    Directory.headerOf? (header n).toDocument.render = some (header n) := by
  decide +kernel

/-- Nothing gets into the way of extractors with these settings. -/
theorem regular_fleet {chosen : List (Target × Nat)} (hchosen : ∀ s ∈ chosen, s ∈ settings) :
    (fleet chosen).Regular none := by
  have hmember : ∀ x ∈ (fleet chosen).members, ∃ s ∈ settings, x = extractor s := by
    rintro x ⟨s, hs, rfl⟩
    exact ⟨s, hchosen s hs, rfl⟩
  have hheader : ∀ name ∈ (fleet chosen).headers, name = "wide.h" := fun _ hname => hname
  constructor
  · intro x _ name _
    unfold Directory.entry?
    exact Option.bind_none _
  · intro x hx name hname
    obtain ⟨s, hs, rfl⟩ := hmember x hx
    rw [hheader name hname]
    exact short_fileName s hs
  · intro x hx name hname y hy other hother heq
    obtain ⟨s, hs, rfl⟩ := hmember x hx
    obtain ⟨s', hs', rfl⟩ := hmember y hy
    rw [hheader name hname, hheader other hother] at *
    exact ⟨rfl, fileName_apart s hs s' hs' heq⟩
  · intro x hx name hname h hr
    obtain ⟨s, hs, rfl⟩ := hmember x hx
    rw [hheader name hname, result_extractor s hs] at hr
    obtain rfl := Except.ok.inj hr
    have hsize : ∀ s ∈ settings, s.1.long.size ∈ [4, 8] := by decide
    exact headerOf?_header _ (hsize s hs)

/-- Two targets with different packings do not get into each other's way. -/
theorem transparent_of_packings :
    (fleet [(.lp64, 8), (.llp64, 4)]).Regular none ∧
      (fleet [(.lp64, 8), (.llp64, 4)]).Transparent none := by
  have hregular : (fleet [(.lp64, 8), (.llp64, 4)]).Regular none := regular_fleet (by decide)
  have hsame : ∀ s ∈ [(Target.lp64, 8), (Target.llp64, 4)],
      ∀ s' ∈ [(Target.lp64, 8), (Target.llp64, 4)], s.2 = s'.2 → s = s' := by decide
  refine ⟨hregular, (transparent_iff hregular).mpr ?_⟩
  rintro x ⟨s, hs, rfl⟩ y ⟨s', hs', rfl⟩ hpack name _ h hr
  rw [← hsame s hs s' hs' hpack, hr]

/-- Two targets with one packing: what the first extracts is what the second gets. -/
theorem not_transparent_of_targets :
    (fleet [(.lp64, 8), (.llp64, 8)]).Regular none ∧
      ¬ (fleet [(.lp64, 8), (.llp64, 8)]).Transparent none := by
  have hregular : (fleet [(.lp64, 8), (.llp64, 8)]).Regular none := regular_fleet (by decide)
  refine ⟨hregular, fun htransparent => ?_⟩
  have hsecond := htransparent.agrees hregular (extractor (.lp64, 8)) ⟨_, by simp, rfl⟩
    (extractor (.llp64, 8)) ⟨_, by simp, rfl⟩ rfl "wide.h" rfl _
    (result_extractor (.lp64, 8) (by decide))
  rw [result_extractor (.llp64, 8) (by decide)] at hsecond
  have hdiffer : header Target.llp64.long.size ≠ header Target.lp64.long.size := by
    decide +kernel
  exact hdiffer (Except.ok.inj hsecond)

end Sizing

end Fleet

end ForeignCall
