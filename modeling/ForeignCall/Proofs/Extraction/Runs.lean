import ForeignCall.Extraction.Basic
import ForeignCall.Proofs.Cache.Entries
import ForeignCall.Proofs.Header.Translation
import ForeignCall.Proofs.Results

/-!
# ForeignCall.Proofs.Extraction.Runs

Extracting with tools that have no effects. What the tools give depends on nothing but their input,
so an extractor has one result for each header, and the operations on the cache are functions on its
directory.

* `Extractor.result` — the header without the cache, and `Extractor.name_of_result`: its name;
* `extractFreshIn_of_ok`, `extractIn_of_file`, `extractIn_of_none` — the operations on a cache where
  no directory is in the way;
* `environment_eq_iff` — which extractors with the same tools share the files of the cache.
-/

namespace ForeignCall

namespace Extractor

variable {x y : Extractor Id} {name : String}

/-- The header that is extracted without the cache. -/
def result (x : Extractor Id) (name : String) : Except ExtractError Header := outcome (x.run name)

/-- The header that is extracted, and the directory afterwards. -/
def extractIn (x : Extractor Id) (d : Directory) (name : String) :
    Except ExtractError Header × Directory := runFrom d (x.extract name)

/-- The header that is extracted without a look into the cache, and the directory afterwards. -/
def extractFreshIn (x : Extractor Id) (d : Directory) (name : String) :
    Except ExtractError Header × Directory := runFrom d (x.extractFresh name)

/-- The number of headers that are removed, and the directory afterwards. -/
def invalidateIn (x : Extractor Id) (d : Directory) : Except ExtractError Nat × Directory :=
  runFrom d x.invalidate

/-- The header that macros and declarations make up has the name that they are put under. -/
theorem name_of_assemble {target : Target} {pack : Nat} {macros : List Macro}
    {unit : TranslationUnit} {h : Header} (ha : assemble target pack name macros unit = .ok h) :
    h.name = name := by
  have hgrows := translateUnit_grows target pack unit
    ((⟨name, {}, .empty⟩ : Builder).addMacros macros)
  unfold runFrom at hgrows
  unfold assemble at ha
  dsimp only at ha
  split at ha
  · next b hrun =>
    obtain rfl := Except.ok.inj ha
    rw [hrun, Builder.addMacros_eq] at hgrows
    exact hgrows.name_eq
  · cases ha

/-- A header has the name that it has been asked for by. -/
theorem name_of_result {h : Header} (hr : x.result name = .ok h) : h.name = name := by
  simp only [result, run, outcome_bind] at hr
  obtain ⟨dump, _, text, _, unit, _, ha⟩ := hr
  exact name_of_assemble ha

/-- Without the cache the directory does not matter. -/
theorem runFrom_runOver (d : Directory) : runFrom d (x.runOver name) = (x.result name, d) := rfl

/-- The step that stores a header, whatever storing does. -/
theorem runFrom_store
    (store : String → Directory → Header → String → Except CacheError String × Directory)
    {d d' : Directory} {dir environment path : String} {h : Header}
    (hstore : store dir d h environment = (.ok path, d')) :
    runFrom d (ExceptT.mk fun d => do
      let (result, d) := store dir d h environment
      return (result.mapError ExtractError.cache, d)) = (.ok path, d') := by
  change (match store dir d h environment with
    | (result, d) => (result.mapError ExtractError.cache, d)) = (.ok path, d')
  rw [hstore]
  rfl

/-- The step that loads a header, whatever loading does. -/
theorem runFrom_load (load : String → Directory → String → String → Except CacheError (Option Header))
    {d : Directory} {dir environment : String} {stored : Option Header}
    (hload : load dir d name environment = .ok stored) :
    runFrom d (ExceptT.mk fun d =>
      return ((load dir d name environment).mapError ExtractError.cache, d)) = (.ok stored, d) := by
  change ((load dir d name environment).mapError ExtractError.cache, d) = (.ok stored, d)
  rw [hload]
  rfl

/-- A fresh extraction that fails stores nothing. -/
theorem extractFreshIn_of_error {d : Directory} {dir : String} {e : ExtractError}
    (hcache : x.cache = some dir) (hr : x.result name = .error e) :
    x.extractFreshIn d name = (.error e, d) := by
  unfold extractFreshIn extractFresh
  rw [hcache]
  exact runFrom_bind_error (by rw [runFrom_runOver, hr]) _

/-- A fresh extraction stores its result, if no directory is in the way. -/
theorem extractFreshIn_of_ok {d : Directory} {dir : String} {h : Header}
    (hcache : x.cache = some dir) (hr : x.result name = .ok h)
    (hlong : Directory.tooLong (fileName name x.environment) = false)
    (hfree : d.entry? (fileName name x.environment) ≠ some .directory) :
    x.extractFreshIn d name =
      (.ok h, d.put (fileName name x.environment) (.file h.toDocument.render)) := by
  obtain rfl := name_of_result hr
  have hrun : runFrom d (x.runOver h.name) = (.ok h, d) := by rw [runFrom_runOver, hr]
  have hstore := runFrom_store Directory.store (Directory.store_eq dir hlong hfree)
  unfold extractFreshIn extractFresh
  rw [hcache]
  unfold runAndStore
  rw [runFrom_bind_ok hrun, runFrom_bind_ok hstore, runFrom_pure]

/-- A header that is stored is taken from the cache. -/
theorem extractIn_of_file {d : Directory} {dir text : String} {h : Header}
    (hcache : x.cache = some dir) (hlong : Directory.tooLong (fileName name x.environment) = false)
    (hentry : d.entry? (fileName name x.environment) = some (.file text))
    (htext : Directory.headerOf? text = some h) :
    x.extractIn d name = (.ok h, d) := by
  have hload := Directory.load_eq_headerOf? dir hlong hentry
  rw [htext] at hload
  unfold extractIn extract
  rw [hcache]
  rw [runFrom_bind_ok (runFrom_load Directory.load hload)]
  rfl

/-- A header that is not stored is extracted. -/
theorem extractIn_of_none {d : Directory} {dir : String} (hcache : x.cache = some dir)
    (hlong : Directory.tooLong (fileName name x.environment) = false)
    (hentry : d.entry? (fileName name x.environment) = none) :
    x.extractIn d name = x.extractFreshIn d name := by
  have hload := Directory.load_eq_none dir hlong hentry
  unfold extractIn extract extractFreshIn extractFresh
  rw [hcache]
  rw [runFrom_bind_ok (runFrom_load Directory.load hload)]

/-- The step that invalidates, whatever invalidating does. -/
theorem runFrom_invalidate (invalidate : String → Directory → Except CacheError Nat × Directory)
    (d : Directory) (dir : String) :
    (runFrom d (ExceptT.mk fun d => do
      let (result, d) := invalidate dir d
      return (result.mapError ExtractError.cache, d))).2 = (invalidate dir d).2 := rfl

/-- An extractor invalidates the directory of its cache. -/
theorem snd_invalidateIn {d : Directory} {dir : String} (hcache : x.cache = some dir) :
    (x.invalidateIn d).2 = (d.invalidate dir).2 := by
  unfold invalidateIn invalidate
  rw [hcache]
  exact runFrom_invalidate Directory.invalidate d dir

/-- Different packing widths are written differently. -/
theorem toString_pack_inj {pack pack' : Nat} (h : toString pack = toString pack') :
    pack = pack' := by
  have hdigits : Nat.toDigits 10 pack = Nat.toDigits 10 pack' := by
    simpa [Nat.toString_eq_ofList_toDigits] using congrArg String.toList h
  calc pack = Nat.ofDigitChars 10 (Nat.toDigits 10 pack) 0 := Nat.ofDigitChars_ten_toDigits.symm
    _ = Nat.ofDigitChars 10 (Nat.toDigits 10 pack') 0 := by rw [hdigits]
    _ = pack' := Nat.ofDigitChars_ten_toDigits

/-- Extractors with the same tools have the same environment when they have the same packing. -/
theorem environment_eq_iff (htools : x.tools = y.tools) :
    x.environment = y.environment ↔ x.pack = y.pack := by
  unfold environment
  rw [htools, String.append_right_inj]
  exact ⟨toString_pack_inj, fun h => h ▸ rfl⟩

/-- The result depends on the tools, the target and the packing. -/
theorem result_congr (htools : x.tools = y.tools) (htarget : x.target = y.target)
    (hpack : x.pack = y.pack) : x.result name = y.result name := by
  obtain ⟨tools, target, pack, cache⟩ := x
  obtain ⟨tools', target', pack', cache'⟩ := y
  obtain rfl : tools = tools' := htools
  obtain rfl : target = target' := htarget
  obtain rfl : pack = pack' := hpack
  rfl

end Extractor

end ForeignCall
