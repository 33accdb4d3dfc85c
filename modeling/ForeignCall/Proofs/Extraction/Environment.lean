import ForeignCall.Proofs.Extraction.Runs
import ForeignCall.Proofs.Text.Parts

/-!
# ForeignCall.Proofs.Extraction.Environment

Which extractors that run commands have the same environment, and so the same files in a cache. The
environment is one text, in which nothing is quoted. Blanks separate the program of a command and
its arguments, and may stand inside of them; a mark separates the preprocessor and the parser, and
may stand inside of their arguments.

* `Command.words` — what is left of a command in its identity, and `Command.identity_eq_iff`;
* `RunsOver` — a mark inside of an argument that is taken for the one between the commands;
* `Extractor.environment_ofCommands` — the settings that have one environment, and settings that are
  told apart;
* `Extractor.environment_of_blank` — different commands with one environment.
-/

namespace ForeignCall

namespace Command

/-! ## The identity of a command -/

/-- The texts that blanks separate in the identity of a command. A command without arguments has an
empty one there. -/
def parts (c : Command) : List String := c.program :: if c.args = [] then [""] else c.args

/-- The words that a command consists of. An argument with blanks inside has several. -/
def words (c : Command) : List (List Char) := c.parts.flatMap fun part => part.toList.splitOn ' '

theorem toList_identity (c : Command) :
    c.identity.toList = [' '].intercalate (c.parts.map String.toList) := by
  obtain ⟨program, args⟩ := c
  cases args with
  | nil => simp [identity, parts]
  | cons arg args =>
    simp [identity, parts, String.toList_intercalate, List.intercalate_cons_cons]

/-- The words of a command are those of its identity. -/
theorem splitOn_identity (c : Command) : c.identity.toList.splitOn ' ' = c.words := by
  rw [toList_identity, Text.splitOn_intercalate_eq_flatMap (by simp [parts]), List.flatMap_map,
    words]

/-- Commands have one identity if they have the same words. -/
theorem identity_eq_iff {c c' : Command} : c.identity = c'.identity ↔ c.words = c'.words := by
  rw [← splitOn_identity, ← splitOn_identity]
  refine ⟨fun h => h ▸ rfl, fun h => String.toList_inj.mp ?_⟩
  have hjoined := congrArg ([' '].intercalate ·) h
  simpa only [List.intercalate_splitOn] using hjoined

/-- A command that its identity shows as it is: no blanks are inside of its program or its
arguments, and an empty argument is not the only one. -/
structure Plain (c : Command) : Prop where
  no_blank : ∀ part ∈ c.program :: c.args, ' ' ∉ part.toList
  ne_empty : c.args ≠ [""]

instance (c : Command) : Decidable c.Plain :=
  decidable_of_iff ((∀ part ∈ c.program :: c.args, ' ' ∉ part.toList) ∧ c.args ≠ [""])
    ⟨fun h => ⟨h.1, h.2⟩, fun h => ⟨h.no_blank, h.ne_empty⟩⟩

/-- The words of a plain command are its program and its arguments. -/
theorem Plain.words_eq {c : Command} (h : c.Plain) : c.words = c.parts.map String.toList := by
  have hparts : ∀ part ∈ c.parts, ' ' ∉ part.toList := by
    have hblank := h.no_blank
    unfold parts
    split <;> simp_all
  rw [← splitOn_identity, toList_identity]
  exact List.splitOn_intercalate ' ' (by simpa using hparts) (by simp [parts])

/-- Plain commands with the same words are the same. -/
theorem Plain.eq_of_words_eq {c c' : Command} (h : c.Plain) (h' : c'.Plain)
    (hwords : c.words = c'.words) : c = c' := by
  rw [h.words_eq, h'.words_eq] at hwords
  have hparts : c.parts = c'.parts :=
    (List.map_inj_right fun _ _ => String.toList_inj.mp).mp hwords
  obtain ⟨program, args⟩ := c
  obtain ⟨program', args'⟩ := c'
  obtain ⟨rfl, hargs⟩ := List.cons.inj hparts
  have hne := h.ne_empty
  have hne' := h'.ne_empty
  dsimp only at hargs hne hne'
  split at hargs <;> split at hargs <;> simp_all

end Command

/-! ## The environment of two commands -/

/-- What stands between the preprocessor and the parser. -/
def parserMark : String := ";parser="

/-- A mark inside of the preprocessor `pre'` is the one that stands in front of the parser `par`,
and one inside of `par` is the one in front of `par'`. -/
def RunsOver (pre par pre' par' : Command) : Prop :=
  ∃ middle, pre'.identity = pre.identity ++ parserMark ++ middle ∧
    par.identity = middle ++ parserMark ++ par'.identity

theorem runsOver_iff {pre par pre' par' : Command} :
    RunsOver pre par pre' par' ↔ ∃ middle : List Char,
      pre'.identity.toList = pre.identity.toList ++ (';' :: "parser=".toList ++ middle) ∧
        par.identity.toList = middle ++ (';' :: "parser=".toList ++ par'.identity.toList) := by
  constructor
  · rintro ⟨middle, hpre, hpar⟩
    exact ⟨middle.toList, by simp [hpre, parserMark], by simp [hpar, parserMark]⟩
  · rintro ⟨middle, hpre, hpar⟩
    refine ⟨String.ofList middle, String.toList_inj.mp ?_, String.toList_inj.mp ?_⟩
    · simp [hpre, parserMark]
    · simp [hpar, parserMark]

/-- The texts on the two sides of the mark are the same, or those of one side run over. -/
theorem append_parserMark_eq_iff {pre par pre' par' : Command} :
    pre.identity ++ (parserMark ++ par.identity) =
        pre'.identity ++ (parserMark ++ par'.identity) ↔
      pre.identity = pre'.identity ∧ par.identity = par'.identity ∨
        RunsOver pre par pre' par' ∨ RunsOver pre' par' pre par := by
  have hmark : ';' ∉ "parser=".toList := by decide
  simp only [← String.toList_inj, String.toList_append, runsOver_iff]
  exact Text.append_mark_eq_iff hmark

theorem RunsOver.semicolon {pre par pre' par' : Command} (h : RunsOver pre par pre' par') :
    ';' ∈ pre'.identity.toList := by
  obtain ⟨middle, hpre, -⟩ := h
  simp [hpre, parserMark]

namespace Extractor

variable {μ : Type → Type}

theorem environment_eq (x : Extractor μ) :
    x.environment.toList =
      ("ffic=" ++ extractionVersion ++ ";cpp=" ++
        (x.tools.preprocessor ++ (parserMark ++ x.tools.parser)) ++ ";pack").toList ++
          '=' :: Nat.toDigits 10 x.pack := by
  simp [environment, parserMark]

/-- The packing width can be read off the environment, as no digit is an equals sign. -/
theorem environment_eq_environment_iff {x x' : Extractor μ} :
    x.environment = x'.environment ↔ x.pack = x'.pack ∧
      x.tools.preprocessor ++ (parserMark ++ x.tools.parser) =
        x'.tools.preprocessor ++ (parserMark ++ x'.tools.parser) := by
  rw [← String.toList_inj, environment_eq, environment_eq]
  have hdigits (n : Nat) : '=' ∉ Nat.toDigits 10 n := fun h =>
    absurd (Nat.isDigit_of_mem_toDigits (by decide) (by decide) h) (by decide)
  constructor
  · intro h
    obtain ⟨hfront, hpack⟩ := Text.eq_of_append_last_separator (hdigits _) (hdigits _) h
    refine ⟨toString_pack_inj ?_, ?_⟩
    · rw [Nat.toString_eq_ofList_toDigits, hpack, Nat.toString_eq_ofList_toDigits]
    · simpa using String.toList_inj.mp hfront
  · rintro ⟨hpack, htools⟩
    rw [hpack, htools]

/-- **What the environment tells apart.** Two extractors that run commands have one environment
exactly if they have the same packing width and either their commands have the same words, or the
commands of one run over into those of the other. If no blank is inside of a program or an argument,
an empty argument is never the only one, and no semicolon is in what identifies the preprocessors,
then different settings have different environments. -/
theorem environment_ofCommands [Monad μ] (runner runner' : Runner μ)
    (pre par pre' par' : Command) (target target' : Target) (pack pack' : Nat)
    (cache cache' : Option String) :
    let x : Extractor μ := ⟨.ofCommands runner pre par, target, pack, cache⟩
    let x' : Extractor μ := ⟨.ofCommands runner' pre' par', target', pack', cache'⟩
    (x.environment = x'.environment ↔
      pack = pack' ∧ (pre.words = pre'.words ∧ par.words = par'.words ∨
        RunsOver pre par pre' par' ∨ RunsOver pre' par' pre par)) ∧
    (pre.Plain → par.Plain → pre'.Plain → par'.Plain →
      ';' ∉ pre.identity.toList → ';' ∉ pre'.identity.toList →
      x.environment = x'.environment → pre = pre' ∧ par = par' ∧ pack = pack') := by
  intro x x'
  have hexact : x.environment = x'.environment ↔
      pack = pack' ∧ (pre.words = pre'.words ∧ par.words = par'.words ∨
        RunsOver pre par pre' par' ∨ RunsOver pre' par' pre par) := by
    rw [environment_eq_environment_iff, ← Command.identity_eq_iff, ← Command.identity_eq_iff]
    exact and_congr_right fun _ => append_parserMark_eq_iff
  refine ⟨hexact, fun hpre hpar hpre' hpar' hmark hmark' h => ?_⟩
  obtain ⟨rfl, ⟨hwords, hwords'⟩ | hruns | hruns⟩ := hexact.mp h
  · exact ⟨hpre.eq_of_words_eq hpre' hwords, hpar.eq_of_words_eq hpar' hwords', rfl⟩
  · exact absurd hruns.semicolon hmark'
  · exact absurd hruns.semicolon hmark

/-- A machine on which no program is found. -/
def bareMachine : Runner Id := fun _ _ _ =>
  .error (.launch "No such file or directory (os error 2)")

/-- The usual arguments of the preprocessor are told apart from fewer of them. -/
theorem environment_ofCommands_fewer :
    let usual : Command := ⟨"cpp", defaultPreprocessorArgs⟩
    let fewer : Command := ⟨"cpp", ["-x", "c"]⟩
    let parser : Command := ⟨"parser", []⟩
    let environment (pre : Command) :=
      Extractor.environment ⟨.ofCommands bareMachine pre parser, .host, defaultPack, none⟩
    environment usual ≠ environment fewer := by
  intro usual fewer parser environment h
  have hpre := ((environment_ofCommands bareMachine bareMachine usual parser fewer parser .host
    .host defaultPack defaultPack none none).2 (by decide) (by decide) (by decide) (by decide)
      (by decide) (by decide) h).1
  exact absurd hpre (by decide)

/-- Arguments with blanks inside are not told from several arguments, an empty argument is not told
from none, and the end of the preprocessor is not told from a text in its arguments. -/
theorem environment_of_blank :
    let environment (pre par : Command) :=
      Extractor.environment ⟨.ofCommands bareMachine pre par, .host, defaultPack, none⟩
    let parser : Command := ⟨"parser", []⟩
    environment ⟨"cpp", ["-D X"]⟩ parser = environment ⟨"cpp", ["-D", "X"]⟩ parser ∧
      environment ⟨"cpp", [""]⟩ parser = environment ⟨"cpp", []⟩ parser ∧
      environment ⟨"cpp", ["-DX;parser=ast"]⟩ parser =
        environment ⟨"cpp", ["-DX"]⟩ ⟨"ast;parser=parser", []⟩ := by
  decide

end Extractor

end ForeignCall
