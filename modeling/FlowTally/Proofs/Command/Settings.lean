import FlowTally.Command.Basic
import FlowTally.Proofs.Except
import Mathlib.Data.List.Nodup

/-!
# Settings and the options over them

A configuration is what it gives to each of its settings (`value_injective`). An option sets its
own setting, and a count of workers also turns on the parallel mode; every other setting keeps the
value of the file. `effectiveConfig_settings` says where that holds: everywhere but at one place.
A vocabulary that is given without `--frozen` thaws a file that has `frozen` set. Which
configurations are refused does not depend on it, since the vocabulary is a seed either way.
-/

namespace FlowTally

inductive Setting where
  | flowKinds
  | upstreamMin
  | upstreamMax
  | downstreamMin
  | downstreamMax
  | upstreamLabel
  | downstreamLabel
  | pathPattern
  | labelSegment
  | positiveMarker
  | skipFunctions
  | enabled
  | workers
  | batchSize
  | seed
  | frozen
  | directory
  | labelStyle
deriving DecidableEq, Repr

namespace Setting

open Config (Value)

def value (c : Config) : Setting → Value
  | flowKinds => .strings c.traversal.flowKinds
  | upstreamMin => .number c.traversal.upstreamMin
  | upstreamMax => .number c.traversal.upstreamMax
  | downstreamMin => .number c.traversal.downstreamMin
  | downstreamMax => .number c.traversal.downstreamMax
  | upstreamLabel => .string c.traversal.upstreamLabel
  | downstreamLabel => .string c.traversal.downstreamLabel
  | pathPattern => .string c.samples.pathPattern
  | labelSegment => .number c.samples.labelSegment
  | positiveMarker => .string c.samples.positiveMarker
  | skipFunctions => .strings c.samples.skipFunctions
  | enabled => .truth c.parallel.enabled
  | workers => .number c.parallel.workers
  | batchSize => .number c.parallel.batchSize
  | seed => (c.vocabulary.seed.map Value.string).getD .null
  | frozen => .truth c.vocabulary.frozen
  | directory => .string c.output.directory
  | labelStyle => .string c.output.labelStyle.name

/-- What the options say about a setting, if they say anything. -/
def given? (o : Options) : Setting → Option Value
  | enabled => if o.workers.isSome then some (.truth true) else none
  | workers => o.workers.map .number
  | batchSize => o.batchSize.map .number
  | seed => o.vocabulary.map .string
  | frozen => if o.frozen then some (.truth true) else none
  | directory => o.output.map .string
  | labelStyle => o.labelStyle.map fun style => .string style.name
  | _ => none

theorem name_injective : Function.Injective LabelStyle.name := by
  intro a b h
  cases a <;> cases b <;> simp_all [LabelStyle.name]

theorem seed_injective :
    Function.Injective fun seed : Option String => (seed.map Value.string).getD .null := by
  intro a b h
  cases a <;> cases b <;> simp_all

theorem value_injective : Function.Injective value := by
  intro a b h
  have hsame (s : Setting) : s.value a = s.value b := congrFun h s
  have htraversal : a.traversal = b.traversal := by
    rw [TraversalConfig.mk.injEq]
    exact ⟨Value.strings.inj (hsame flowKinds), Value.number.inj (hsame upstreamMin),
      Value.number.inj (hsame upstreamMax), Value.number.inj (hsame downstreamMin),
      Value.number.inj (hsame downstreamMax), Value.string.inj (hsame upstreamLabel),
      Value.string.inj (hsame downstreamLabel)⟩
  have hsamples : a.samples = b.samples := by
    rw [SampleConfig.mk.injEq]
    exact ⟨Value.string.inj (hsame pathPattern), Value.number.inj (hsame labelSegment),
      Value.string.inj (hsame positiveMarker), Value.strings.inj (hsame skipFunctions)⟩
  have hparallel : a.parallel = b.parallel := by
    rw [ParallelConfig.mk.injEq]
    exact ⟨Value.truth.inj (hsame enabled), Value.number.inj (hsame workers),
      Value.number.inj (hsame batchSize)⟩
  have hvocabulary : a.vocabulary = b.vocabulary := by
    rw [VocabularyConfig.mk.injEq]
    exact ⟨seed_injective (hsame seed), Value.truth.inj (hsame frozen)⟩
  have houtput : a.output = b.output := by
    rw [OutputConfig.mk.injEq]
    exact ⟨Value.string.inj (hsame directory), name_injective (Value.string.inj (hsame labelStyle))⟩
  rw [Config.mk.injEq]
  exact ⟨htraversal, hsamples, hparallel, hvocabulary, houtput⟩

end Setting

namespace Options

variable {o given : Options} {files : FileTree} {base c : Config} {arguments : List String}

/-- Each setting has the value of its option, or else the value that it had before. -/
def Settles (o : Options) (base c : Config) : Prop :=
  ∀ s : Setting, s.value c = (s.given? o).getD (s.value base)

/-- A vocabulary is given without `--frozen` over a file with a frozen one. -/
def Thaws (o : Options) (base : Config) : Prop :=
  o.vocabulary.isSome = true ∧ o.frozen = false ∧ base.vocabulary.frozen = true

instance (o : Options) (base : Config) : Decidable (o.Thaws base) :=
  inferInstanceAs (Decidable (_ ∧ _))

theorem Settles.unique {a b : Config} (ha : o.Settles base a) (hb : o.Settles base b) : a = b :=
  Setting.value_injective (funext fun s => (ha s).trans (hb s).symm)

-- ---------------------------------------------------------------------------
-- Arguments that are accepted
-- ---------------------------------------------------------------------------

theorem finish_ok (h : finish o = .ok (.run given)) :
    given.frozen = true → given.vocabulary ≠ none := by
  unfold finish at h
  split at h
  · cases h
  · split at h
    · cases h
    · rename_i hfrozen
      cases h
      exact fun hf hv => hfrozen ⟨hf, hv⟩

theorem readFrom_ok {pending : Option Name} (h : readFrom o pending arguments = .ok (.run given)) :
    given.frozen = true → given.vocabulary ≠ none := by
  fun_induction readFrom o pending arguments with
  | case1 => cases h
  | case2 => exact finish_ok h
  | case3 o text rest name value _ ih =>
    obtain ⟨next, -, h⟩ := bind_ok.mp h
    exact ih next h
  | case4 => cases h
  | case5 => exact finish_ok h
  | case6 => cases h
  | case7 => cases h
  | case8 => cases h
  | case9 =>
    rename_i ih
    exact ih h

-- ---------------------------------------------------------------------------
-- Options over a configuration
-- ---------------------------------------------------------------------------

/-- A setting has the value of its option or keeps its own, unless it is thawed. -/
theorem value_override (hfrozen : o.frozen = true → o.vocabulary ≠ none) {s : Setting}
    (hs : s ≠ .frozen ∨ ¬ o.Thaws base) :
    s.value (o.override base) = (s.given? o).getD (s.value base) := by
  cases s with
  | enabled => cases hw : o.workers <;> simp [Setting.value, Setting.given?, override, hw]
  | workers => cases hw : o.workers <;> simp [Setting.value, Setting.given?, override, hw]
  | batchSize => cases hb : o.batchSize <;> simp [Setting.value, Setting.given?, override, hb]
  | seed => cases hv : o.vocabulary <;> simp [Setting.value, Setting.given?, override, hv]
  | directory => cases hd : o.output <;> simp [Setting.value, Setting.given?, override, hd]
  | labelStyle => cases hl : o.labelStyle <;> simp [Setting.value, Setting.given?, override, hl]
  | frozen =>
    cases hv : o.vocabulary with
    | none =>
      have hf : o.frozen = false := Bool.eq_false_iff.mpr fun hf => hfrozen hf hv
      simp [Setting.value, Setting.given?, override, hv, hf]
    | some path =>
      cases hf : o.frozen with
      | true => simp [Setting.value, Setting.given?, override, hv, hf]
      | false =>
        have hbase : base.vocabulary.frozen = false := by
          simpa [Thaws, hv, hf] using hs
        simp [Setting.value, Setting.given?, override, hv, hf, hbase]
  | _ => rfl

theorem frozen_override (h : o.Thaws base) : (o.override base).vocabulary.frozen = false := by
  obtain ⟨hv, hf, -⟩ := h
  obtain ⟨path, hpath⟩ := Option.isSome_iff_exists.mp hv
  simp [override, hpath, hf]

def settled (o : Options) (base : Config) : Config :=
  { o.override base with
    vocabulary :=
      { (o.override base).vocabulary with
        frozen := (o.override base).vocabulary.frozen || o.Thaws base } }

theorem settles_settled (hfrozen : o.frozen = true → o.vocabulary ≠ none) (base : Config) :
    o.Settles base (o.settled base) := by
  intro s
  by_cases hs : s = .frozen
  · subst hs
    by_cases hthaws : o.Thaws base
    · obtain ⟨-, hf, hb⟩ := id hthaws
      simp [Setting.value, Setting.given?, settled, hthaws, hf, hb]
    · have hvalue := value_override hfrozen (s := .frozen) (.inr hthaws)
      simpa [Setting.value, settled, hthaws] using hvalue
  · have hvalue : s.value (o.override base) = (s.given? o).getD (s.value base) :=
      value_override hfrozen (.inl hs)
    cases s with
    | frozen => exact absurd rfl hs
    | _ => exact hvalue

/-- The check does not see a thawed vocabulary: there is a seed either way. -/
theorem check_settled (o : Options) (base : Config) :
    (o.settled base).check = (o.override base).check := by
  by_cases hthaws : o.Thaws base
  · obtain ⟨path, hpath⟩ := Option.isSome_iff_exists.mp hthaws.1
    have hseed : (o.override base).vocabulary.seed = some path := by simp [override, hpath]
    simp [Config.check, VocabularyConfig.check, settled, hseed]
  · simp [settled, hthaws]

theorem effectiveConfig_ok (hbase : o.baseConfig files = .ok base) :
    o.effectiveConfig files = .ok c ↔ (o.override base).check = .ok () ∧ o.override base = c := by
  rw [effectiveConfig, hbase]
  simp only [Except.bind, map_ok, mapError_ok]
  constructor
  · rintro ⟨⟨⟩, haccepted⟩
    exact haccepted
  · intro haccepted
    exact ⟨(), haccepted⟩

/-- Options are accepted exactly if the configuration with every setting from its option or from
the file obeys the rules, and except for what is thawed it is the one in effect. -/
theorem effectiveConfig_settings (hread : Options.read arguments = .ok (.run o))
    (hbase : o.baseConfig files = .ok base) :
    ((∃ c, o.effectiveConfig files = .ok c) ↔ ∃ c, o.Settles base c ∧ c.check = .ok ()) ∧
      ∀ c, o.effectiveConfig files = .ok c →
        (o.Settles base c ↔ ¬ o.Thaws base) ∧
        (∀ s : Setting, s ≠ .frozen → s.value c = (s.given? o).getD (s.value base)) ∧
        (o.Thaws base → Setting.frozen.value c = .truth false) := by
  have hfrozen : o.frozen = true → o.vocabulary ≠ none := readFrom_ok hread
  have hsettled := settles_settled hfrozen base
  refine ⟨⟨?_, ?_⟩, ?_⟩
  · rintro ⟨c, hc⟩
    obtain ⟨hcheck, -⟩ := (effectiveConfig_ok hbase).mp hc
    exact ⟨o.settled base, hsettled, (check_settled o base).trans hcheck⟩
  · rintro ⟨c, hc, hcheck⟩
    have hsame : c = o.settled base := hc.unique hsettled
    rw [hsame, check_settled] at hcheck
    exact ⟨o.override base, (effectiveConfig_ok hbase).mpr ⟨hcheck, rfl⟩⟩
  · intro c hc
    obtain ⟨-, rfl⟩ := (effectiveConfig_ok hbase).mp hc
    refine ⟨⟨fun hsettles hthaws => ?_, fun hthaws s => ?_⟩, fun s hs => ?_, fun hthaws => ?_⟩
    · have hvalue := hsettles .frozen
      obtain ⟨-, hf, hb⟩ := id hthaws
      simp [Setting.value, Setting.given?, frozen_override hthaws, hf, hb] at hvalue
    · exact value_override hfrozen (.inr hthaws)
    · exact value_override hfrozen (.inl hs)
    · exact congrArg Config.Value.truth (frozen_override hthaws)

def frozenFile : FileTree :=
  ⟨[(["c.yaml"], .file (.ofString "version: 1\nvocabulary:\n  seed: w.txt\n  frozen: true\n"))]⟩

def thawingOptions : Options :=
  { graph := some "g.json", config := some "c.yaml", vocabulary := some "v.txt" }

theorem effectiveConfig_settings_thawed :
    Options.read ["--graph", "g.json", "--config", "c.yaml", "--vocabulary", "v.txt"] =
        .ok (.run thawingOptions) ∧
      thawingOptions.baseConfig frozenFile = .ok { vocabulary := ⟨some "w.txt", true⟩ } ∧
      ∃ c, thawingOptions.effectiveConfig frozenFile = .ok c ∧
        ¬ thawingOptions.Settles { vocabulary := ⟨some "w.txt", true⟩ } c ∧
        Setting.frozen.value c = .truth false := by
  have hread : Options.read ["--graph", "g.json", "--config", "c.yaml", "--vocabulary", "v.txt"] =
      .ok (.run thawingOptions) := by decide +kernel
  have hbase : thawingOptions.baseConfig frozenFile =
      .ok { vocabulary := ⟨some "w.txt", true⟩ } := by decide +kernel
  have hcheck :
      (thawingOptions.override { vocabulary := ⟨some "w.txt", true⟩ }).check = .ok () := by
    decide +kernel
  have hthaws : thawingOptions.Thaws { vocabulary := ⟨some "w.txt", true⟩ } := by decide
  have hc := (effectiveConfig_ok hbase).mpr ⟨hcheck, rfl⟩
  obtain ⟨hsettles, -, hfrozen⟩ := (effectiveConfig_settings hread hbase).2 _ hc
  exact ⟨hread, hbase, _, hc, fun h => hsettles.mp h hthaws, hfrozen hthaws⟩

end Options

end FlowTally
