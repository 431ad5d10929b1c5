import FlowTally.Command.Basic
import FlowTally.Proofs.Config.Printed
import FlowTally.Proofs.Except
import FlowTally.Proofs.Json.Printer

/-!
# Configurations read back

`read_print`: a printed configuration is read back as it was, whatever its
texts look like, and if one of its rules is broken the reader reports that rule
as `check` does. The tokens of the text are those of one mapping, so they are
read as its nodes (`ofText_print`); a text printed plain stands for nothing
else, and every name is known and stands once, so the fields of the nodes are
the fields that were printed.
-/

namespace FlowTally.Config

open Text.Natural (bound64 bound32 digits)
open Yaml (Fault)
open Yaml.Node

-- ---------------------------------------------------------------------------
-- Nodes
-- ---------------------------------------------------------------------------

def textScalar (text : String) : List Char × Bool := (text.toList, Yaml.printsPlain text.toList)

def textNode (text : String) : Yaml.Node := .scalar text.toList (Yaml.printsPlain text.toList)

def Value.node : Value → Yaml.Node
  | .string text => textNode text
  | .strings items => .sequence (items.map textNode)
  | .number n => .scalar (digits n) true
  | .truth value => .scalar (toString value).toList true
  | .null => .scalar "null".toList true

theorem reads_value (value : Value) : Reads value.tokens value.node := by
  cases value with
  | string text => exact reads_scalar ..
  | strings items =>
    cases items with
    | nil => exact reads_empty
    | cons item items =>
      have hitems : Reads (itemTokens ((item :: items).map textScalar)) _ := reads_items nofun
      rw [itemTokens, itemNodes, List.flatMap_map, List.map_map] at hitems
      exact hitems
  | number n => exact reads_scalar ..
  | truth value => exact reads_scalar ..
  | null => exact reads_scalar ..

def fieldEntry (field : String × Value) : List Char × List Yaml.Token × Yaml.Node :=
  (field.1.toList, field.2.tokens, field.2.node)

def fieldsNode (fields : List (String × Value)) : Yaml.Node :=
  .mapping (entryNodes (fields.map fieldEntry))

def Section.entry (s : Section) : List Char × List Yaml.Token × Yaml.Node :=
  (s.name.toList, mappingTokens (s.fields.map fieldEntry), fieldsNode s.fields)

def printedEntries (c : Config) : Entries :=
  ("version".toList, [.scalar ['1'] true], .scalar ['1'] true) :: c.sections.map Section.entry

theorem reads_section (s : Section) : Reads s.entry.2.1 s.entry.2.2 := by
  refine reads_mapping ?_
  rw [List.forall_mem_map]
  exact fun field _ => reads_value field.2

theorem reads_entries (c : Config) :
    ∀ entry ∈ c.printedEntries, Reads entry.2.1 entry.2.2 := by
  refine List.forall_mem_cons.mpr ⟨reads_scalar .., ?_⟩
  rw [List.forall_mem_map]
  exact fun s _ => reads_section s

theorem Section.tokens_eq (s : Section) :
    s.tokens = Yaml.keyTokens s.entry.1 ++ s.entry.2.1 := by
  simp [Section.tokens, Section.entry, mappingTokens, entryTokens, List.flatMap_map]
  rfl

theorem tokens_eq (c : Config) : c.tokens = mappingTokens c.printedEntries := by
  have hsections :
      c.sections.flatMap Section.tokens = entryTokens (c.sections.map Section.entry) := by
    rw [entryTokens, List.flatMap_map, funext Section.tokens_eq]
  rw [tokens, hsections]
  simp [mappingTokens, printedEntries, entryTokens]

theorem ofText_print {c : Config} (h : ∀ text ∈ c.texts, Inline text) :
    Yaml.Node.ofText c.print.toList = .ok (.mapping (entryNodes c.printedEntries)) := by
  rw [Yaml.Node.ofText, scan_print h, tokens_eq]
  exact ofTokens_mapping (reads_entries c)

-- ---------------------------------------------------------------------------
-- Values
-- ---------------------------------------------------------------------------

@[simp] theorem readText_string (text : String) :
    readText (Value.string text).node = .ok text := by
  rw [Value.node, textNode, readText, String.ofList_toList]

@[simp] theorem readTexts_strings (items : List String) :
    readTexts (Value.strings items).node = .ok items := by
  have hitems : items.mapM (fun item => readText (textNode item)) = pure (items.map id) :=
    mapM_eq_pure fun item _ => readText_string item
  rw [List.map_id] at hitems
  rw [Value.node, readTexts, List.mapM_map]
  exact hitems

@[simp] theorem readCount_number {n : Nat} (h : n < bound64) :
    readCount (Value.number n).node = .ok n := by
  rw [Value.node, readCount, readNumber, Yaml.natural?_digits h]

@[simp] theorem readTruth_truth (value : Bool) :
    readTruth (Value.truth value).node = .ok value := by
  cases value <;> rfl

/-- A path that is printed plain is not taken for its absence. -/
@[simp] theorem readOptional_seed (seed : Option String) :
    readOptional readText ((seed.map Value.string).getD .null).node = .ok seed := by
  cases seed with
  | none => rfl
  | some seed =>
    have hread := readText_string seed
    change readOptional readText (textNode seed) = _
    rw [Value.node, textNode] at hread
    rw [textNode]
    cases hplain : Yaml.printsPlain seed.toList with
    | true =>
      have hnull : Yaml.isNull seed.toList = false := by
        simp only [Yaml.printsPlain, Yaml.isAmbiguous, Bool.and_eq_true, Bool.not_eq_true',
          Bool.or_eq_false_iff] at hplain
        simp [hplain]
      rw [hplain] at hread
      rw [readOptional, hnull, hread]
      rfl
    | false =>
      rw [hplain] at hread
      rw [readOptional, hread]
      · rfl
      · rintro _ ⟨⟩

@[simp] theorem readLabelStyle_name (style : LabelStyle) :
    readLabelStyle (Value.string style.name).node = .ok style := by
  cases style <;> rfl

-- ---------------------------------------------------------------------------
-- Fields
-- ---------------------------------------------------------------------------

theorem fieldsFrom_entries {known : List String} {seen entries : List (String × Yaml.Node)}
    (hknown : ∀ entry ∈ entries, entry.1 ∈ known)
    (hdistinct : ((seen ++ entries).map (·.1)).Nodup) :
    fieldsFrom known seen (entries.map fun entry => (.scalar entry.1.toList true, entry.2)) =
      .ok (seen ++ entries) := by
  induction entries generalizing seen with
  | nil => simp [fieldsFrom]
  | cons entry entries ih =>
    obtain ⟨hentry, hentries⟩ := List.forall_mem_cons.mp hknown
    have hnext : ((seen ++ [entry] ++ entries).map (·.1)).Nodup := by simpa using hdistinct
    have hnew : Json.lookup? entry.1 seen = none := by
      have hseen : entry.1 ∉ seen.map (·.1) := by
        rw [List.map_append, List.map_cons] at hdistinct
        exact fun hmem => List.nodup_append.mp hdistinct |>.2.2 _ hmem _ (.head _) rfl
      rw [Json.lookup?, Option.map_eq_none_iff, List.find?_eq_none]
      intro field hfield heq
      exact hseen (List.mem_map.mpr ⟨field, hfield, by simpa using heq⟩)
    rw [List.map_cons, fieldsFrom, String.ofList_toList]
    simp only [List.contains_iff_mem.mpr hentry, hnew, Bool.not_true, Option.isSome_none,
      Bool.false_eq_true, if_false]
    rw [ih hentries hnext, List.append_assoc]
    rfl

theorem fields_entries {known : List String} {entries : List (String × Yaml.Node)}
    (hknown : ∀ entry ∈ entries, entry.1 ∈ known) (hdistinct : (entries.map (·.1)).Nodup) :
    fields known (.mapping (entries.map fun entry => (.scalar entry.1.toList true, entry.2))) =
      .ok entries := fieldsFrom_entries hknown hdistinct

def fieldValues (fields : List (String × Value)) : List (String × Yaml.Node) :=
  fields.map fun field => (field.1, field.2.node)

variable {printed : List (String × Value)} {name : String}

theorem fields_printed (hdistinct : (printed.map (·.1)).Nodup) :
    fields (printed.map (·.1)) (fieldsNode printed) = .ok (fieldValues printed) := by
  have hnames : (fieldValues printed).map (·.1) = printed.map (·.1) := by simp [fieldValues]
  have hnode : fieldsNode printed =
      .mapping ((fieldValues printed).map fun entry => (.scalar entry.1.toList true, entry.2)) := by
    simp [fieldsNode, fieldValues, entryNodes, fieldEntry]
  rw [hnode]
  refine fields_entries (fun entry hentry => ?_) (hnames ▸ hdistinct)
  rw [← hnames]
  exact List.mem_map_of_mem hentry

-- ---------------------------------------------------------------------------
-- Sections
-- ---------------------------------------------------------------------------

theorem readTraversal_printed {c : TraversalConfig}
    (h : ∀ n ∈ [c.upstreamMin, c.upstreamMax, c.downstreamMin, c.downstreamMax], n < bound64) :
    readTraversal (fieldsNode (traversalFields c)) = .ok c := by
  have hdistinct : ((traversalFields c).map (·.1)).Nodup := by simp [traversalFields]
  change (fields ((traversalFields c).map (·.1)) _ >>= _) = _
  rw [fields_printed hdistinct]
  simp [fieldValues, traversalFields, field, Json.lookup?, bind, Except.bind, pure, Except.pure,
    h]

theorem readSamples_printed {c : SampleConfig} (h : c.labelSegment < bound64) :
    readSamples (fieldsNode (sampleFields c)) = .ok c := by
  have hdistinct : ((sampleFields c).map (·.1)).Nodup := by simp [sampleFields]
  change (fields ((sampleFields c).map (·.1)) _ >>= _) = _
  rw [fields_printed hdistinct]
  simp [fieldValues, sampleFields, field, Json.lookup?, bind, Except.bind, pure, Except.pure,
    h]

theorem readParallel_printed {c : ParallelConfig} (hworkers : c.workers < bound64)
    (hbatch : c.batchSize < bound64) : readParallel (fieldsNode (parallelFields c)) = .ok c := by
  have hdistinct : ((parallelFields c).map (·.1)).Nodup := by simp [parallelFields]
  change (fields ((parallelFields c).map (·.1)) _ >>= _) = _
  rw [fields_printed hdistinct]
  simp [fieldValues, parallelFields, field, Json.lookup?, bind, Except.bind, pure,
    Except.pure, hworkers, hbatch]

theorem readVocabulary_printed (c : VocabularyConfig) :
    readVocabulary (fieldsNode (vocabularyFields c)) = .ok c := by
  have hdistinct : ((vocabularyFields c).map (·.1)).Nodup := by simp [vocabularyFields]
  change (fields ((vocabularyFields c).map (·.1)) _ >>= _) = _
  rw [fields_printed hdistinct]
  simp [fieldValues, vocabularyFields, field, Json.lookup?, bind, Except.bind, pure,
    Except.pure]

theorem readOutput_printed (c : OutputConfig) :
    readOutput (fieldsNode (outputFields c)) = .ok c := by
  have hdistinct : ((outputFields c).map (·.1)).Nodup := by simp [outputFields]
  change (fields ((outputFields c).map (·.1)) _ >>= _) = _
  rw [fields_printed hdistinct]
  simp [fieldValues, outputFields, field, Json.lookup?, bind, Except.bind, pure,
    Except.pure]

-- ---------------------------------------------------------------------------
-- Whole configurations
-- ---------------------------------------------------------------------------

def counts (c : Config) : List Nat :=
  [c.traversal.upstreamMin, c.traversal.upstreamMax, c.traversal.downstreamMin,
    c.traversal.downstreamMax, c.samples.labelSegment, c.parallel.workers, c.parallel.batchSize]

/-- A configuration that can be printed: each text on one line, and counts of 64 bits. -/
structure Writable (c : Config) : Prop where
  texts : ∀ text ∈ c.texts, Inline text
  counts : ∀ n ∈ c.counts, n < bound64

def topValues (c : Config) : List (String × Yaml.Node) :=
  ("version", .scalar ['1'] true) :: c.sections.map fun s => (s.name, fieldsNode s.fields)

theorem ofNode_print {c : Config} (h : ∀ n ∈ c.counts, n < bound64) :
    ofNode (.mapping (entryNodes c.printedEntries)) = .ok (some 1, c) := by
  have hnode : entryNodes c.printedEntries =
      c.topValues.map fun entry => (.scalar entry.1.toList true, entry.2) := by
    simp [entryNodes, printedEntries, topValues, Section.entry]
  have hfields : fields ["version", "traversal", "samples", "parallel", "vocabulary", "output"]
      (.mapping (entryNodes c.printedEntries)) = .ok c.topValues := by
    rw [hnode]
    exact fields_entries (by simp [topValues, sections]) (by simp [topValues, sections])
  have hversion : readOptional (readNumber bound32) (.scalar ['1'] true) = .ok (some 1) := by decide
  simp only [counts, List.forall_mem_cons] at h
  rw [ofNode, hfields]
  simp [topValues, sections, field, Json.lookup?, bind, Except.bind, pure, Except.pure, h, hversion,
    readTraversal_printed, readSamples_printed, readParallel_printed, readVocabulary_printed,
    readOutput_printed]

theorem read_eq_check {c : Config} (h : c.Writable) :
    Config.read c.print = c.check.map fun _ => c := by
  have hsupported : 1 ∈ supportedVersions := by decide
  rw [Config.read, ofText_print h.texts]
  simp only [Except.bind, ofNode_print h.counts, hsupported, if_true]

-- ---------------------------------------------------------------------------
-- Printed by a command
-- ---------------------------------------------------------------------------

theorem check_of_effective {o : Options} {files : FileTree} {c : Config}
    (h : o.effectiveConfig files = .ok c) : c.check = .ok () := by
  obtain ⟨base, -, heffective⟩ := bind_ok.mp h
  obtain ⟨⟨⟩, hcheck, rfl⟩ := map_ok.mp heffective
  exact mapError_ok.mp hcheck

theorem extract_not_printed (files : FileTree) (stamp : Stamp) (processors : Nat) (g : GraphSource)
    (c : Config) (text : String) :
    (Command.extract files stamp processors g c).result ≠ .printed text := by
  unfold Command.extract
  split
  · exact nofun
  · dsimp only
    split <;> exact nofun

theorem printed_eq {o : Options} {files : FileTree} {stamp : Stamp} {processors : Nat}
    {text : String} {c : Config} (heffective : o.effectiveConfig files = .ok c)
    (hprinted : (Command.runOptions files stamp processors o).result = .printed text) :
    text = c.print := by
  unfold Command.runOptions at hprinted
  rw [heffective] at hprinted
  dsimp only at hprinted
  split at hprinted
  · cases hprinted
    rfl
  · split at hprinted
    · cases hprinted
    · exact absurd hprinted (extract_not_printed _ _ _ _ _ _)

/-- A printed configuration is read back, unless one of its rules is broken; then that is what the
reader reports. What a command prints is in effect, so it is read back as it was. -/
theorem read_print {c : Config} (h : c.Writable) :
    Config.read c.print = (c.check.map fun _ => c) ∧
      ∀ (o : Options) (files : FileTree) (stamp : Stamp) (processors : Nat) (text : String),
        o.effectiveConfig files = .ok c →
        (Command.runOptions files stamp processors o).result = .printed text →
        Config.read text = .ok c := by
  refine ⟨read_eq_check h, fun o files stamp processors text heffective hprinted => ?_⟩
  rw [printed_eq heffective hprinted, read_eq_check h, check_of_effective heffective]
  rfl

def awkward : Config where
  traversal :=
    { flowKinds := ["null", "1.5", "- a", "a: b", "a #b", "'", "\"", "é\ufeff", "[x]", "---"]
      upstreamLabel := "~"
      downstreamLabel := "true" }
  samples := { pathPattern := " a", skipFunctions := ["", " ", "0x1F", "x:", "?"] }
  parallel := { workers := 7, batchSize := 10 }
  vocabulary := { seed := some "null", frozen := true }
  output := { directory := "", labelStyle := .boolean }

def awkwardOptions : Options where
  output := some "~"
  vocabulary := some "null"
  frozen := true
  dumpConfig := true

theorem read_print_awkward :
    awkward.Writable ∧ awkward.check = .ok () ∧ Config.read awkward.print = .ok awkward ∧
      Config.read (awkwardOptions.override {}).print = .ok (awkwardOptions.override {}) := by
  have hwritable : awkward.Writable := ⟨by decide +kernel, by decide⟩
  have hcheck : awkward.check = .ok () := by rfl
  have heffective : (awkwardOptions.override {}).Writable := ⟨by decide +kernel, by decide⟩
  refine ⟨hwritable, hcheck, ?_, ?_⟩
  · rw [(read_print hwritable).1, hcheck]
    rfl
  · exact (read_print heffective).2 awkwardOptions default default 1 _ rfl rfl

end FlowTally.Config
