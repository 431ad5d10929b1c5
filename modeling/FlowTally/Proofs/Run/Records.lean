import FlowTally.Run.Tally

/-!
# Records that contribute

The records of an entry point contribute all together or not at all, and a
sample contributes the records of its entry points in the order in which they
are listed. `ofAnswer_eq`: that is what decoding gives, unless one of the answers
is a lost connection; then the first of these ends it. `ofSample_connected` is
the case of a source that is never lost.
-/

namespace FlowTally

-- ---------------------------------------------------------------------------
-- Answers
-- ---------------------------------------------------------------------------

/-- The text of a lost connection. -/
def lostTexts : Except SourceError α → List String
  | .error (.connection text) => [text]
  | _ => []

namespace FlowAnswer

/-- The question failed, or a record has no flow edge. -/
def Fails : FlowAnswer → Prop
  | .ok records => ∃ record ∈ records, record.flow = []
  | .error _ => True

instance : (a : FlowAnswer) → Decidable a.Fails
  | .ok records => inferInstanceAs (Decidable (∃ record ∈ records, record.flow = []))
  | .error _ => .isTrue trivial

def records (a : FlowAnswer) : List FlowKey := if a.Fails then [] else a.toOption.getD []

end FlowAnswer

namespace SampleAnswer

def listed (a : SampleAnswer) : List (Int × FlowAnswer) := a.toOption.getD []

def records (a : SampleAnswer) : List FlowKey := a.listed.flatMap (·.2.records)

/-- Texts of the lost connections among the answers, in the order of the questions. -/
def losses (a : SampleAnswer) : List String := lostTexts a ++ a.listed.flatMap (lostTexts ·.2)

end SampleAnswer

namespace Decoded

variable {a : FlowAnswer} {text : String} {more : List String}

theorem entryKeys_of_not_fails (h : ¬ a.Fails) : entryKeys a = .ok a.records := by
  unfold FlowAnswer.records
  rw [if_neg h]
  cases a with
  | error e => exact absurd trivial h
  | ok records =>
    have hall : records.all (·.wellFormed) = true := by
      simpa [FlowAnswer.Fails, FlowKey.wellFormed, List.isEmpty_eq_false_iff] using h
    simp [entryKeys, Except.bind, hall, Except.toOption]

theorem entryKeys_of_fails (h : a.Fails) (hl : lostTexts a = []) :
    ∃ text, entryKeys a = .error (.query text) := by
  cases a with
  | error e =>
    cases e with
    | connection text => cases hl
    | query text => exact ⟨text, rfl⟩
  | ok records =>
    have hall : ¬ records.all (·.wellFormed) = true := by
      simpa [FlowAnswer.Fails, FlowKey.wellFormed] using h
    exact ⟨"path record without flow edges", by simp only [entryKeys, Except.bind, if_neg hall]⟩

theorem entryKeys_of_lost (h : lostTexts a = text :: more) :
    entryKeys a = .error (.connection text) ∧ more = [] := by
  match a, h with
  | .error (.connection text), rfl => exact ⟨rfl, rfl⟩

theorem ofEntries_eq (id : String) (entries : List (Int × FlowAnswer)) :
    (ofEntries id entries).1 =
      match entries.flatMap (lostTexts ·.2) with
      | text :: _ => .error text
      | [] => .ok
        { keys := entries.flatMap (·.2.records)
          entryFailures := entries.countP (·.2.Fails) } := by
  induction entries with
  | nil => rfl
  | cons entry rest ih =>
    obtain ⟨entry, a⟩ := entry
    rw [List.flatMap_cons, List.flatMap_cons, List.countP_cons]
    cases hl : lostTexts a with
    | cons text more => simp only [ofEntries, (entryKeys_of_lost hl).1, List.cons_append]
    | nil =>
      simp only [List.nil_append]
      by_cases h : a.Fails
      · obtain ⟨text, ht⟩ := entryKeys_of_fails h hl
        simp only [ofEntries, ht, ih]
        split <;> simp [Except.map, withFailure, FlowAnswer.records, h]
      · simp only [ofEntries, entryKeys_of_not_fails h, ih]
        split <;> simp [Except.map, withKeys, h]

/-- What the answers about a sample are decoded into. -/
theorem ofAnswer_eq (sample : Sample) (a : SampleAnswer) :
    (ofAnswer sample a).1 =
      match a.losses with
      | text :: _ => .error text
      | [] => .ok
        { keys := a.records
          entryFailures := a.listed.countP (·.2.Fails)
          sampleFailed := decide (a.isOk = false) } := by
  match a with
  | .error (.connection text) => rfl
  | .error (.query text) => rfl
  | .ok entries => exact ofEntries_eq sample.id entries

theorem ofAnswer_ok {sample : Sample} {a : SampleAnswer} {decoded : Decoded}
    (h : (ofAnswer sample a).1 = .ok decoded) : a.losses = [] ∧ decoded.keys = a.records := by
  rw [ofAnswer_eq] at h
  split at h
  · cases h
  · rename_i hlosses
    cases h
    exact ⟨hlosses, rfl⟩

end Decoded

-- ---------------------------------------------------------------------------
-- Sources
-- ---------------------------------------------------------------------------

namespace SampleSource

/-- No answer about a sample or an entry point is a lost connection. -/
structure Connected (s : SampleSource) : Prop where
  entries : ∀ id text, s.entries id ≠ .error (.connection text)
  flows : ∀ entry text, s.flows entry ≠ .error (.connection text)

def EntryFails (s : SampleSource) (entry : Int) : Prop :=
  match s.flows entry with
  | .ok records => ∃ record ∈ records, record.flow = []
  | .error _ => True

instance (s : SampleSource) (entry : Int) : Decidable (s.EntryFails entry) :=
  match h : s.flows entry with
  | .ok records => decidable_of_iff (∃ record ∈ records, record.flow = []) (by simp [EntryFails, h])
  | .error _ => .isTrue (by simp [EntryFails, h])

/-- Records of an entry point, none if it fails. -/
def entryRecords (s : SampleSource) (entry : Int) : List FlowKey :=
  if s.EntryFails entry then [] else (s.flows entry).toOption.getD []

def listed (s : SampleSource) (id : String) : List Int := (s.entries id).toOption.getD []

def ListingFails (s : SampleSource) (id : String) : Prop := (s.entries id).isOk = false

instance (s : SampleSource) (id : String) : Decidable (s.ListingFails id) :=
  inferInstanceAs (Decidable (_ = false))

def records (s : SampleSource) (id : String) : List FlowKey := (s.listed id).flatMap s.entryRecords

variable {s : SampleSource} {entry : Int}

theorem fails_flows : (FlowAnswer.Fails (s.flows entry)) ↔ s.EntryFails entry := Iff.rfl

theorem records_flows : FlowAnswer.records (s.flows entry) = s.entryRecords entry := by
  simp only [FlowAnswer.records, entryRecords, fails_flows]

theorem listed_about (s : SampleSource) (sample : Sample) :
    (s.about sample).listed = (s.listed sample.id).map fun entry => (entry, s.flows entry) := by
  unfold SampleAnswer.listed listed about
  cases s.entries sample.id with
  | error e => rfl
  | ok entries => rfl

theorem records_about (s : SampleSource) (sample : Sample) :
    (s.about sample).records = s.records sample.id := by
  rw [SampleAnswer.records, listed_about, List.flatMap_map]
  simp only [records_flows, records]

theorem lostTexts_eq_nil {r : Except SourceError α} :
    lostTexts r = [] ↔ ∀ text, r ≠ .error (.connection text) := by
  match r with
  | .ok a => simp [lostTexts]
  | .error (.query text) => simp [lostTexts]
  | .error (.connection text) => simp [lostTexts]

/-- Texts of the lost connections over a sample: the listing first, then the flows of the entry
points that are listed, in their order. -/
def losses (s : SampleSource) (id : String) : List String :=
  lostTexts (s.entries id) ++ (s.listed id).flatMap fun entry => lostTexts (s.flows entry)

theorem losses_about (s : SampleSource) (sample : Sample) :
    (s.about sample).losses = s.losses sample.id := by
  have hlisting : lostTexts (s.about sample) = lostTexts (s.entries sample.id) := by
    unfold about
    match s.entries sample.id with
    | .error (.connection text) => rfl
    | .error (.query text) => rfl
    | .ok entries => rfl
  rw [SampleAnswer.losses, hlisting, listed_about, List.flatMap_map]
  rfl

/-- Neither the listing of a sample nor the flows of an entry point that it lists meet a lost
connection. -/
structure ConnectedFor (s : SampleSource) (id : String) : Prop where
  entries : ∀ text, s.entries id ≠ .error (.connection text)
  flows : ∀ entries, s.entries id = .ok entries → ∀ entry ∈ entries,
    ∀ text, s.flows entry ≠ .error (.connection text)

theorem losses_eq_nil {id : String} : s.losses id = [] ↔ s.ConnectedFor id := by
  rw [losses, List.append_eq_nil_iff, lostTexts_eq_nil, List.flatMap_eq_nil_iff]
  simp only [lostTexts_eq_nil]
  constructor
  · rintro ⟨hentries, hflows⟩
    refine ⟨hentries, fun entries hok entry hm => hflows entry ?_⟩
    rwa [listed, hok]
  · rintro ⟨hentries, hflows⟩
    refine ⟨hentries, fun entry hm => ?_⟩
    cases hok : s.entries id with
    | error e =>
      rw [listed, hok] at hm
      cases hm
    | ok entries =>
      rw [listed, hok] at hm
      exact hflows entries hok entry hm

theorem Connected.connectedFor (h : s.Connected) (id : String) : s.ConnectedFor id :=
  ⟨h.entries id, fun _ _ entry _ => h.flows entry⟩

end SampleSource

namespace Decoded

variable {s : SampleSource}

theorem ofSample_connected (hs : s.Connected) (sample : Sample) :
    (ofSample s sample).1 = .ok
      { keys := s.records sample.id
        entryFailures := (s.listed sample.id).countP (s.EntryFails ·)
        sampleFailed := decide (s.ListingFails sample.id) } := by
  have hlosses : (s.about sample).losses = [] :=
    (s.losses_about sample).trans (SampleSource.losses_eq_nil.mpr (hs.connectedFor sample.id))
  have hcount : (s.about sample).listed.countP (·.2.Fails) =
      (s.listed sample.id).countP (s.EntryFails ·) := by
    rw [SampleSource.listed_about, List.countP_map]
    simp only [Function.comp_def, SampleSource.fails_flows]
  have hok : (s.about sample).isOk = (s.entries sample.id).isOk := by
    unfold SampleSource.about
    cases s.entries sample.id <;> rfl
  rw [ofSample, ofAnswer_eq, hlosses, s.records_about, hcount, hok]
  rfl

end Decoded

end FlowTally
