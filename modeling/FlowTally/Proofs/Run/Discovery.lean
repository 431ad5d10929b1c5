import FlowTally.Proofs.Sorting
import FlowTally.Run.Basic
import Mathlib.Data.List.Duplicate

/-!
# Discovered samples

Samples that are reported in any order with distinct ids are numbered in the
strict order of their ids (`samples_ok`). The check for repeated ids looks at
neighbours only; in sorted order that is enough (`samples_repeated`).
-/

namespace FlowTally.Run

structure Discovered (infos : List SampleInfo) (found : List Sample) : Prop where
  perm : (found.map fun s => (⟨s.id, s.label⟩ : SampleInfo)).Perm infos
  ordered : found.Pairwise fun a b => a.id < b.id
  rows : found.map (·.row) = List.range found.length

variable {infos : List SampleInfo} {source : SampleSource}

theorem Discovered.nodup_rows (h : Discovered infos found) : (found.map (·.row)).Nodup :=
  h.rows ▸ List.nodup_range

theorem pairwise_sortSamples (infos : List SampleInfo) :
    (sortSamples infos).Pairwise fun a b => a.id ≤ b.id :=
  pairwise_mergeSort_key (·.id) infos

/-- In sorted order a repeated id stands next to itself. -/
theorem repeatedId?_eq_none (hs : infos.Pairwise fun a b => a.id ≤ b.id) :
    repeatedId? infos = none ↔ infos.Pairwise fun a b => a.id < b.id := by
  induction infos with
  | nil => simp [repeatedId?]
  | cons a rest ih =>
    cases rest with
    | nil => simp [repeatedId?]
    | cons b rest =>
      obtain ⟨ha, hrest⟩ := List.pairwise_cons.mp hs
      have hb := (List.pairwise_cons.mp hrest).1
      have hab := ha b (List.mem_cons_self ..)
      rw [repeatedId?, List.pairwise_cons]
      split
      · rename_i heq
        refine iff_of_false (by simp) fun h => ?_
        exact String.lt_irrefl _ (heq ▸ h.1 b (List.mem_cons_self ..))
      · rename_i hne
        rw [ih hrest]
        refine ⟨fun h => ⟨fun c hc => ?_, h⟩, And.right⟩
        have hlt : a.id < b.id := String.not_le.mp fun hba => hne (String.le_antisymm hab hba)
        rcases List.mem_cons.mp hc with rfl | hc
        · exact hlt
        · exact String.lt_trans hlt ((List.pairwise_cons.mp h).1 c hc)

theorem map_withRows (infos : List SampleInfo) :
    (withRows infos).map (fun s => (⟨s.id, s.label⟩ : SampleInfo)) = infos := by
  rw [withRows, List.map_map]
  exact List.zipIdx_map_fst 0 infos

theorem rows_withRows (infos : List SampleInfo) :
    (withRows infos).map (·.row) = List.range infos.length := by
  rw [withRows, List.map_map, List.range_eq_range']
  exact List.zipIdx_map_snd 0 infos

theorem samples_ok (hinfos : source.samples = .ok infos) (hids : (infos.map (·.id)).Nodup) :
    ∃ found, samples source = .ok found ∧ Discovered infos found := by
  have hsorted := pairwise_sortSamples infos
  have hperm : (sortSamples infos).Perm infos := List.mergeSort_perm ..
  have hstrict : (sortSamples infos).Pairwise fun a b => a.id < b.id := by
    have hne := List.pairwise_map.mp ((hperm.map (·.id)).nodup_iff.mpr hids)
    refine (hsorted.and hne).imp fun ⟨hle, hne⟩ => ?_
    exact String.not_le.mp fun hge => hne (String.le_antisymm hle hge)
  refine ⟨withRows (sortSamples infos), ?_, ?_, ?_, ?_⟩
  · simp [samples, hinfos, (repeatedId?_eq_none hsorted).mpr hstrict]
  · rw [map_withRows]
    exact hperm
  · rw [← map_withRows (sortSamples infos)] at hstrict
    simpa only [List.pairwise_map] using hstrict
  · rw [rows_withRows]
    simp [withRows]

theorem repeatedId?_sublist {id : String} (h : repeatedId? infos = some id) :
    [id, id].Sublist (infos.map (·.id)) := by
  induction infos with
  | nil => cases h
  | cons a rest ih =>
    cases rest with
    | nil => cases h
    | cons b rest =>
      rw [repeatedId?] at h
      split at h
      · rename_i heq
        cases h
        rw [List.map_cons, List.map_cons, ← heq]
        exact ((List.nil_sublist _).cons_cons _).cons_cons _
      · exact (ih h).cons _

/-- An id that is reported twice is found, and ends the run. -/
theorem samples_repeated (hinfos : source.samples = .ok infos)
    (hids : ¬ (infos.map (·.id)).Nodup) :
    ∃ id, samples source = .error (.consistency s!"sample '{id}' discovered twice") ∧
      [id, id].Sublist (infos.map (·.id)) := by
  have hperm : ((sortSamples infos).map (·.id)).Perm (infos.map (·.id)) :=
    (List.mergeSort_perm ..).map _
  cases hr : repeatedId? (sortSamples infos) with
  | none =>
    have hstrict := (repeatedId?_eq_none (pairwise_sortSamples infos)).mp hr
    have hnodup : ((sortSamples infos).map (·.id)).Nodup := by
      refine List.pairwise_map.mpr (hstrict.imp fun {a b} hlt heq => ?_)
      exact String.lt_irrefl _ (heq ▸ hlt)
    exact absurd (hperm.nodup_iff.mp hnodup) hids
  | some id =>
    refine ⟨id, by simp only [samples, hinfos, hr], ?_⟩
    have htwice := List.duplicate_iff_sublist.mpr (repeatedId?_sublist hr)
    rw [List.duplicate_iff_two_le_count, hperm.count_eq] at htwice
    exact List.duplicate_iff_sublist.mp (List.duplicate_iff_two_le_count.mpr htwice)

theorem samples_eq (hinfos : source.samples = .ok infos) (hids : (infos.map (·.id)).Nodup) :
    samples source = .ok (withRows (sortSamples infos)) := by
  obtain ⟨found, hfound, -⟩ := samples_ok hinfos hids
  rw [hfound]
  simp only [samples, hinfos] at hfound
  split at hfound
  · cases hfound
  · exact hfound.symm

@[simp] theorem length_withRows (infos : List SampleInfo) :
    (withRows infos).length = infos.length := by
  simp [withRows]

@[simp] theorem length_sortSamples (infos : List SampleInfo) :
    (sortSamples infos).length = infos.length :=
  List.length_mergeSort infos

theorem withRows_take (infos : List SampleInfo) (count : Nat) :
    withRows (infos.take count) = (withRows infos).take count := by
  have hzip : (infos.take count).zipIdx = infos.zipIdx.take count := by
    refine List.ext_getElem? fun i => ?_
    simp only [List.getElem?_zipIdx, List.getElem?_take]
    split <;> rfl
  rw [withRows, hzip, List.map_take]
  rfl

theorem rows_withRows_take (infos : List SampleInfo) (count : Nat) :
    ((withRows infos).take count).map (·.row) =
      List.range ((withRows infos).take count).length := by
  rw [← withRows_take, rows_withRows, length_withRows]

theorem sortSamples_take (infos : List SampleInfo) (count : Nat) :
    sortSamples ((sortSamples infos).take count) = (sortSamples infos).take count := by
  refine List.mergeSort_of_pairwise ((pairwise_sortSamples infos).take.imp ?_)
  intro a b h
  exact decide_eq_true h

theorem nodup_sortSamples_take (hids : (infos.map (·.id)).Nodup) (count : Nat) :
    (((sortSamples infos).take count).map (·.id)).Nodup := by
  have hperm : (sortSamples infos).Perm infos := List.mergeSort_perm ..
  have hall : ((sortSamples infos).map (·.id)).Nodup := (hperm.map (·.id)).nodup_iff.mpr hids
  exact hall.sublist ((List.take_sublist count _).map _)

end FlowTally.Run
