import FlowTally.Proofs.Run.Tallies
import Mathlib

/-!
# The sum of the counts

The cells of a tally are the entries of its log that were accepted, each once
(`Counts.mem_entries`, `Counts.nodup_entries`), so their counts add up to the
number of keys that were counted (`Counts.total`).
-/

namespace FlowTally.Tally

variable {seed : Vocabulary} {requests : List FlowKey} {log : Log} {t : Tally} {key : FlowKey}
  {row column : Nat}

def entryOf (t : Tally) (cell : Cell) : Nat × Option FlowKey :=
  (cell.row, t.vocabulary.key? cell.column)

def loggedTimes (log : Log) : Nat × Option FlowKey → Nat
  | (row, some key) => log.count (row, key)
  | (_, none) => 0

theorem Counts.key_of_mem (h : Counts seed requests log t) {cell : Cell}
    (hm : cell ∈ t.matrix.cells) :
    ∃ key, t.vocabulary.key? cell.column = some key ∧ cell.count = log.count (cell.row, key) := by
  have hlt : cell.column < t.vocabulary.keys.length :=
    Nat.lt_of_lt_of_le (h.wellFormed.inside cell hm).2 h.columns
  have hkey : t.vocabulary.key? cell.column = some t.vocabulary.keys[cell.column] :=
    List.getElem?_eq_getElem hlt
  refine ⟨_, hkey, ?_⟩
  rw [← h.cells _ _ _ hkey]
  exact (CountMatrix.countAt_of_mem h.wellFormed.sorted hm ⟨rfl, rfl⟩).symm

theorem Counts.mem_entries (h : Counts seed requests log t) (hn : t.vocabulary.keys.Nodup) :
    (row, some key) ∈ t.matrix.cells.map t.entryOf ↔ (row, key) ∈ log ∧ seed.Accepts key := by
  constructor
  · intro hm
    obtain ⟨cell, hcell, heq⟩ := List.mem_map.mp hm
    obtain ⟨rfl, hkey⟩ := Prod.mk.inj heq
    obtain ⟨other, hother, hcount⟩ := h.key_of_mem hcell
    obtain rfl : other = key := Option.some.inj (hother.symm.trans hkey)
    have hlog : (cell.row, other) ∈ log :=
      List.count_pos_iff.mp (hcount ▸ h.wellFormed.positive cell hcell)
    have hcolumn : t.vocabulary.column? other ≠ none := by
      rw [(Vocabulary.column?_eq_some hn).mpr hkey]
      simp
    exact ⟨hlog, not_not.mp (mt (h.column?_eq_none (h.requested _ hlog)).mpr hcolumn)⟩
  · rintro ⟨hlog, haccept⟩
    cases hc : t.vocabulary.column? key with
    | none => exact absurd haccept ((h.column?_eq_none (h.requested _ hlog)).mp hc)
    | some column =>
      have hkey := (Vocabulary.column?_eq_some hn).mp hc
      have hpos : 0 < t.matrix.get row column := by
        rw [h.cells _ _ _ hkey]
        exact List.count_pos_iff.mpr hlog
      by_cases hex : ∃ cell ∈ t.matrix.cells, cell.At row column
      · obtain ⟨cell, hcell, rfl, rfl⟩ := hex
        exact List.mem_map.mpr ⟨cell, hcell, by rw [entryOf, hkey]⟩
      · have hzero : t.matrix.get row column = 0 :=
          CountMatrix.countAt_eq_zero fun cell hcell hat => hex ⟨cell, hcell, hat⟩
        omega

theorem Counts.nodup_entries (h : Counts seed requests log t) (hn : t.vocabulary.keys.Nodup) :
    (t.matrix.cells.map t.entryOf).Nodup := by
  refine List.pairwise_map.mpr (h.wellFormed.sorted.imp_of_mem fun {a b} ha hb hab heq => ?_)
  obtain ⟨hrow, hkey⟩ := Prod.mk.inj heq
  obtain ⟨key, ha', -⟩ := h.key_of_mem ha
  have hb' : t.vocabulary.key? b.column = some key := hkey.symm.trans ha'
  have hcolumn : a.column = b.column := Option.some.inj
    (((Vocabulary.column?_eq_some hn).mpr ha').symm.trans ((Vocabulary.column?_eq_some hn).mpr hb'))
  unfold Cell.Before at hab
  omega

theorem Counts.total (h : Counts seed requests log t) (hn : t.vocabulary.keys.Nodup) :
    (t.matrix.cells.map (·.count)).sum = t.counted := by
  have hinj : Function.Injective fun e : Nat × FlowKey => (e.1, some e.2) := fun a b hab => by
    obtain ⟨hrow, hkey⟩ := Prod.mk.inj hab
    exact Prod.ext hrow (Option.some.inj hkey)
  have hperm : (t.matrix.cells.map t.entryOf).Perm
      ((log.dedup.filter fun e => seed.Accepts e.2).map fun e => (e.1, some e.2)) := by
    refine (List.perm_ext_iff_of_nodup (h.nodup_entries hn)
      (((List.nodup_dedup log).filter _).map hinj)).mpr ?_
    rintro ⟨row, key⟩
    cases key with
    | none =>
      refine iff_of_false (fun hm => ?_) (by simp)
      obtain ⟨cell, hcell, heq⟩ := List.mem_map.mp hm
      obtain ⟨key, hkey, -⟩ := h.key_of_mem hcell
      rw [entryOf, hkey] at heq
      cases heq
    | some key =>
      rw [h.mem_entries hn]
      simp [List.mem_dedup]
  calc (t.matrix.cells.map (·.count)).sum
      = ((t.matrix.cells.map t.entryOf).map (loggedTimes log)).sum := by
        rw [List.map_map]
        refine congrArg List.sum (List.map_congr_left fun cell hcell => ?_)
        obtain ⟨key, hkey, hcount⟩ := h.key_of_mem hcell
        rw [Function.comp_apply, entryOf, hkey, hcount]
        rfl
    _ = ((log.dedup.filter fun e => seed.Accepts e.2).map fun e => log.count e).sum := by
        rw [(hperm.map (loggedTimes log)).sum_eq, List.map_map]
        rfl
    _ = t.counted := by
        -- the lemma counts by another test for equality
        have hbeq : (instBEqProd : BEq (Nat × FlowKey)) = instBEqOfDecidableEq :=
          lawful_beq_subsingleton _ _
        rw [h.counted, hbeq]
        exact List.sum_map_count_dedup_filter_eq_countP (fun e => decide (seed.Accepts e.2)) log

end FlowTally.Tally
