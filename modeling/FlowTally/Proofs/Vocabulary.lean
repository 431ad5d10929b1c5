import FlowTally.Vocabulary.Basic
import Mathlib.Data.List.Induction
import Mathlib.Data.List.Nodup

/-!
# Columns of a vocabulary

Every vocabulary that operations lead to lists each key once, so a column and
its key determine each other (`column?_eq_some`). A request extends the keys by
one at most (`resolve_keys`), and its answer is the column that the key has
afterwards (`resolve_column`). What a whole run of requests leads to is
`after`: the keys of the seed, then the new ones in the order of their first
request.
-/

namespace FlowTally.Vocabulary

/-- Vocabularies that operations lead to: seeds that are accepted, and requests. -/
inductive Reached : Vocabulary → Prop
  | seed (keys : List FlowKey) (frozen : Bool) : ofKeys keys frozen = .ok v → Reached v
  | resolve (key : FlowKey) : Reached v → Reached (v.resolve key).2

variable {v : Vocabulary} {key : FlowKey} {keys seen more : List FlowKey} {column : Nat}
  {frozen : Bool}

-- ---------------------------------------------------------------------------
-- Distinct keys
-- ---------------------------------------------------------------------------

theorem firstRepeated?_eq_none (h : seen.Nodup) :
    firstRepeated? seen keys = none ↔ (seen ++ keys).Nodup := by
  induction keys generalizing seen with
  | nil => simp [firstRepeated?, h]
  | cons key rest ih =>
    simp only [firstRepeated?]
    split
    · rename_i hm
      refine iff_of_false (by simp) fun hn => ?_
      exact (List.nodup_append.mp hn).2.2 key hm key (List.mem_cons_self ..) rfl
    · rename_i hm
      have hnew : (seen ++ [key]).Nodup := by
        refine List.nodup_append.mpr ⟨h, List.nodup_singleton key, ?_⟩
        rintro a ha b hb rfl
        exact hm (List.mem_singleton.mp hb ▸ ha)
      rw [ih hnew, List.append_assoc, List.singleton_append]

theorem ofKeys_ok : ofKeys keys frozen = .ok v ↔ keys.Nodup ∧ v = ⟨keys, frozen⟩ := by
  have hnone : firstRepeated? [] keys = none ↔ ([] ++ keys).Nodup :=
    firstRepeated?_eq_none List.nodup_nil
  rw [List.nil_append] at hnone
  unfold ofKeys
  split
  · rename_i h
    simp [← hnone, h]
  · rename_i h
    simp [← hnone, h, eq_comm]

theorem column?_eq_some (hn : v.keys.Nodup) :
    v.column? key = some column ↔ v.key? column = some key := by
  rw [column?, key?, List.idxOf?_eq_some_iff]
  constructor
  · rintro ⟨hlt, hkey, -⟩
    exact List.getElem?_eq_some_iff.mpr ⟨hlt, by simpa using hkey⟩
  · intro h
    obtain ⟨hlt, hkey⟩ := List.getElem?_eq_some_iff.mp h
    refine ⟨hlt, by simpa using hkey, fun j hj heq => ?_⟩
    have hlt' : j < v.keys.length := Nat.lt_trans hj hlt
    have hsame :
        v.keys[j] = v.keys[column] := (by simpa using heq : v.keys[j] = key).trans hkey.symm
    exact Nat.ne_of_lt hj ((List.Nodup.getElem_inj_iff hn).mp hsame)

theorem column?_eq_none : v.column? key = none ↔ key ∉ v.keys := List.idxOf?_eq_none_iff

theorem checkFrom_ok (hn : v.keys.Nodup) (hkeys : v.keys = seen ++ more) :
    v.checkFrom seen.length more = .ok () := by
  induction more generalizing seen with
  | nil => rfl
  | cons key rest ih =>
    have hkey : v.key? seen.length = some key := by simp [key?, hkeys]
    rw [checkFrom, if_pos ((column?_eq_some hn).mpr hkey)]
    rw [List.append_cons] at hkeys
    simpa using ih hkeys

theorem check_ok (hn : v.keys.Nodup) : v.check = .ok () := checkFrom_ok hn (List.nil_append _).symm

-- ---------------------------------------------------------------------------
-- Requests
-- ---------------------------------------------------------------------------

theorem resolve_keys (v : Vocabulary) (key : FlowKey) :
    (v.resolve key).2 =
      ⟨v.keys ++ (if v.frozen = true ∨ key ∈ v.keys then [] else [key]), v.frozen⟩ := by
  unfold resolve
  split
  · rename_i column h
    have hm : key ∈ v.keys := List.isSome_idxOf?.mp (Option.isSome_of_eq_some h)
    simp [hm]
  · rename_i h
    have hm : key ∉ v.keys := column?_eq_none.mp h
    split
    · rename_i hf
      simp [← hf]
    · rename_i hf
      simp [hm, hf]

theorem nodup_resolve (hn : v.keys.Nodup) (key : FlowKey) : (v.resolve key).2.keys.Nodup := by
  rw [resolve_keys]
  refine List.nodup_append.mpr ⟨hn, by split <;> simp, ?_⟩
  rintro a ha b hb rfl
  split at hb
  · cases hb
  · rename_i hne
    exact hne (.inr (List.mem_singleton.mp hb ▸ ha))

theorem resolve_column (hn : v.keys.Nodup) (key : FlowKey) :
    (v.resolve key).1.column? = (v.resolve key).2.column? key := by
  have hn' := nodup_resolve hn key
  unfold resolve at hn' ⊢
  split
  · rename_i column h
    exact h.symm
  · rename_i h
    split
    · exact h.symm
    · rename_i hf
      simp only [h, hf] at hn'
      exact ((column?_eq_some hn').mpr (List.getElem?_concat_length)).symm

/-- A request of this key is answered with a column. -/
def Accepts (v : Vocabulary) (key : FlowKey) : Prop := v.frozen = false ∨ key ∈ v.keys

instance (v : Vocabulary) (key : FlowKey) : Decidable (v.Accepts key) :=
  inferInstanceAs (Decidable (_ ∨ _))

/-- A vocabulary after requests. -/
def after (seed : Vocabulary) (requests : List FlowKey) : Vocabulary :=
  ⟨seed.keys ++ (if seed.frozen then [] else (requests.filter (· ∉ seed.keys)).eraseDups),
    seed.frozen⟩

theorem mem_after {seed : Vocabulary} {requests : List FlowKey} :
    key ∈ (seed.after requests).keys ↔ key ∈ seed.keys ∨ (seed.frozen = false ∧ key ∈ requests) := by
  cases hf : seed.frozen with
  | true => simp [after, hf]
  | false =>
    simp only [after, hf, Bool.false_eq_true, if_false, List.mem_append, List.mem_eraseDups,
      List.mem_filter, decide_eq_true_eq, true_and]
    by_cases hk : key ∈ seed.keys <;> simp [hk]

theorem after_concat (seed : Vocabulary) (requests : List FlowKey) (key : FlowKey) :
    ((seed.after requests).resolve key).2 = seed.after (requests ++ [key]) := by
  rw [resolve_keys]
  cases hf : seed.frozen with
  | true => simp [after, hf]
  | false =>
    simp only [mem_after, hf, true_and]
    by_cases hs : key ∈ seed.keys
    · simp [after, hf, hs, List.filter_append]
    · by_cases hr : key ∈ requests
      · simp [after, hf, hs, hr, List.filter_append, List.eraseDups_append, List.removeAll]
      · simp [after, hf, hs, hr, List.filter_append, List.eraseDups_append, List.removeAll,
          List.eraseDups_cons]

theorem nodup_after {seed : Vocabulary} (hn : seed.keys.Nodup) (requests : List FlowKey) :
    (seed.after requests).keys.Nodup := by
  induction requests using List.reverseRecOn with
  | nil => simpa [after] using hn
  | append_singleton requests key ih =>
    rw [← after_concat]
    exact nodup_resolve ih key

theorem Reached.nodup (h : Reached v) : v.keys.Nodup := by
  induction h with
  | seed keys frozen hk =>
    obtain ⟨hn, rfl⟩ := ofKeys_ok.mp hk
    exact hn
  | resolve key _ ih => exact nodup_resolve ih key

end FlowTally.Vocabulary
