import FlowTally.Proofs.Vocabulary
import Mathlib.Data.List.AList

/-!
# Runs of requests

A seed is accepted when it lists no key twice, and from there on requests come one after the
other. `requests_served` says what the vocabulary is after any of them and how it answers the
next one: a column that is handed out once leads to its key and back after all later requests.

`ColumnIndex` keeps the columns by key apart from the keys by column, as a vocabulary that
answers without searching does. The two stay inverse to each other and answer like the
vocabulary (`ColumnIndex.Mirrors`).
-/

namespace FlowTally

open Vocabulary (Fault firstRepeated?)

/-- Columns by key beside keys by column. -/
structure ColumnIndex where
  columns : AList fun _ : FlowKey => Nat := ∅
  order : List FlowKey := []
  frozen : Bool := false

namespace ColumnIndex

/-- Gives the keys the next columns; one that had a column already is refused. -/
def enter (s : ColumnIndex) : List FlowKey → Except Fault ColumnIndex
  | [] => .ok s
  | key :: rest =>
    let column := s.order.length
    match s.columns.lookup key with
    | some _ => .error (.duplicate key column)
    | none =>
      enter { s with columns := s.columns.insert key column, order := s.order ++ [key] } rest

def ofKeys (keys : List FlowKey) (frozen : Bool) : Except Fault ColumnIndex :=
  enter { frozen } keys

def resolve (s : ColumnIndex) (key : FlowKey) : Resolution × ColumnIndex :=
  match s.columns.lookup key with
  | some column => (.existing column, s)
  | none =>
    if s.frozen then (.rejected, s)
    else
      let column := s.order.length
      (.created column,
        { s with columns := s.columns.insert key column, order := s.order ++ [key] })

def check (s : ColumnIndex) : Bool :=
  s.columns.entries.length == s.order.length &&
    s.order.zipIdx.all fun (key, column) => s.columns.lookup key == some column

structure Mirrors (s : ColumnIndex) (v : Vocabulary) : Prop where
  order : s.order = v.keys
  frozen : s.frozen = v.frozen
  lookup : ∀ key, s.columns.lookup key = v.column? key
  size : s.columns.entries.length = s.order.length

def serve (s : ColumnIndex) (requests : List FlowKey) : ColumnIndex :=
  requests.foldl (fun s key => (s.resolve key).2) s

end ColumnIndex

namespace Vocabulary

def serve (v : Vocabulary) (requests : List FlowKey) : Vocabulary :=
  requests.foldl (fun v key => (v.resolve key).2) v

variable {v : Vocabulary} {key other : FlowKey} {keys seen requests further : List FlowKey}
  {column : Nat} {frozen : Bool}

-- ---------------------------------------------------------------------------
-- One request
-- ---------------------------------------------------------------------------

/-- A key that is added at the end gets the next column, and no other column changes. -/
theorem column?_concat (h : key ∉ v.keys) (other : FlowKey) :
    column? ⟨v.keys ++ [key], frozen⟩ other =
      if other = key then some v.keys.length else v.column? other := by
  have hsplit : column? ⟨v.keys ++ [key], frozen⟩ other =
      (v.column? other).or (([key].idxOf? other).map (· + v.keys.length)) := List.findIdx?_append
  rw [hsplit]
  split
  · rename_i heq
    subst heq
    simp [column?_eq_none.mpr h, List.idxOf?_cons]
  · rename_i hne
    simp [List.idxOf?_cons, Ne.symm hne]

theorem resolve_answer (v : Vocabulary) (key : FlowKey) :
    ((v.resolve key).1 = .created v.size ↔ v.frozen = false ∧ key ∉ v.keys) ∧
      ((v.resolve key).1 = .rejected ↔ v.frozen = true ∧ key ∉ v.keys) ∧
      ((∃ column, (v.resolve key).1 = .existing column) ↔ key ∈ v.keys) := by
  unfold resolve
  cases hcolumn : v.column? key with
  | some column =>
    have hkey : key ∈ v.keys := by
      by_contra hnot
      simp [column?_eq_none.mpr hnot] at hcolumn
    simp [hkey]
  | none =>
    have hkey : key ∉ v.keys := column?_eq_none.mp hcolumn
    cases hfrozen : v.frozen <;> simp [hkey]

-- ---------------------------------------------------------------------------
-- Runs
-- ---------------------------------------------------------------------------

theorem serve_append (v : Vocabulary) (requests further : List FlowKey) :
    v.serve (requests ++ further) = (v.serve requests).serve further := List.foldl_append

theorem serve_eq_after (v : Vocabulary) (requests : List FlowKey) :
    v.serve requests = v.after requests := by
  induction requests using List.reverseRecOn with
  | nil => simp [serve, after]
  | append_singleton requests key ih => rw [← after_concat, ← ih, serve_append]; rfl

theorem frozen_serve (v : Vocabulary) (requests : List FlowKey) :
    (v.serve requests).frozen = v.frozen := by rw [serve_eq_after, after]

theorem nodup_serve (hn : v.keys.Nodup) (requests : List FlowKey) :
    (v.serve requests).keys.Nodup := by
  rw [serve_eq_after]
  exact nodup_after hn requests

/-- Requests only add keys at the end. -/
theorem prefix_serve (v : Vocabulary) (requests : List FlowKey) :
    v.keys <+: (v.serve requests).keys := by
  rw [serve_eq_after]
  exact List.prefix_append ..

theorem column?_serve (hn : v.keys.Nodup) (h : v.column? key = some column)
    (requests : List FlowKey) :
    (v.serve requests).column? key = some column ∧ (v.serve requests).key? column = some key := by
  have hkey : (v.serve requests).key? column = some key := by
    obtain ⟨hlt, hkey⟩ := List.getElem?_eq_some_iff.mp ((column?_eq_some hn).mp h)
    rw [key?, List.prefix_iff_getElem?.mp (prefix_serve v requests) column hlt, hkey]
  exact ⟨(column?_eq_some (nodup_serve hn requests)).mpr hkey, hkey⟩

/-- A vocabulary after requests to one with these keys, and its answer to the next request. -/
structure Serves (keys : List FlowKey) (frozen : Bool) (requests : List FlowKey) (v : Vocabulary) :
    Prop where
  consistent : v.check = .ok ()
  /-- New keys stand behind the seed in the order of their first request. -/
  order : v.keys = keys ++ if frozen then [] else (requests.filter (· ∉ keys)).eraseDups
  created : ∀ key, (v.resolve key).1 = .created v.size ↔ frozen = false ∧ key ∉ v.keys
  rejected : ∀ key, (v.resolve key).1 = .rejected ↔ frozen = true ∧ key ∉ v.keys
  existing : ∀ key, (∃ column, (v.resolve key).1 = .existing column) ↔ key ∈ v.keys
  stable : ∀ key column, (v.resolve key).1.column? = some column → ∀ further,
    (v.serve (key :: further)).column? key = some column ∧
      (v.serve (key :: further)).key? column = some key

theorem serves (hn : v.keys.Nodup) (requests : List FlowKey) :
    Serves v.keys v.frozen requests (v.serve requests) := by
  have hnodup := nodup_serve hn requests
  have hfrozen := frozen_serve v requests
  refine ⟨check_ok hnodup, by rw [serve_eq_after, after], fun key => ?_, fun key => ?_,
    fun key => ?_, fun key column h further => ?_⟩
  · rw [(resolve_answer _ key).1, hfrozen]
  · rw [(resolve_answer _ key).2.1, hfrozen]
  · exact (resolve_answer _ key).2.2
  · rw [resolve_column hnodup] at h
    exact column?_serve (nodup_resolve hnodup key) h further

end Vocabulary

-- ---------------------------------------------------------------------------
-- Columns by key beside keys by column
-- ---------------------------------------------------------------------------

namespace ColumnIndex

open Vocabulary (column?_concat column?_eq_none)

variable {s : ColumnIndex} {v : Vocabulary} {key : FlowKey} {keys requests : List FlowKey}

theorem mirrors_empty (frozen : Bool) : Mirrors { frozen } { frozen } :=
  ⟨rfl, rfl, fun _ => rfl, rfl⟩

theorem Mirrors.concat (h : s.Mirrors v) (hkey : key ∉ v.keys) :
    Mirrors { s with
        columns := s.columns.insert key s.order.length, order := s.order ++ [key] }
      ⟨v.keys ++ [key], v.frozen⟩ := by
  have habsent : key ∉ s.columns := by
    rw [← AList.lookup_eq_none, h.lookup, column?_eq_none]
    exact hkey
  refine ⟨congrArg (· ++ [key]) h.order, h.frozen, fun other => ?_, ?_⟩
  · rw [column?_concat hkey]
    split
    · rename_i heq
      rw [heq, AList.lookup_insert, h.order]
    · rename_i hne
      rw [AList.lookup_insert_ne hne, h.lookup]
  · rw [AList.entries_insert_of_notMem habsent, List.length_cons, List.length_append, h.size]
    rfl

theorem Mirrors.enter (h : s.Mirrors v) (keys : List FlowKey) :
    match firstRepeated? v.keys keys with
    | some (key, column) => s.enter keys = .error (.duplicate key column)
    | none => ∃ s', s.enter keys = .ok s' ∧ s'.Mirrors ⟨v.keys ++ keys, v.frozen⟩ := by
  induction keys generalizing s v with
  | nil => exact ⟨s, rfl, by simpa using h⟩
  | cons key rest ih =>
    simp only [firstRepeated?, ColumnIndex.enter, h.lookup]
    by_cases hkey : key ∈ v.keys
    · obtain ⟨column, hcolumn⟩ := Option.isSome_iff_exists.mp (List.isSome_idxOf?.mpr hkey)
      have hfound : v.column? key = some column := hcolumn
      simp only [if_pos hkey, hfound, h.order]
    · have hnone : v.column? key = none := column?_eq_none.mpr hkey
      simp only [if_neg hkey, hnone]
      simpa using ih (h.concat hkey)

theorem Mirrors.resolve (h : s.Mirrors v) (key : FlowKey) :
    (s.resolve key).1 = (v.resolve key).1 ∧ (s.resolve key).2.Mirrors (v.resolve key).2 := by
  unfold ColumnIndex.resolve Vocabulary.resolve
  rw [h.lookup]
  cases hcolumn : v.column? key with
  | some column => exact ⟨rfl, h⟩
  | none =>
    by_cases hfrozen : v.frozen = true
    · rw [if_pos (h.frozen.trans hfrozen), if_pos hfrozen]
      exact ⟨rfl, h⟩
    · rw [if_neg (h.frozen ▸ hfrozen), if_neg hfrozen]
      have hsize : s.order.length = v.size := congrArg List.length h.order
      exact ⟨congrArg Resolution.created hsize, h.concat (column?_eq_none.mp hcolumn)⟩

theorem Mirrors.serve (h : s.Mirrors v) (requests : List FlowKey) :
    (s.serve requests).Mirrors (v.serve requests) := by
  induction requests generalizing s v with
  | nil => exact h
  | cons key rest ih => exact ih (h.resolve key).2

theorem Mirrors.check (h : s.Mirrors v) (hn : v.keys.Nodup) : s.check = true := by
  rw [ColumnIndex.check, Bool.and_eq_true, beq_iff_eq, List.all_eq_true]
  refine ⟨h.size, fun ⟨key, column⟩ hm => ?_⟩
  have hkey : v.key? column = some key := by
    rw [Vocabulary.key?, ← h.order]
    exact List.mem_zipIdx_iff_getElem?.mp hm
  simpa [h.lookup] using (Vocabulary.column?_eq_some hn).mpr hkey

theorem ofKeys_mirrors (keys : List FlowKey) (frozen : Bool) :
    (∀ fault, ofKeys keys frozen = .error fault ↔ Vocabulary.ofKeys keys frozen = .error fault) ∧
      ∀ v, Vocabulary.ofKeys keys frozen = .ok v →
        ∃ s, ofKeys keys frozen = .ok s ∧ s.Mirrors v := by
  have henter := (mirrors_empty frozen).enter keys
  unfold ofKeys Vocabulary.ofKeys
  cases hrepeated : firstRepeated? [] keys with
  | some repeated =>
    simp only [hrepeated] at henter
    simp [henter, eq_comm]
  | none =>
    simp only [hrepeated] at henter
    obtain ⟨s, hs, hmirrors⟩ := henter
    simpa [hs] using hmirrors

end ColumnIndex

-- ---------------------------------------------------------------------------
-- Requests to a seeded vocabulary
-- ---------------------------------------------------------------------------

namespace Vocabulary

/-- A seed is accepted if it lists no key twice; a new vocabulary has none. Requests to an accepted
one are answered by whether the key is there, columns that were handed out stay, and an index that
keeps both directions apart stays consistent and gives the same answers. -/
theorem requests_served (keys : List FlowKey) (frozen : Bool) :
    ((∃ v, ofKeys keys frozen = .ok v) ↔ keys.Nodup) ∧
      ofKeys [] false = .ok {} ∧
      (∀ fault, ColumnIndex.ofKeys keys frozen = .error fault ↔
        ofKeys keys frozen = .error fault) ∧
      ∀ v, ofKeys keys frozen = .ok v →
        (∀ requests, Serves keys frozen requests (v.serve requests)) ∧
          ∃ index, ColumnIndex.ofKeys keys frozen = .ok index ∧ ∀ requests,
            (index.serve requests).check = true ∧
              (index.serve requests).Mirrors (v.serve requests) ∧
              ∀ key, ((index.serve requests).resolve key).1 =
                ((v.serve requests).resolve key).1 := by
  obtain ⟨hrefused, haccepted⟩ := ColumnIndex.ofKeys_mirrors keys frozen
  refine ⟨by simp [ofKeys_ok], rfl, hrefused, fun v hv => ?_⟩
  obtain ⟨index, hindex, hmirrors⟩ := haccepted v hv
  obtain ⟨hn, rfl⟩ := ofKeys_ok.mp hv
  refine ⟨serves (v := ⟨keys, frozen⟩) hn, index, hindex, fun requests => ?_⟩
  have hserved := hmirrors.serve requests
  exact ⟨hserved.check (nodup_serve hn requests), hserved, fun key => (hserved.resolve key).1⟩

def blankKeys : List FlowKey :=
  [⟨["A"], ["FLOWS_TO"], []⟩, ⟨["A "], ["FLOWS_TO"], []⟩, ⟨["A"], ["FLOWS_TO"], [""]⟩]

theorem requests_served_blankKeys :
    ofKeys (blankKeys.take 2) false = .ok ⟨blankKeys.take 2, false⟩ ∧
      Serves (blankKeys.take 2) false blankKeys.reverse ⟨blankKeys, false⟩ ∧
      ofKeys (blankKeys.take 2) true = .ok ⟨blankKeys.take 2, true⟩ ∧
      Serves (blankKeys.take 2) true blankKeys.reverse ⟨blankKeys.take 2, true⟩ := by
  have hgrowing : ofKeys (blankKeys.take 2) false = .ok ⟨blankKeys.take 2, false⟩ := by decide
  have hfrozen : ofKeys (blankKeys.take 2) true = .ok ⟨blankKeys.take 2, true⟩ := by decide
  exact ⟨hgrowing, ((requests_served _ _).2.2.2 _ hgrowing).1 blankKeys.reverse, hfrozen,
    ((requests_served _ _).2.2.2 _ hfrozen).1 blankKeys.reverse⟩

end Vocabulary

end FlowTally
