/-!
# Sorting in a total order

A list that is sorted by a key has its keys in order, and one that is sorted in
a total order shows which items there are and not in which order they came.
-/

namespace FlowTally

theorem pairwise_mergeSort_key [LE β] [DecidableLE β] [Std.IsLinearPreorder β] (key : α → β)
    (items : List α) :
    (items.mergeSort fun a b => decide (key a ≤ key b)).Pairwise fun a b => key a ≤ key b := by
  refine (List.pairwise_mergeSort (fun a b c hab hbc => ?_) (fun a b => ?_) items).imp
    fun h => of_decide_eq_true h
  · exact decide_eq_true (Std.le_trans (of_decide_eq_true hab) (of_decide_eq_true hbc))
  · simpa using Std.le_total (a := key a) (b := key b)

theorem mergeSort_eq_of_perm {le : α → α → Bool} {items moved : List α}
    (trans : ∀ a b c, le a b = true → le b c = true → le a c = true)
    (total : ∀ a b, (le a b || le b a) = true)
    (antisymm : ∀ a b, le a b = true → le b a = true → a = b) (h : items.Perm moved) :
    items.mergeSort le = moved.mergeSort le := by
  refine List.Perm.eq_of_pairwise (fun a b _ _ => antisymm a b)
    (List.pairwise_mergeSort trans total items) (List.pairwise_mergeSort trans total moved) ?_
  exact (List.mergeSort_perm ..).trans (h.trans (List.mergeSort_perm ..).symm)

end FlowTally
