import FlowTally.Files

/-!
# Places of paths

A walk passes directories only, and all places above a passed place are passed
as well. So where a path leads depends on directories alone whose places above
are directories, the *solid* places: a tree that keeps the solid places of
another leads every path to the same place (`place_keeps`). A name put behind
the path of a solid directory leads one step further (`Placed.place_join`).
-/

namespace FlowTally.FileTree

variable {t t' t'' : FileTree} {p q at' : Place} {entry : Entry} {ns : List String}
  {directory path name : String}

-- ---------------------------------------------------------------------------
-- Entries
-- ---------------------------------------------------------------------------

@[simp] theorem entry?_root (t : FileTree) : t.entry? [] = some .directory := by
  unfold entry?
  rw [if_pos rfl]

theorem entry?_set_self (hp : p ≠ []) : FileTree.entry? (t.set p entry) p = some entry := by
  unfold entry? set
  simp [hp]

theorem entry?_set_of_ne (h : q ≠ p) : FileTree.entry? (t.set p entry) q = t.entry? q := by
  unfold entry?
  split
  · rfl
  · rw [set, List.find?_cons_of_neg (by simpa using Ne.symm h), List.find?_filter]
    congr 2
    funext other
    by_cases ho : other.1 = q
    · simp [ho, h]
    · simp [ho]

theorem entry?_erase_of_not_above (h : ¬ p <+: q) : FileTree.entry? (t.erase p) q = t.entry? q := by
  have hp : p.isPrefixOf q = false := Bool.eq_false_iff.mpr (by simpa using h)
  unfold entry?
  split
  · rfl
  · rw [erase, List.find?_filter]
    congr 2
    funext other
    by_cases ho : other.1 = q
    · simp [ho, hp]
    · simp [ho]

theorem entry?_erase_of_above (hq : q ≠ []) (h : p <+: q) :
    FileTree.entry? (t.erase p) q = none := by
  unfold entry?
  rw [if_neg hq, Option.map_eq_none_iff, List.find?_eq_none]
  intro other ho heq
  obtain rfl : other.1 = q := by simpa using heq
  have hkept : (!p.isPrefixOf other.1) = true := (List.mem_filter.mp ho).2
  rw [List.isPrefixOf_iff_prefix.mpr h] at hkept
  cases hkept

theorem entry?_erase_eq_none (h : t.entry? q = none) : FileTree.entry? (t.erase p) q = none := by
  by_cases hp : p <+: q
  · refine entry?_erase_of_above ?_ hp
    rintro rfl
    simp at h
  · rw [entry?_erase_of_not_above hp, h]

-- ---------------------------------------------------------------------------
-- Solid places
-- ---------------------------------------------------------------------------

/-- The place and all places above it are directories. -/
def Solid (t : FileTree) (p : Place) : Prop := ∀ q, q <+: p → t.entry? q = some .directory

/-- Solid places stay solid. -/
def Keeps (t t' : FileTree) : Prop := ∀ p, t.Solid p → t'.Solid p

theorem solid_root (t : FileTree) : t.Solid [] := by
  intro q hq
  rw [List.prefix_nil.mp hq, entry?_root]

theorem Solid.entry_eq (h : t.Solid p) : t.entry? p = some .directory := h p (List.prefix_refl p)

theorem Solid.prefix (h : t.Solid p) (hq : q <+: p) : t.Solid q := fun r hr => h r (hr.trans hq)

theorem Solid.not_above (h : t.Solid p) (hq : t.entry? q = none) : ¬ q <+: p := by
  intro hp
  rw [h q hp] at hq
  cases hq

theorem Solid.dropLast (h : t.Solid p) : t.Solid p.dropLast := h.prefix (List.dropLast_prefix p)

theorem solid_of_dropLast (h : t.Solid p.dropLast) (hp : t.entry? p = some .directory) :
    t.Solid p := by
  intro q hq
  by_cases hnil : p = []
  · subst hnil
    rw [List.prefix_nil.mp hq, hp]
  · rw [← List.dropLast_concat_getLast hnil] at hq
    rcases List.prefix_concat_iff.mp hq with rfl | hq
    · rwa [List.dropLast_concat_getLast]
    · exact h q hq

theorem Keeps.refl (t : FileTree) : t.Keeps t := fun _ h => h

theorem Keeps.trans (h : t.Keeps t') (h' : t'.Keeps t'') : t.Keeps t'' := fun p hp => h' p (h p hp)

def Grows (t t' : FileTree) : Prop := ∀ p e, t.entry? p = some e → t'.entry? p = some e

theorem Grows.keeps (h : t.Grows t') : t.Keeps t' := fun _ hp q hq => h q _ (hp q hq)

theorem grows_erase (t : FileTree) (p : Place) : Grows (t.erase p) t := by
  intro q e he
  by_cases hq : q = []
  · rw [hq, entry?_root] at he ⊢
    exact he
  · by_cases hp : p <+: q
    · rw [entry?_erase_of_above hq hp] at he
      cases he
    · rwa [entry?_erase_of_not_above hp] at he

theorem keeps_set (h : t.entry? p ≠ some .directory) : t.Keeps (t.set p entry) := by
  intro q hq r hr
  rw [entry?_set_of_ne]
  · exact hq r hr
  · rintro rfl
    exact h (hq r hr)

/-- Nothing solid lies below a place that was no directory. -/
theorem Keeps.erase (hk : t.Keeps t') (h : t.entry? p ≠ some .directory) :
    t.Keeps (t'.erase p) := by
  intro q hq r hr
  rw [entry?_erase_of_not_above]
  · exact hk q hq r hr
  · intro hpr
    exact h (hq p (hpr.trans hr))

-- ---------------------------------------------------------------------------
-- Walks
-- ---------------------------------------------------------------------------

theorem walk_append (t : FileTree) (at' : Place) (ns ms : List String) :
    t.walk at' (ns ++ ms) = (t.walk at' ns).bind fun p => t.walk p ms := by
  induction ns generalizing at' with
  | nil => rfl
  | cons n ns ih =>
    rw [List.cons_append, walk, walk]
    split
    · rfl
    · split
      · exact ih _
      · split
        · exact ih _
        · exact ih _
    · rfl

def next (at' : Place) (name : String) : Place :=
  if name = "." then at' else if name = ".." then at'.dropLast else at' ++ [name]

theorem walk_next (hd : t.entry? at' = some .directory) :
    t.walk at' (name :: ns) = t.walk (next at' name) ns := by
  rw [walk, hd, next]
  simp only
  split
  · rfl
  · split
    · rfl
    · rfl

theorem walk_cons (h : t.walk at' (name :: ns) = .ok p) :
    t.entry? at' = some .directory ∧ t.walk (next at' name) ns = .ok p := by
  have hd : t.entry? at' = some .directory := by
    rw [walk] at h
    split at h
    · cases h
    · assumption
    · cases h
  exact ⟨hd, (walk_next hd).symm.trans h⟩

theorem solid_next (h : t.Solid at') : t.Solid (next at' name).dropLast := by
  unfold next
  split
  · exact h.dropLast
  · split
    · exact h.dropLast.dropLast
    · rwa [List.dropLast_concat]

theorem solid_walk (h : t.walk at' ns = .ok p) (hs : t.Solid at'.dropLast) :
    t.Solid p.dropLast := by
  induction ns generalizing at' with
  | nil =>
    cases h
    exact hs
  | cons n ns ih =>
    obtain ⟨hd, h⟩ := walk_cons h
    exact ih h (solid_next (solid_of_dropLast hs hd))

theorem walk_keeps (hk : t.Keeps t') (h : t.walk at' ns = .ok p) (hs : t.Solid at'.dropLast) :
    t'.walk at' ns = .ok p := by
  induction ns generalizing at' with
  | nil => exact h
  | cons n ns ih =>
    obtain ⟨hd, h⟩ := walk_cons h
    have hsolid := solid_of_dropLast hs hd
    rw [walk_next (hk _ hsolid).entry_eq]
    exact ih h (solid_next hsolid)

theorem place_eq_ok (h : t.place path = .ok p) : path ≠ "" ∧ t.walk [] (names path) = .ok p := by
  unfold place at h
  split at h
  · cases h
  · rename_i hne
    exact ⟨hne, h⟩

theorem place_keeps (hk : t.Keeps t') (h : t.place path = .ok p) : t'.place path = .ok p := by
  obtain ⟨hne, hw⟩ := place_eq_ok h
  rw [place, if_neg hne, walk_keeps hk hw (solid_root t)]

theorem solid_place (h : t.place path = .ok p) : t.Solid p.dropLast :=
  solid_walk (place_eq_ok h).2 (solid_root t)

end FlowTally.FileTree
