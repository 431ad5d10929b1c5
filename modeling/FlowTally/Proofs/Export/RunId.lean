import FlowTally.Export.RunId
import FlowTally.Proofs.Text.Digits

/-!
# Run ids read back

The five groups of a run id have a fixed count of digits each, so the hyphens
stand in their places and the groups together are the digits of the id.
-/

namespace FlowTally.RunId

open Text.Natural (chars digit? fold padded)

variable {n : Nat} {ds : List Nat} {a b c d e : List Char}

theorem group_eq (n digits : Nat) :
    group n digits = chars (padded 16 digits (n % Nat.pow 16 digits)) :=
  Text.Natural.chars_padded (by decide) (by decide) digits (n % Nat.pow 16 digits)

theorem length_group {digits : Nat} (h : 0 < digits) : (group n digits).length = digits := by
  have hlt : n % 16 ^ digits < 16 ^ digits := Nat.mod_lt _ (Nat.pow_pos (by decide))
  rw [group_eq, chars, List.length_map]
  exact Text.Natural.length_padded (by decide) h hlt

theorem foldlM_chars (hds : ∀ d ∈ ds, d < 16) :
    (chars ds).foldlM (fun n c => (digit? 16 c).map (n * 16 + ·)) n = some (fold 16 n ds) := by
  induction ds generalizing n with
  | nil => rfl
  | cons d ds ih =>
    obtain ⟨hd, hds⟩ := List.forall_mem_cons.mp hds
    have hdigit : digit? 16 d.digitChar = some d := Text.Natural.digit?_digitChar (Nat.le_refl _) hd
    simp only [chars, List.map_cons, List.foldlM_cons, hdigit, Option.map_some, Option.bind_eq_bind,
      Option.bind_some]
    exact ih hds

theorem readGroups?_append (ha : a.length = 8) (hb : b.length = 4) (hc : c.length = 4)
    (hd : d.length = 4) (he : e.length = 12) :
    readGroups? (a ++ '-' :: b ++ '-' :: c ++ '-' :: d ++ '-' :: e) =
      readDigits? (a ++ b ++ c ++ d ++ e) := by
  have hdrop (xs : List Char) (k : Nat) (h : xs.length ≤ k) : xs.drop k = [] :=
    List.drop_eq_nil_of_le h
  simp [readGroups?, List.getElem?_append, List.drop_append, hdrop, ha, hb, hc, hd, he]

theorem readDigits?_groups (h : n < 2 ^ 128) :
    readDigits? (group (n / 16 ^ 24) 8 ++ group (n / 16 ^ 20) 4 ++ group (n / 16 ^ 16) 4 ++
      group (n / 16 ^ 12) 4 ++ group n 12) = some ⟨n⟩ := by
  have hgroups : group (n / 16 ^ 24) 8 ++ group (n / 16 ^ 20) 4 ++ group (n / 16 ^ 16) 4 ++
      group (n / 16 ^ 12) 4 ++ group n 12 =
      chars (padded 16 8 (n / 16 ^ 24 % 16 ^ 8) ++ padded 16 4 (n / 16 ^ 20 % 16 ^ 4) ++
        padded 16 4 (n / 16 ^ 16 % 16 ^ 4) ++ padded 16 4 (n / 16 ^ 12 % 16 ^ 4) ++
        padded 16 12 (n % 16 ^ 12)) := by
    simp [group_eq, chars]
  have hlength : (group (n / 16 ^ 24) 8 ++ group (n / 16 ^ 20) 4 ++ group (n / 16 ^ 16) 4 ++
      group (n / 16 ^ 12) 4 ++ group n 12).length = 32 := by
    simp only [List.length_append]
    rw [length_group (by decide), length_group (by decide), length_group (by decide),
      length_group (by decide), length_group (by decide)]
  rw [readDigits?, if_pos hlength, hgroups, foldlM_chars]
  · have hlt (m digits : Nat) :
        m % 16 ^ digits < 16 ^ digits := Nat.mod_lt _ (Nat.pow_pos (by decide))
    simp only [Text.Natural.fold_append]
    rw [Text.Natural.fold_padded_from (by decide) (by decide) (by decide) _ (hlt _ 8),
      Text.Natural.fold_padded_from (by decide) (by decide) (by decide) _ (hlt _ 4),
      Text.Natural.fold_padded_from (by decide) (by decide) (by decide) _ (hlt _ 4),
      Text.Natural.fold_padded_from (by decide) (by decide) (by decide) _ (hlt _ 4),
      Text.Natural.fold_padded_from (by decide) (by decide) (by decide) _ (hlt _ 12)]
    simp only [Option.map_some, Option.some.injEq, RunId.mk.injEq]
    omega
  · intro d hd
    simp only [List.mem_append] at hd
    rcases hd with (((hd | hd) | hd) | hd) | hd <;>
      exact Text.Natural.lt_of_mem_padded (by decide) (by decide) hd

theorem read?_text (id : RunId) (h : id.value < 2 ^ 128) : read? id.text = some id := by
  have hlength (m digits : Nat) (hd : 0 < digits) : (group m digits).length = digits :=
    length_group hd
  have htext :
      id.text.toList = group (id.value / 16 ^ 24) 8 ++ '-' :: group (id.value / 16 ^ 20) 4 ++
      '-' :: group (id.value / 16 ^ 16) 4 ++ '-' :: group (id.value / 16 ^ 12) 4 ++
      '-' :: group id.value 12 := by
    simp [text, Nat.pow]
  have hcount : id.text.toList.length = 36 := by
    rw [htext]
    simp [hlength]
  have hread := readGroups?_append (hlength (id.value / 16 ^ 24) 8 (by decide))
    (hlength (id.value / 16 ^ 20) 4 (by decide)) (hlength (id.value / 16 ^ 16) 4 (by decide))
    (hlength (id.value / 16 ^ 12) 4 (by decide)) (hlength id.value 12 (by decide))
  rw [readDigits?_groups h, ← htext] at hread
  simp [read?, hcount, hread]

end FlowTally.RunId
