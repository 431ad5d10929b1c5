import FlowTally.Text.Blank

/-!
# Words and blanks

What `trim` and `words` make of text whose blanks are known: nothing is dropped
at an end without a blank, and a word ends at the first blank behind it. How many
blanks there are, and which, `words` does not see (`words_of_spaced`).
-/

namespace FlowTally.Text

def Solid (cs : List Char) : Prop := ∀ c ∈ cs, isBlank c = false

def AllBlank (cs : List Char) : Prop := ∀ c ∈ cs, isBlank c = true

instance (cs : List Char) : Decidable (AllBlank cs) :=
  inferInstanceAs (Decidable (∀ c ∈ cs, isBlank c = true))

/-- The text has these words, with any blanks around them and at least one between two. -/
inductive Spaced : List (List Char) → List Char → Prop
  | nil (hgap : AllBlank gap) : Spaced [] gap
  | cons (hbefore : AllBlank before) (hsolid : Solid w) (hne : w ≠ [])
      (hgap : ∀ c ∈ rest.head?, isBlank c = true) (hrest : Spaced ws rest) :
      Spaced (w :: ws) (before ++ w ++ rest)

variable {cs w rest : List Char} {b c d : Char}

theorem isBlank_of_between (hlow : 0x20 < c.toNat) (hhigh : c.toNat < 0x80) : isBlank c = false := by
  simp only [isBlank, Bool.or_eq_false_iff, Bool.and_eq_false_iff, decide_eq_false_iff_not,
    beq_eq_false_iff_ne]
  omega

theorem isBlank_of_isDigit (h : c.isDigit = true) : isBlank c = false := by
  simp only [Char.isDigit, Bool.and_eq_true, decide_eq_true_eq] at h
  have hlow : 48 ≤ c.toNat := h.1
  have hhigh : c.toNat ≤ 57 := h.2
  exact isBlank_of_between (by omega) (by omega)

theorem dropWhile_isBlank (h : ∀ c ∈ cs.head?, isBlank c = false) : cs.dropWhile isBlank = cs := by
  cases cs with
  | nil => rfl
  | cons c cs => simp [h c rfl]

theorem trim_eq_self (hhead : ∀ c ∈ cs.head?, isBlank c = false)
    (hlast : ∀ c ∈ cs.getLast?, isBlank c = false) : trim cs = cs := by
  have hreverse : cs.reverse.dropWhile isBlank = cs.reverse :=
    dropWhile_isBlank (by simpa using hlast)
  rw [trim, dropWhile_isBlank hhead, hreverse, List.reverse_reverse]

theorem words_nil : words [] = [] := rfl

-- Each step of `words` is opened once, here; its other equations are slow to derive.
theorem words_cons_blank (hb : isBlank b = true) : words (b :: cs) = words cs := by
  rw [words.eq_def]
  exact if_pos hb

theorem words_single (hc : isBlank c = false) : words [c] = [[c]] := by
  rw [words.eq_def]
  exact if_neg (by simp [hc])

theorem words_last (hc : isBlank c = false) (hb : isBlank b = true) :
    words (c :: b :: cs) = [c] :: words cs := by
  rw [words.eq_def]
  simp only
  rw [if_neg (by simp [hc]), if_pos hb, words_cons_blank hb]

theorem words_cons_cons (hc : isBlank c = false) (hd : isBlank d = false) :
    words (c :: d :: cs) =
      match words (d :: cs) with
      | [] => [[c]]
      | w :: ws => (c :: w) :: ws := by
  rw [words.eq_def]
  simp only
  rw [if_neg (by simp [hc])]
  exact if_neg (by simp [hd])

theorem words_solid (h : Solid w) (hne : w ≠ []) : words w = [w] := by
  induction w with
  | nil => exact absurd rfl hne
  | cons c w ih =>
    obtain ⟨hc, hw⟩ := List.forall_mem_cons.mp h
    cases w with
    | nil => exact words_single hc
    | cons d w =>
      have hd : isBlank d = false := hw d (List.mem_cons_self ..)
      rw [words_cons_cons hc hd, ih hw (by simp)]

theorem words_append (h : Solid w) (hne : w ≠ []) (hb : isBlank b = true) :
    words (w ++ b :: rest) = w :: words rest := by
  induction w with
  | nil => exact absurd rfl hne
  | cons c w ih =>
    obtain ⟨hc, hw⟩ := List.forall_mem_cons.mp h
    cases w with
    | nil => exact words_last hc hb
    | cons d w =>
      have hd : isBlank d = false := hw d (List.mem_cons_self ..)
      have htail := ih hw (by simp)
      rw [List.cons_append] at htail
      rw [List.cons_append, List.cons_append, words_cons_cons hc hd, htail]

theorem words_intercalate {ws : List (List Char)} (hb : isBlank b = true)
    (h : ∀ w ∈ ws, Solid w ∧ w ≠ []) : words ([b].intercalate ws) = ws := by
  induction ws with
  | nil => rfl
  | cons w ws ih =>
    obtain ⟨⟨hw, hne⟩, hws⟩ := List.forall_mem_cons.mp h
    cases ws with
    | nil => simpa using words_solid hw hne
    | cons v ws =>
      rw [List.intercalate_cons_cons, List.append_assoc, List.singleton_append,
        words_append hw hne hb, ih hws]

-- ---------------------------------------------------------------------------
-- Blanks that words do not see
-- ---------------------------------------------------------------------------

theorem words_append_of_allBlank (h : AllBlank cs) : words (cs ++ rest) = words rest := by
  induction cs with
  | nil => rfl
  | cons b cs ih =>
    obtain ⟨hb, hcs⟩ := List.forall_mem_cons.mp h
    rw [List.cons_append, words_cons_blank hb, ih hcs]

theorem words_concat_blank (hb : isBlank b = true) (cs : List Char) :
    words (cs ++ [b]) = words cs := by
  induction cs with
  | nil => exact words_cons_blank hb
  | cons c cs ih =>
    by_cases hc : isBlank c = true
    · rw [List.cons_append, words_cons_blank hc, words_cons_blank hc, ih]
    · have hsolid : isBlank c = false := Bool.eq_false_iff.mpr hc
      cases cs with
      | nil => exact (words_last hsolid hb).trans (words_single hsolid).symm
      | cons d cs =>
        by_cases hd : isBlank d = true
        · rw [List.cons_append, words_cons_blank hd, words_cons_blank hd] at ih
          rw [List.cons_append, List.cons_append, words_last hsolid hd, words_last hsolid hd, ih]
        · have hdsolid : isBlank d = false := Bool.eq_false_iff.mpr hd
          rw [List.cons_append] at ih
          rw [List.cons_append, List.cons_append, words_cons_cons hsolid hdsolid,
            words_cons_cons hsolid hdsolid, ih]

theorem words_append_allBlank (h : AllBlank rest) (cs : List Char) :
    words (cs ++ rest) = words cs := by
  induction rest generalizing cs with
  | nil => rw [List.append_nil]
  | cons b rest ih =>
    obtain ⟨hb, hrest⟩ := List.forall_mem_cons.mp h
    rw [List.append_cons, ih hrest, words_concat_blank hb]

theorem words_of_spaced {ws : List (List Char)} (h : Spaced ws cs) : words cs = ws := by
  induction h with
  | @nil gap hgap => rw [← List.append_nil gap, words_append_of_allBlank hgap, words_nil]
  | @cons before w ws rest hbefore hsolid hne hgap _ ih =>
    rw [List.append_assoc, words_append_of_allBlank hbefore]
    cases rest with
    | nil =>
      rw [List.append_nil, words_solid hsolid hne, ← ih, words_nil]
    | cons b rest =>
      have hb : isBlank b = true := hgap b rfl
      rw [words_append hsolid hne hb, ← ih, words_cons_blank hb]

theorem exists_words_cons (hc : isBlank c = false) (cs : List Char) :
    ∃ w ws, words (c :: cs) = (c :: w) :: ws := by
  cases cs with
  | nil => exact ⟨[], [], words_single hc⟩
  | cons d cs =>
    by_cases hd : isBlank d = true
    · exact ⟨[], words cs, words_last hc hd⟩
    · rw [words_cons_cons hc (Bool.eq_false_iff.mpr hd)]
      split
      · exact ⟨[], [], rfl⟩
      · exact ⟨_, _, rfl⟩

-- ---------------------------------------------------------------------------
-- Both ends
-- ---------------------------------------------------------------------------

theorem allBlank_takeWhile (cs : List Char) : AllBlank (cs.takeWhile isBlank) :=
  List.all_eq_true.mp List.all_takeWhile

theorem exists_dropWhile_eq_trim (cs : List Char) :
    ∃ after, AllBlank after ∧ cs.dropWhile isBlank = trim cs ++ after := by
  refine ⟨((cs.dropWhile isBlank).reverse.takeWhile isBlank).reverse, fun c hc => ?_, ?_⟩
  · exact allBlank_takeWhile _ c (List.mem_reverse.mp hc)
  · rw [trim, ← List.reverse_append, List.takeWhile_append_dropWhile, List.reverse_reverse]

theorem words_trim (cs : List Char) : words (trim cs) = words cs := by
  obtain ⟨after, hafter, hdrop⟩ := exists_dropWhile_eq_trim cs
  calc
    words (trim cs) = words (trim cs ++ after) := (words_append_allBlank hafter _).symm
    _ = words (cs.takeWhile isBlank ++ cs.dropWhile isBlank) := by
      rw [words_append_of_allBlank (allBlank_takeWhile cs), hdrop]
    _ = words cs := by rw [List.takeWhile_append_dropWhile]

theorem isBlank_head?_trim (hc : c ∈ (trim cs).head?) : isBlank c = false := by
  obtain ⟨after, -, hdrop⟩ := exists_dropWhile_eq_trim cs
  have hhead : (cs.dropWhile isBlank).head? = some c := by
    rw [hdrop, List.head?_append, Option.mem_def.mp hc]
    rfl
  have hstop := List.head?_dropWhile_not isBlank cs
  rw [hhead] at hstop
  simpa using hstop

theorem trim_concat_blank (hb : isBlank b = true) (cs : List Char) :
    trim (cs ++ [b]) = trim cs := by
  unfold trim
  rw [List.dropWhile_append]
  split
  · rename_i hempty
    rw [List.isEmpty_iff.mp hempty]
    simp [hb]
  · simp [hb]

end FlowTally.Text
