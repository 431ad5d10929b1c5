import FlowTally.Text.Content

/-!
# Lines of text

Text on one line, followed by a line feed, is read back as that line. So a file
that is written line by line splits into exactly those lines. Any other text is cut at
its line feeds, and each line loses one carriage return at most (`exists_bodies`).
-/

namespace FlowTally.Content

def OneLine (cs : List Char) : Prop := '\n' ∉ cs ∧ '\r' ∉ cs

instance (cs : List Char) : Decidable (OneLine cs) := inferInstanceAs (Decidable (_ ∧ _))

variable {cs ds : List Char} {c : Char}

theorem oneLine_nil : OneLine [] := by decide

theorem oneLine_append : OneLine (cs ++ ds) ↔ OneLine cs ∧ OneLine ds := by
  grind [OneLine]

theorem oneLine_cons : OneLine (c :: cs) ↔ (c ≠ '\n' ∧ c ≠ '\r') ∧ OneLine cs := by
  grind [OneLine]

theorem lines_cons {rest : Content} (hn : c ≠ '\n')
    (hr : c = '\r' → rest.head? ≠ some (some '\n')) :
    lines (some c :: rest) =
      match lines rest with
      | [] => [[some c]]
      | line :: others => (some c :: line) :: others := by
  rw [lines.eq_def]
  split
  · simp_all
  · simp_all
  · simp_all
  · rename_i h
    obtain ⟨rfl, rfl⟩ := List.cons.inj h
    rfl

theorem lines_oneLine (h : OneLine cs) (rest : Content) :
    lines (ofChars cs ++ some '\n' :: rest) = ofChars cs :: lines rest := by
  induction cs with
  | nil => simp [ofChars, lines]
  | cons c cs ih =>
    obtain ⟨⟨hn, hr⟩, h⟩ := oneLine_cons.mp h
    rw [ofChars, List.map_cons, List.cons_append, lines_cons hn fun h => absurd h hr, ← ofChars,
      ih h]

theorem lines_flatMap {items : List α} (text : α → List Char)
    (h : ∀ item ∈ items, OneLine (text item)) :
    lines (ofChars (items.flatMap fun item => text item ++ ['\n'])) =
      items.map fun item => ofChars (text item) := by
  induction items with
  | nil => rfl
  | cons item items ih =>
    obtain ⟨hitem, hitems⟩ := List.forall_mem_cons.mp h
    rw [List.flatMap_cons, List.append_assoc, ofChars_append]
    exact (lines_oneLine hitem _).trans (congrArg _ (ih hitems))

-- ---------------------------------------------------------------------------
-- Lines of any text
-- ---------------------------------------------------------------------------

theorem chars?_eq_some {line : Content} : line.chars? = some cs ↔ line = ofChars cs := by
  constructor
  · intro h
    induction line generalizing cs with
    | nil =>
      cases h
      rfl
    | cons symbol line ih =>
      cases symbol with
      | none => cases h
      | some c =>
        obtain ⟨rest, hrest, rfl⟩ := Option.map_eq_some_iff.mp h
        rw [ih hrest, ofChars, ofChars, List.map_cons]
  · rintro rfl
    exact chars?_ofChars cs

theorem ofChars_inj (h : ofChars cs = ofChars ds) : cs = ds := by
  have hsome := chars?_eq_some.mpr h
  rw [chars?_ofChars] at hsome
  exact Option.some.inj hsome

/-- The line has this body; a carriage return may belong to the end of the line. -/
def HasBody (line body : List Char) : Prop := line = body ∨ line = body ++ ['\r']

theorem HasBody.cons {line body : List Char} (h : HasBody line body) (c : Char) :
    HasBody (c :: line) (c :: body) :=
  h.imp (congrArg (c :: ·)) (congrArg (c :: ·))

theorem lines_feed (h : '\n' ∉ cs) (rest : Content) :
    ∃ body, HasBody cs body ∧
      lines (ofChars cs ++ some '\n' :: rest) = ofChars body :: lines rest := by
  induction cs with
  | nil => exact ⟨[], .inl rfl, by simp [ofChars, lines]⟩
  | cons c cs ih =>
    obtain ⟨hc, hcs⟩ := List.ne_and_not_mem_of_not_mem_cons h
    cases cs with
    | nil =>
      by_cases hr : c = '\r'
      · subst hr
        exact ⟨[], .inr rfl, by simp [ofChars, lines]⟩
      · exact ⟨[c], .inl rfl, lines_oneLine (oneLine_cons.mpr ⟨⟨hc.symm, hr⟩, oneLine_nil⟩) rest⟩
    | cons d cs =>
      obtain ⟨body, hbody, hlines⟩ := ih hcs
      have hd : d ≠ '\n' := fun h => hcs (h ▸ List.mem_cons_self)
      refine ⟨c :: body, hbody.cons c, ?_⟩
      rw [ofChars, List.map_cons, List.cons_append, lines_cons hc.symm (by simp [hd]), ← ofChars,
        hlines]
      rfl

theorem lines_last (h : '\n' ∉ cs) (hne : cs ≠ []) : lines (ofChars cs) = [ofChars cs] := by
  induction cs with
  | nil => exact absurd rfl hne
  | cons c cs ih =>
    obtain ⟨hc, hcs⟩ := List.ne_and_not_mem_of_not_mem_cons h
    cases cs with
    | nil => rw [ofChars, List.map_cons, lines_cons hc.symm (by simp)]; rfl
    | cons d cs =>
      have hd : d ≠ '\n' := fun h => hcs (h ▸ List.mem_cons_self)
      rw [ofChars, List.map_cons, lines_cons hc.symm (by simp [hd]), ← ofChars,
        ih hcs (List.cons_ne_nil d cs)]

/-- Lines that are cut at every line feed, and their bodies. Nothing behind the last line feed
is no line. -/
inductive Bodies : List (List Char) → List (List Char) → Prop
  | none : Bodies [[]] []
  | last (hne : line ≠ []) : Bodies [line] [line]
  | cons (hline : HasBody line body) (hrest : Bodies rest bodies) :
      Bodies (line :: rest) (body :: bodies)

theorem exists_bodies (cs : List Char) :
    ∃ bodies, lines (ofChars cs) = bodies.map ofChars ∧ Bodies (cs.splitOn '\n') bodies := by
  by_cases hfeed : '\n' ∈ cs
  · obtain ⟨line, rest, hcs, hline⟩ := List.eq_append_cons_of_mem hfeed
    obtain ⟨bodies, hbodies, hrest⟩ := exists_bodies rest
    obtain ⟨body, hbody, hlines⟩ := lines_feed hline (ofChars rest)
    refine ⟨body :: bodies, ?_, ?_⟩
    · rw [hcs, ofChars_append]
      exact hlines.trans (congrArg (_ :: ·) hbodies)
    · rw [hcs, List.splitOn_append_cons_self_of_not_mem hline]
      exact .cons hbody hrest
  · rw [List.splitOn_eq_singleton hfeed]
    cases cs with
    | nil => exact ⟨[], rfl, .none⟩
    | cons c cs =>
      have hne : c :: cs ≠ [] := List.cons_ne_nil c cs
      exact ⟨[c :: cs], lines_last hfeed hne, .last hne⟩
termination_by cs.length
decreasing_by
  rw [hcs, List.length_append, List.length_cons]
  omega

end FlowTally.Content
