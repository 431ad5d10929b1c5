import FlowTally.Proofs.Yaml.Plain

/-!
# Quoted scalars read back

Between quotes a blank is kept until the next character shows that no line
ended, so a fact about a reader in the middle of a text has the blanks in
front of it. Two single quotes stand for one, and every escape the printer
writes is read as the character it stands for.
-/

namespace FlowTally.Yaml

open Text.Natural (chars chars_padded digit? fold fold_padded length_padded lt_of_mem_padded padded)

variable {cs rest : List Char} {c : Char} {m : Mark}

-- ---------------------------------------------------------------------------
-- Quoted scalars
-- ---------------------------------------------------------------------------

def singleQuotedChar (c : Char) : List Char := if c = '\'' then ['\'', '\''] else [c]

theorem singleQuotedBody_inline (h : ∀ c ∈ cs, isBreak c = false) :
    singleQuotedBody false cs = cs.flatMap singleQuotedChar := by
  induction cs with
  | nil => rfl
  | cons c cs ih =>
    rw [singleQuotedBody, h c (.head _), ih fun d hd => h d (.tail _ hd)]
    simp [singleQuotedChar]

theorem not_atDocumentMark (hm : 0 < m.column) : atDocumentMark m cs = false := by
  simp [atDocumentMark, Nat.pos_iff_ne_zero.mp hm]

theorem singleQuoted_close (blanks : List Char) (hm : 0 < m.column)
    (hrest : rest.head? ≠ some '\'') :
    singleQuoted (.blanks blanks) m ('\'' :: rest) = .ok ⟨blanks, m.skip 1, rest, false⟩ := by
  rw [singleQuoted, not_atDocumentMark hm]
  · rfl
  · rintro cs - rfl
    exact hrest rfl

theorem singleQuoted_blank {blanks : List Char} (hblank : isBlank c = true)
    (hbreak : isBreak c = false) :
    singleQuoted (.blanks blanks) m (c :: cs) =
      singleQuoted (.blanks (blanks ++ [c])) (m.skip 1) cs := by
  have hquote : c ≠ '\'' := by
    rintro rfl
    exact absurd hblank (by decide)
  rw [singleQuoted]
  · simp [hblank, Gap.add, Mark.after, hbreak, Mark.skip]
  · rintro _ rfl
    exact absurd rfl hquote

theorem singleQuoted_char {blanks : List Char} (hblank : isBlank c = false)
    (hbreak : isBreak c = false) (hquote : c ≠ '\'') (hm : 0 < m.column) :
    singleQuoted (.blanks blanks) m (c :: cs) =
      (singleQuoted .none (m.skip 1) cs).map (·.prepend (blanks ++ [c])) := by
  rw [singleQuoted]
  · simp [hblank, hbreak, not_atDocumentMark hm, hquote, Gap.text]
  · rintro _ rfl
    exact absurd rfl hquote

theorem singleQuoted_body (blanks : List Char) (hbreak : ∀ c ∈ cs, isBreak c = false)
    (hm : 0 < m.column) (hrest : rest.head? ≠ some '\'') :
    ∃ column, singleQuoted (.blanks blanks) m (cs.flatMap singleQuotedChar ++ '\'' :: rest) =
      .ok ⟨blanks ++ cs, ⟨m.line, column⟩, rest, false⟩ := by
  induction cs generalizing blanks m with
  | nil =>
    refine ⟨m.column + 1, ?_⟩
    rw [List.flatMap_nil, List.nil_append, singleQuoted_close blanks hm hrest, List.append_nil]
    rfl
  | cons c cs ih =>
    have hbreak' : ∀ d ∈ cs, isBreak d = false := fun d hd => hbreak d (.tail _ hd)
    by_cases hquote : c = '\''
    · subst hquote
      -- A quote is written twice, and the reader passes both.
      obtain ⟨column, hread⟩ := ih (m := m.skip 2) [] hbreak' (Nat.succ_pos _)
      refine ⟨column, ?_⟩
      have hnext :
          singleQuoted .none (m.skip 2) (cs.flatMap singleQuotedChar ++ '\'' :: rest) = _ :=
        hread
      rw [List.flatMap_cons, singleQuotedChar, if_pos rfl, List.cons_append, List.cons_append,
        List.cons_append, List.cons_append, singleQuoted, List.nil_append, hnext]
      simp [Except.map, Scanned.prepend, Gap.text, Mark.skip]
    · rw [List.flatMap_cons, singleQuotedChar, if_neg hquote, List.append_assoc,
        List.singleton_append]
      cases hblank : isBlank c with
      | true =>
        obtain ⟨column, hread⟩ := ih (m := m.skip 1) (blanks ++ [c]) hbreak' (Nat.succ_pos _)
        refine ⟨column, ?_⟩
        rw [singleQuoted_blank hblank (hbreak c (.head _)), hread, List.append_assoc]
        rfl
      | false =>
        obtain ⟨column, hread⟩ := ih (m := m.skip 1) [] hbreak' (Nat.succ_pos _)
        refine ⟨column, ?_⟩
        have hnext :
            singleQuoted .none (m.skip 1) (cs.flatMap singleQuotedChar ++ '\'' :: rest) = _ :=
          hread
        rw [singleQuoted_char hblank (hbreak c (.head _)) hquote hm, hnext]
        simp [Except.map, Scanned.prepend, Mark.skip]

theorem singleQuoted_text (hbreak : ∀ c ∈ cs, isBreak c = false) (hm : 0 < m.column)
    (hrest : rest.head? ≠ some '\'') :
    ∃ column, singleQuoted .none m (singleQuotedBody false cs ++ '\'' :: rest) =
      .ok ⟨cs, ⟨m.line, column⟩, rest, false⟩ := by
  rw [singleQuotedBody_inline hbreak]
  exact singleQuoted_body [] hbreak hm hrest

-- ---------------------------------------------------------------------------
-- Escapes
-- ---------------------------------------------------------------------------

theorem shortEscape?_escapeLetter {letter : Char} (h : escapeLetter? c = some letter) :
    shortEscape? letter = some c ∧ isBreak letter = false := by
  unfold escapeLetter? at h
  split at h <;> cases h <;> decide

theorem ne_of_escapeLetter {d : Char} (h : escapeLetter? c = none) (hd : escapeLetter? d ≠ none) :
    c ≠ d := by
  rintro rfl
  exact hd h

def upperChars (ds : List Nat) : List Char := ds.map fun d => d.digitChar.toUpper

theorem hexUpper_eq (width n : Nat) : hexUpper width n = upperChars (padded 16 width n) := by
  have hpadded := congrArg (List.map Char.toUpper)
    (chars_padded (by decide : 1 < 16) (by decide) width n)
  have hzero : Char.toUpper '0' = '0' := by decide
  rw [List.map_append, List.map_replicate, hzero] at hpadded
  rw [hexUpper, List.length_map, hpadded]
  simp [upperChars, chars, Function.comp_def]

theorem digit?_upper {d : Nat} (h : d < 16) : digit? 16 d.digitChar.toUpper = some d := by
  interval_cases d <;> decide

theorem foldlM_upperChars {ds : List Nat} (n : Nat) (h : ∀ d ∈ ds, d < 16) :
    (upperChars ds).foldlM (fun n c => (digit? 16 c).map (n * 16 + ·)) n = some (fold 16 n ds) := by
  induction ds generalizing n with
  | nil => rfl
  | cons d ds ih =>
    have hd := digit?_upper (h d (.head _))
    have hnext := ih (n * 16 + d) fun e he => h e (.tail _ he)
    simp only [upperChars, List.map_cons, List.foldlM_cons, hd, Option.map_some]
    exact hnext

theorem hexValue?_hexUpper {width n : Nat} (hwidth : 0 < width) (hn : n < 16 ^ width)
    (rest : List Char) :
    hexValue? width (hexUpper width n ++ rest) = some n ∧
      (hexUpper width n ++ rest).drop width = rest := by
  have hlength : (hexUpper width n).length = width := by
    rw [hexUpper_eq, upperChars, List.length_map, length_padded (by decide) hwidth hn]
  refine ⟨?_, List.drop_left' hlength⟩
  have hfold := foldlM_upperChars 0 fun d (hd : d ∈ padded 16 width n) =>
    lt_of_mem_padded (by decide) (by decide) hd
  rw [fold_padded (by decide) (by decide)] at hfold
  rw [hexValue?, List.take_left' hlength, hlength, if_neg (Nat.lt_irrefl width), hexUpper_eq]
  exact hfold

theorem codePoint?_toNat (c : Char) : codePoint? c.toNat = some c := by
  have hvalid : c.toNat.isValidChar := c.valid
  rw [codePoint?, if_pos hvalid, Char.ofNat_toNat]

theorem doubleQuoted_escape {gap : Gap} {d : Char} (hbreak : isBreak d = false)
    (hm : 0 < m.column) :
    doubleQuoted gap m ('\\' :: d :: rest) =
      match shortEscape? d, escapeWidth? d with
      | some e, _ => (doubleQuoted .none (m.skip 2) rest).map (·.prepend (gap.text ++ [e]))
      | none, some width =>
        match (hexValue? width rest).bind codePoint? with
        | some e =>
          (doubleQuoted .none (m.skip (2 + width)) (rest.drop width)).map
            (·.prepend (gap.text ++ [e]))
        | none => .error .escape
      | none, none => .error .escape := by
  have hplain : (isBlank '\\' || isBreak '\\') = false := by decide
  rw [doubleQuoted, not_atDocumentMark hm]
  simp only [hplain, hbreak]
  rfl

theorem doubleQuoted_long {blanks : List Char} {letter : Char} {width : Nat}
    (hletter : shortEscape? letter = none) (hwidth : escapeWidth? letter = some width)
    (hbreak : isBreak letter = false) (hpos : 0 < width) (hc : c.toNat < 16 ^ width)
    (hm : 0 < m.column) (rest : List Char) :
    doubleQuoted (.blanks blanks) m ('\\' :: letter :: (hexUpper width c.toNat ++ rest)) =
      (doubleQuoted .none (m.skip (2 + width)) rest).map (·.prepend (blanks ++ [c])) := by
  obtain ⟨hvalue, hdrop⟩ := hexValue?_hexUpper hpos hc rest
  rw [doubleQuoted_escape hbreak hm]
  simp only [hletter, hwidth, hvalue, hdrop, Option.bind_some, codePoint?_toNat, Gap.text]

theorem doubleQuoted_char (blanks : List Char) (hspace : c ≠ ' ') (hm : 0 < m.column)
    (rest : List Char) :
    ∃ column, 0 < column ∧ doubleQuoted (.blanks blanks) m (doubleQuotedChar c ++ rest) =
      (doubleQuoted .none ⟨m.line, column⟩ rest).map (·.prepend (blanks ++ [c])) := by
  unfold doubleQuotedChar
  split
  · rename_i letter hletter
    obtain ⟨hescape, hbreak⟩ := shortEscape?_escapeLetter hletter
    refine ⟨m.column + 2, Nat.succ_pos _, ?_⟩
    rw [List.cons_append, List.singleton_append, doubleQuoted_escape hbreak hm]
    simp only [hescape, Gap.text]
    rfl
  · rename_i hletter
    dsimp only
    split_ifs with hprintable hshort hmiddle
    · refine ⟨m.column + 1, Nat.succ_pos _, ?_⟩
      have hbreak : isBreak c = false := by
        simp [isBreak, ne_of_escapeLetter hletter (by decide : escapeLetter? '\n' ≠ none),
          ne_of_escapeLetter hletter (by decide : escapeLetter? '\u2028' ≠ none),
          ne_of_escapeLetter hletter (by decide : escapeLetter? '\u2029' ≠ none)]
      have hquote : c ≠ '"' := ne_of_escapeLetter hletter (by decide)
      have hslash : c ≠ '\\' := ne_of_escapeLetter hletter (by decide)
      rw [List.singleton_append, doubleQuoted.eq_def]
      simp only [not_blank_of_printable hprintable hspace, hbreak]
      simp only [Bool.or_self, Bool.false_eq_true, if_false, not_atDocumentMark hm, if_neg hquote,
        if_neg hslash]
      rfl
    -- The three lengths of a number in an escape; the longest holds every code point.
    · exact ⟨m.column + 4, Nat.succ_pos _, doubleQuoted_long (by decide) (by decide) (by decide)
        (by decide) (Nat.lt_of_le_of_lt hshort (by decide)) hm rest⟩
    · exact ⟨m.column + 6, Nat.succ_pos _, doubleQuoted_long (by decide) (by decide) (by decide)
        (by decide) (Nat.lt_of_le_of_lt hmiddle (by decide)) hm rest⟩
    · have hc : c.toNat < 16 ^ 8 := by
        have hvalid := c.valid
        simp only [UInt32.isValidChar, Nat.isValidChar] at hvalid
        change c.val.toNat < 16 ^ 8
        omega
      exact ⟨m.column + 10, Nat.succ_pos _, doubleQuoted_long (by decide) (by decide) (by decide)
        (by decide) hc hm rest⟩

theorem doubleQuoted_body (blanks : List Char) (hm : 0 < m.column) (rest : List Char) :
    ∃ column, doubleQuoted (.blanks blanks) m (cs.flatMap doubleQuotedChar ++ '"' :: rest) =
      .ok ⟨blanks ++ cs, ⟨m.line, column⟩, rest, false⟩ := by
  induction cs generalizing blanks m with
  | nil =>
    refine ⟨m.column + 1, ?_⟩
    rw [List.flatMap_nil, List.nil_append, List.append_nil, doubleQuoted.eq_def]
    simp only [not_atDocumentMark hm]
    rfl
  | cons c cs ih =>
    rw [List.flatMap_cons, List.append_assoc]
    by_cases hspace : c = ' '
    · subst hspace
      obtain ⟨column, hread⟩ := ih (m := m.skip 1) (blanks ++ [' ']) (Nat.succ_pos _)
      refine ⟨column, ?_⟩
      have hchar : doubleQuotedChar ' ' = [' '] := by decide
      rw [hchar, List.singleton_append, doubleQuoted.eq_def]
      rw [List.append_assoc] at hread
      exact hread
    · obtain ⟨column, hcolumn, hread⟩ := doubleQuoted_char blanks hspace hm
        (cs.flatMap doubleQuotedChar ++ '"' :: rest)
      obtain ⟨last, hnext⟩ := ih (m := ⟨m.line, column⟩) [] hcolumn
      have hnext :
          doubleQuoted .none ⟨m.line, column⟩ (cs.flatMap doubleQuotedChar ++ '"' :: rest) = _ :=
        hnext
      refine ⟨last, ?_⟩
      rw [hread, hnext]
      simp [Except.map, Scanned.prepend]

end FlowTally.Yaml
