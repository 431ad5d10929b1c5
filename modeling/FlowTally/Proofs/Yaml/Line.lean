import FlowTally.Proofs.Yaml.Scan

/-!
# Lines of a block mapping

What one line does to a settled state of the scanner: a name with its colon
becomes a key and opens a mapping where none is open (`Scans.key`), a dash
becomes an entry (`Scans.item`), and a value becomes one scalar, or the two
brackets of an empty list, and leaves the scanner at the next line.
-/

namespace FlowTally.Yaml

variable {cs rest tail after name : List Char} {c : Char} {m : Mark} {k : Nat}
  {tokens : List Token} {blocks : List Nat} {allowed : Bool}

theorem plain_line {floor : Nat} (h : PlainText cs) (hfloor : floor ≤ m.column + 1)
    (hnext : NextLine floor tail) :
    plain false floor .none m (cs ++ '\n' :: tail) =
      .ok ⟨cs, ⟨m.line + 1, indentOf tail⟩, bodyOf tail, true⟩ := by
  have hline := plain_newline (m := m.skip cs.length) hnext.indent hnext.body
  rw [indent_body] at hline
  rw [plain_text h hfloor, hline]
  simp [Except.map, Scanned.prepend, Mark.skip]

theorem plain_key {floor : Nat} (h : PlainText cs) (hfloor : floor ≤ m.column + 1)
    (hends : endsWord after = true) :
    plain false floor .none m (cs ++ ':' :: after) =
      .ok ⟨cs, m.skip cs.length, ':' :: after, false⟩ := by
  rw [plain_text h hfloor, plain_colon hends]
  simp [Except.map, Scanned.prepend]

namespace Scanner

-- ---------------------------------------------------------------------------
-- Tokens
-- ---------------------------------------------------------------------------

def started (m : Mark) (tokens : List Token) (blocks : List Nat) (allowed : Bool) :
    Option Candidate :=
  if allowed then some ⟨blocks.headD 0 == m.column + 1, tokens.length, m⟩ else none

theorem saveKey_standing :
    (standing m rest tokens blocks allowed).saveKey =
      .ok { standing m rest tokens blocks allowed with
        candidate := started m tokens blocks allowed } := by
  cases allowed <;> rfl

/-- Inside of a block no scalar has to be a key. -/
theorem droppable_started (h : blocks.headD 0 ≤ m.column) :
    Droppable m.line (started m tokens blocks allowed) := by
  intro key hkey
  unfold started at hkey
  split at hkey <;> cases hkey
  exact ⟨beq_eq_false_iff_ne.mpr (Nat.ne_of_lt (Nat.lt_succ_of_le h)), rfl⟩

theorem plainScalar_standing {found : Scanned}
    (h : plain false (blocks.headD 0) .none m rest = .ok found) :
    (standing m rest tokens blocks allowed).plainScalar =
      .ok { mark := found.mark, rest := found.rest, tokens := .scalar found.text true :: tokens,
            blocks, keyAllowed := found.broken, candidate := started m tokens blocks allowed } := by
  rw [plainScalar, saveKey_standing]
  exact congrArg (Except.map _) h

theorem quotedScalar_standing {found : Scanned}
    {read : Gap → Mark → List Char → Except Fault Scanned}
    (h : read .none (m.skip 1) rest = .ok found) :
    (standing m (c :: rest) tokens blocks allowed).quotedScalar read =
      .ok { mark := found.mark, rest := found.rest, tokens := .scalar found.text false :: tokens,
            blocks, keyAllowed := false, candidate := started m tokens blocks allowed } := by
  rw [quotedScalar, saveKey_standing]
  exact congrArg (Except.map _) h

theorem token_of_not_mark {s : Scanner} (h : atDocumentMark s.mark s.rest = false) :
    ¬ (s.mark.column = 0 ∧ startsMark '-' s.rest = true) ∧
      ¬ (s.mark.column = 0 ∧ startsMark '.' s.rest = true) := by
  simp only [atDocumentMark, Bool.and_eq_false_iff, Bool.or_eq_false_iff, beq_eq_false_iff_ne] at h
  grind

theorem not_atDocumentMark_of_word (h : isWord c = true) :
    atDocumentMark m (c :: cs) = false := by
  have hmark {d : Char} (hd : isWord d = false) : startsMark d (c :: cs) = false := by
    unfold startsMark
    split
    · rename_i heq
      cases heq
      simp [ne_of_word h hd]
    · rfl
  simp [atDocumentMark, hmark (by decide : isWord '-' = false),
    hmark (by decide : isWord '.' = false)]

theorem startsPlain_of_indicator (hblank : isBlank c = false)
    (h : startsIndicator (c :: cs) = false) (after : List Char) :
    startsPlain false c (cs ++ after) = true := by
  simp only [startsIndicator, Bool.or_eq_false_iff] at h
  obtain ⟨hquoted, hword⟩ := h
  by_cases hdash : c = '-'
  · simp [startsPlain, hdash]
  by_cases hsign : c = '?' ∨ c = ':'
  · have hends : endsWord cs = false := by
      rcases hsign with rfl | rfl <;> simpa using hword
    have hends' : endsWord (cs ++ after) = false := endsWord_append hends
    rcases hsign with rfl | rfl <;> simp [startsPlain, hends']
  · have hindicator : isIndicator c = false := by
      simp only [startsQuoted, Bool.or_eq_false_iff, beq_eq_false_iff_ne, not_or] at hquoted hsign
      simp [isIndicator, isFlowIndicator, hquoted, hsign, hdash]
    simp [startsPlain, hblank, hindicator]

theorem token_plain {s : Scanner} (h : PlainText (c :: cs)) (hflow : s.inFlow = false)
    (hmark : atDocumentMark s.mark s.rest = false) (after : List Char) :
    s.token c (cs ++ after) = s.plainScalar := by
  obtain ⟨hdashes, hdots⟩ := token_of_not_mark hmark
  have hstart := h.start
  have hplain := startsPlain_of_indicator h.first.1 hstart after
  simp only [startsIndicator, startsQuoted, Bool.or_eq_false_iff, beq_eq_false_iff_ne] at hstart
  have hword : ∀ d ∈ ['-', '?', ':'], ¬ (c = d ∧ endsWord (cs ++ after) = true) := by
    rintro d hd ⟨rfl, hends⟩
    have hends' : endsWord cs = false := by
      simp only [List.mem_cons, List.not_mem_nil, or_false] at hd
      rcases hd with rfl | rfl | rfl <;> simpa using hstart.2
    rw [endsWord_append hends'] at hends
    cases hends
  simp only [List.forall_mem_cons] at hword
  simp only [token, hdashes, hdots, hflow, hplain, Bool.false_or, hword, hstart]
  simp

theorem token_singleQuote {s : Scanner} (hmark : atDocumentMark s.mark s.rest = false)
    (rest : List Char) : s.token '\'' rest = s.quotedScalar singleQuoted := by
  obtain ⟨hdashes, hdots⟩ := token_of_not_mark hmark
  rw [token, if_neg hdashes, if_neg hdots]
  rfl

theorem token_doubleQuote {s : Scanner} (hmark : atDocumentMark s.mark s.rest = false)
    (rest : List Char) : s.token '"' rest = s.quotedScalar doubleQuoted := by
  obtain ⟨hdashes, hdots⟩ := token_of_not_mark hmark
  rw [token, if_neg hdashes, if_neg hdots]
  rfl

theorem token_bracket {s : Scanner} (hmark : atDocumentMark s.mark s.rest = false)
    (rest : List Char) : s.token '[' rest = s.openFlow .flowSequence := by
  obtain ⟨hdashes, hdots⟩ := token_of_not_mark hmark
  rw [token, if_neg hdashes, if_neg hdots]
  rfl

theorem token_bracketEnd {s : Scanner} (hmark : atDocumentMark s.mark s.rest = false)
    (rest : List Char) : s.token ']' rest = s.closeFlow .flowSequenceEnd := by
  obtain ⟨hdashes, hdots⟩ := token_of_not_mark hmark
  rw [token, if_neg hdashes, if_neg hdots]
  rfl

theorem token_dash {s : Scanner} (hmark : atDocumentMark s.mark s.rest = false)
    (hends : endsWord rest = true) : s.token '-' rest = s.entry := by
  obtain ⟨hdashes, hdots⟩ := token_of_not_mark hmark
  rw [token, if_neg hdashes, if_neg hdots]
  simp [hends]

theorem token_colon {s : Scanner} (hmark : atDocumentMark s.mark s.rest = false)
    (hends : endsWord rest = true) : s.token ':' rest = s.value := by
  obtain ⟨hdashes, hdots⟩ := token_of_not_mark hmark
  rw [token, if_neg hdashes, if_neg hdots]
  simp [hends]

-- ---------------------------------------------------------------------------
-- Values
-- ---------------------------------------------------------------------------

theorem Scans.plain (h : PlainText cs) (hmark : atDocumentMark m (cs ++ '\n' :: tail) = false)
    (hfloor : blocks.headD 0 ≤ m.column) (hnext : NextLine (blocks.headD 0) tail) :
    Scans (standing m (cs ++ '\n' :: tail) tokens blocks allowed)
      (atText (m.line + 1) tail (.scalar cs true :: tokens) blocks) := by
  cases cs with
  | nil => exact absurd rfl h.nonempty
  | cons c cs =>
    have hread := plain_line h (Nat.le_succ_of_le hfloor) hnext
    refine .step rfl
      ((token_plain h rfl hmark _).trans (plainScalar_standing hread)) ?_ ?_ (.refl _)
    · have hbody := length_bodyOf_le tail
      simp only [standing, List.length_append, List.length_cons]
      omega
    -- The scalar has taken the break itself, so settling has only the candidate to drop.
    · have hdroppable : Droppable m.line (started m tokens blocks allowed) :=
        droppable_started hfloor
      have hcandidate := refresh_droppable hdroppable (indentOf tail)
      rw [settle_eq rfl (gapFrom_here hnext.body false _) hcandidate]
      rfl

theorem Scans.quoted {read : Gap → Mark → List Char → Except Fault Scanned}
    (htoken : ∀ s : Scanner, atDocumentMark s.mark s.rest = false →
      s.token c (rest ++ '\n' :: tail) = s.quotedScalar read)
    (hread : ∃ column, read .none (m.skip 1) (rest ++ '\n' :: tail) =
      .ok ⟨cs, ⟨m.line, column⟩, '\n' :: tail, false⟩)
    (hcolumn : 0 < m.column) (hfloor : blocks.headD 0 ≤ m.column)
    (hbody : StartsLine (bodyOf tail)) :
    Scans (standing m (c :: (rest ++ '\n' :: tail)) tokens blocks allowed)
      (atText (m.line + 1) tail (.scalar cs false :: tokens) blocks) := by
  obtain ⟨column, hread⟩ := hread
  refine .step rfl ((htoken _ (not_atDocumentMark hcolumn)).trans (quotedScalar_standing hread))
    ?_ (settle_newline rfl rfl (droppable_started hfloor) hbody) (.refl _)
  simp only [standing, List.length_append, List.length_cons]
  omega

theorem Scans.scalar (h : ∀ c ∈ cs, isInline c = true) (hcolumn : 0 < m.column)
    (hfloor : blocks.headD 0 ≤ m.column) (hnext : NextLine (blocks.headD 0) tail) :
    Scans (standing m (scalarText cs ++ '\n' :: tail) tokens blocks allowed)
      (atText (m.line + 1) tail (.scalar cs (printsPlain cs) :: tokens) blocks) := by
  rw [scalarText_inline h]
  cases hplain : printsPlain cs with
  | true => exact .plain (plainText_of_printsPlain hplain) (not_atDocumentMark hcolumn) hfloor hnext
  | false =>
    rw [if_neg Bool.false_ne_true]
    split_ifs
    · rw [singleQuotedText, List.cons_append, List.cons_append]
      refine .quoted (fun s hs => token_singleQuote hs _) ?_ hcolumn hfloor hnext.body
      rw [List.append_assoc]
      exact singleQuoted_text (fun c hc => not_break_of_inline (h c hc)) (Nat.succ_pos _) (by simp)
    · rw [doubleQuotedText, List.cons_append, List.cons_append]
      refine .quoted (fun s hs => token_doubleQuote hs _) ?_ hcolumn hfloor hnext.body
      rw [List.append_assoc]
      exact doubleQuoted_body [] (Nat.succ_pos _) _

def inList (m : Mark) (rest : List Char) (tokens : List Token) (blocks : List Nat) : Scanner :=
  { mark := m, rest, tokens := .flowSequence :: tokens, blocks, outer := [none] }

theorem Scans.empty (hcolumn : 0 < m.column) (hbody : StartsLine (bodyOf tail)) :
    Scans (standing m ('[' :: ']' :: '\n' :: tail) tokens blocks false)
      (atText (m.line + 1) tail (.flowSequenceEnd :: .flowSequence :: tokens) blocks) := by
  have hopen : (standing m ('[' :: ']' :: '\n' :: tail) tokens blocks false).token '['
      (']' :: '\n' :: tail) = .ok (inList (m.skip 1) (']' :: '\n' :: tail) tokens blocks) :=
    token_bracket (not_atDocumentMark hcolumn) _
  have hcolumn' : 0 < (inList (m.skip 1) (']' :: '\n' :: tail) tokens blocks).mark.column :=
    Nat.succ_pos _
  have hclose : (inList (m.skip 1) (']' :: '\n' :: tail) tokens blocks).token ']' ('\n' :: tail) =
      .ok (standing (m.skip 2) ('\n' :: tail) (.flowSequenceEnd :: .flowSequence :: tokens) blocks
        false) := token_bracketEnd (not_atDocumentMark hcolumn') _
  exact .step rfl hopen (Nat.lt_succ_self _) rfl
    (.step rfl hclose (Nat.lt_succ_self _) (settle_newline rfl rfl nofun hbody) (.refl _))

-- ---------------------------------------------------------------------------
-- Keys and items
-- ---------------------------------------------------------------------------

def opened (column : Nat) (blocks : List Nat) : List Nat :=
  if column < blocks.headD 0 then blocks else (column + 1) :: blocks

/-- Start of a mapping whose keys stand in a column, unless it is open already. -/
def opening (column : Nat) (blocks : List Nat) : List Token :=
  if column < blocks.headD 0 then [] else [.blockMapping]

theorem insertAt_append (later tokens : List Token) (t : Token) :
    insertAt (later ++ tokens) tokens.length t = later ++ t :: tokens := by
  simp [insertAt]

def named (m : Mark) (name rest : List Char) (tokens : List Token) (blocks : List Nat) : Scanner :=
  { mark := m.skip name.length, rest, tokens := .scalar name true :: tokens, blocks,
    keyAllowed := false, candidate := started m tokens blocks true }

/-- A colon makes a key of the name in front of it. -/
theorem value_named (m : Mark) (name after : List Char) (tokens : List Token)
    (blocks : List Nat) :
    (named m name (':' :: after) tokens blocks).value =
      .ok (standing (m.skip (name.length + 1)) after
        (.value :: .scalar name true :: .key :: (opening m.column blocks ++ tokens))
        (opened m.column blocks) false) := by
  have hkey : insertAt (.scalar name true :: tokens) tokens.length .key =
      .scalar name true :: .key :: tokens := insertAt_append [_] tokens .key
  have hmapping : insertAt (.scalar name true :: .key :: tokens) tokens.length .blockMapping =
      .scalar name true :: .key :: .blockMapping :: tokens :=
    insertAt_append [_, .key] tokens .blockMapping
  by_cases hopen : m.column < blocks.headD 0
  all_goals
    simp only [named, value, started, if_true, roll, inFlow, List.isEmpty_nil, Bool.not_true,
      Bool.false_or, decide_eq_true_eq, Scanner.floor, hkey, hmapping, opening, opened, hopen,
      if_false]
    rfl

theorem settle_named (hlength : name.length ≤ 1024) (hfloor : blocks.headD 0 ≤ m.column + 1) :
    (named m name (':' :: after) tokens blocks).settle =
      .ok (named m name (':' :: after) tokens blocks) := by
  have hnear : ¬ (m.line < m.line ∨ m.column + 1024 < m.column + name.length) := by omega
  refine settle_here rfl ?_ ?_ ?_
  · rintro _ ⟨⟩
    decide
  · exact Nat.le_trans hfloor (Nat.add_le_add_right (Nat.le_add_right ..) 1)
  · simp only [named, started, if_true, Candidate.refresh, Mark.skip, Bool.or_eq_true,
      decide_eq_true_eq, hnear, if_false]

theorem Scans.key {t : Scanner} (hne : name ≠ []) (hword : ∀ c ∈ name, isWord c = true)
    (hlength : name.length ≤ 1024) (hends : endsWord after = true)
    (hfloor : blocks.headD 0 ≤ m.column + 1)
    (hsettle : (standing (m.skip (name.length + 1)) after
      (.value :: .scalar name true :: .key :: (opening m.column blocks ++ tokens))
      (opened m.column blocks) false).settle = .ok t) :
    Scans (standing m (name ++ ':' :: after) tokens blocks true) t := by
  cases name with
  | nil => exact absurd rfl hne
  | cons c cs =>
    have hplain := plainText_of_word hne hword
    have hmark : atDocumentMark m (c :: cs ++ ':' :: after) = false :=
      not_atDocumentMark_of_word (hword c (.head _))
    have hname : (standing m (c :: cs ++ ':' :: after) tokens blocks true).token c
        (cs ++ ':' :: after) = .ok (named m (c :: cs) (':' :: after) tokens blocks) :=
      (token_plain hplain rfl hmark _).trans (plainScalar_standing (plain_key hplain hfloor hends))
    have hcolumn : 0 < (named m (c :: cs) (':' :: after) tokens blocks).mark.column :=
      Nat.succ_pos _
    have hcolon := (token_colon (not_atDocumentMark hcolumn) hends).trans (value_named ..)
    refine .step rfl hname ?_ (settle_named hlength hfloor)
      (.step rfl hcolon (Nat.lt_succ_self _) hsettle (.refl _))
    simp only [named, standing, List.length_append, List.length_cons]
    omega

theorem Scans.item (hcolumn : blocks.headD 0 = m.column + 1) (hpos : 0 < m.column)
    (hrest : StartsLine rest) :
    Scans (standing m ('-' :: ' ' :: rest) tokens blocks true)
      (standing (m.skip 2) rest (.entry :: tokens) blocks true) := by
  have hopen : m.column < blocks.headD 0 := hcolumn ▸ Nat.lt_succ_self _
  have hroll : (standing m ('-' :: ' ' :: rest) tokens blocks true).rollHere .blockSequence =
      .ok (standing m ('-' :: ' ' :: rest) tokens blocks true) := by
    simp only [rollHere, standing, inFlow, roll, Scanner.floor, hopen]
    rfl
  have hentry : (standing m ('-' :: ' ' :: rest) tokens blocks true).token '-' (' ' :: rest) =
      .ok (standing (m.skip 1) (' ' :: rest) (.entry :: tokens) blocks true) := by
    rw [token_dash (not_atDocumentMark hpos) rfl, entry, hroll]
    rfl
  have hfloor : blocks.headD 0 ≤ (m.skip 1).column + 2 := by
    simp only [Mark.skip]
    omega
  exact .step rfl hentry (Nat.lt_succ_self _) (settle_space hrest hfloor) (.refl _)

end Scanner

end FlowTally.Yaml
