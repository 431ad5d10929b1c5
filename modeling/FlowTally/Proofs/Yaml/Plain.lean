import FlowTally.Proofs.Text.Digits
import FlowTally.Yaml.Plain
import FlowTally.Yaml.Printer
import FlowTally.Yaml.Scalar

/-!
# Plain scalars read back

A plain scalar goes on to the end of its line unless a colon or a comment sign
stands where it means something else. `PlainText` says of a text that none
does; it holds of what the printer leaves plain, of names and of numbers. What
stands behind such a text is read as if it stood alone.
-/

namespace FlowTally.Yaml

open Text.Natural (digit? digit?_digitChar digits lt_of_mem_valuesOf read_digits readBase
  toDigits_eq_chars valuesOf valuesOf_head_eq_zero valuesOf_ne_nil)

variable {cs rest after blanks : List Char} {c : Char} {m : Mark} {floor n bound : Nat}

def isInline (c : Char) : Bool :=
  !(c.toNat < 0x20 || (0x7F ≤ c.toNat && c.toNat ≤ 0x9F)) && !isBreak c

-- ---------------------------------------------------------------------------
-- Characters
-- ---------------------------------------------------------------------------

theorem not_break_of_inline (h : isInline c = true) : isBreak c = false := by
  simpa using (Bool.and_eq_true_iff.mp h).2

theorem endsWord_append (h : endsWord cs = false) : endsWord (cs ++ after) = false := by
  cases cs with
  | nil => cases h
  | cons c cs => exact h

-- ---------------------------------------------------------------------------
-- Plain scalars
-- ---------------------------------------------------------------------------

/-- The rest of a plain scalar on one line: no comment starts in it, no colon in it stands at the
end of a word, and no blank stands at its end. `spaced` is set behind a blank. -/
def PlainRest : Bool → List Char → Prop
  | spaced, [] => spaced = false
  | spaced, c :: cs =>
    if c = ' ' then PlainRest true cs
    else isBlank c = false ∧ isBreak c = false ∧ (spaced = true → c ≠ '#') ∧
      (c = ':' → endsWord cs = false) ∧ PlainRest false cs

structure PlainText (cs : List Char) : Prop where
  nonempty : cs ≠ []
  start : startsIndicator cs = false
  head : cs.head? ≠ some ' '
  rest : PlainRest false cs

theorem PlainText.first (h : PlainText (c :: cs)) :
    isBlank c = false ∧ isBreak c = false ∧ (c = ':' → endsWord cs = false) ∧
      PlainRest false cs := by
  have hrest := h.rest
  rw [PlainRest, if_neg (by simpa using h.head)] at hrest
  obtain ⟨hblank, hbreak, -, hcolon, hrest⟩ := hrest
  exact ⟨hblank, hbreak, hcolon, hrest⟩

theorem map_prepend_prepend (result : Except Fault Scanned) (first second : List Char) :
    (result.map (·.prepend second)).map (·.prepend first) =
      result.map (·.prepend (first ++ second)) := by
  cases result <;> simp [Except.map, Scanned.prepend]

theorem plain_char {gap : Gap} (hblank : isBlank c = false) (hbreak : isBreak c = false)
    (hgap : gap.isNone = false → floor ≤ m.column ∧ 0 < m.column ∧ c ≠ '#')
    (hcolon : c = ':' → endsWord cs = false) :
    plain false floor gap m (c :: cs) =
      (plain false floor .none (m.skip 1) cs).map (·.prepend (gap.text ++ [c])) := by
  have hstays : (!gap.isNone &&
      ((!false && m.column < floor) || c == '#' || atDocumentMark m (c :: cs))) = false := by
    cases hnone : gap.isNone with
    | true => rfl
    | false =>
      obtain ⟨hfloor, hcolumn, hsign⟩ := hgap hnone
      simp [atDocumentMark, hsign, Nat.not_lt.mpr hfloor, Nat.pos_iff_ne_zero.mp hcolumn]
  have hword : (c == ':' && endsWord cs || false && isFlowIndicator c) = false := by
    by_cases hc : c = ':'
    · simp [hcolon hc]
    · simp [hc]
  rw [plain, hblank, hbreak, hstays, hword]
  rfl

theorem Mark.skip_skip (m : Mark) (i j : Nat) : (m.skip i).skip j = m.skip (i + j) := by
  simp only [Mark.skip, Nat.add_assoc]

theorem plain_rest {spaced : Bool} (h : PlainRest spaced cs) (hblanks : spaced = !blanks.isEmpty)
    (hfloor : floor ≤ m.column) (hcolumn : 0 < m.column) :
    plain false floor (.blanks blanks) m (cs ++ after) =
      (plain false floor .none (m.skip cs.length) after).map (·.prepend (blanks ++ cs)) := by
  -- On the rest of the text. Blanks are held back until the next character shows that they
  -- belong to the scalar, so they are an argument of the claim and not a part of its text.
  induction cs generalizing spaced blanks m with
  | nil =>
    obtain rfl : spaced = false := h
    obtain rfl : blanks = [] := by simpa using hblanks
    change plain false floor .none m after = (plain false floor .none m after).map _
    cases plain false floor .none m after <;> rfl
  | cons c cs ih =>
    have hfloor' : floor ≤ (m.skip 1).column := Nat.le_succ_of_le hfloor
    have hskip : (m.skip 1).skip cs.length = m.skip (c :: cs).length := by
      rw [Mark.skip_skip, List.length_cons, Nat.add_comm]
    rw [PlainRest] at h
    split at h
    · rename_i hspace
      subst hspace
      have hnext := ih (m := m.skip 1) h (by simp : true = !(blanks ++ [' ']).isEmpty) hfloor'
        (Nat.succ_pos _)
      rw [hskip, List.append_assoc] at hnext
      rw [List.cons_append, plain]
      exact hnext
    · rename_i hspace
      obtain ⟨hblank, hbreak, hsign, hcolon, hrest⟩ := h
      have hgap : (Gap.blanks blanks).isNone = false →
          floor ≤ m.column ∧ 0 < m.column ∧ c ≠ '#' := by
        intro hnone
        refine ⟨hfloor, hcolumn, hsign ?_⟩
        cases blanks with
        | nil => cases hnone
        | cons b blanks => exact hblanks
      have hnext : plain false floor .none (m.skip 1) (cs ++ after) = _ :=
        ih hrest rfl hfloor' (Nat.succ_pos _)
      rw [List.cons_append, plain_char hblank hbreak hgap (fun hc => endsWord_append (hcolon hc)),
        hnext, map_prepend_prepend, hskip]
      simp [Gap.text]

theorem plain_text (h : PlainText cs) (hfloor : floor ≤ m.column + 1) :
    plain false floor .none m (cs ++ after) =
      (plain false floor .none (m.skip cs.length) after).map (·.prepend cs) := by
  cases cs with
  | nil => exact absurd rfl h.nonempty
  | cons c cs =>
    obtain ⟨hblank, hbreak, hcolon, hrest⟩ := h.first
    have hnext : plain false floor .none (m.skip 1) (cs ++ after) = _ :=
      plain_rest hrest rfl hfloor (Nat.succ_pos _)
    rw [List.cons_append, plain_char hblank hbreak (fun hnone => by cases hnone)
      (fun hc => endsWord_append (hcolon hc)), hnext, map_prepend_prepend, Mark.skip_skip,
      List.length_cons, Nat.add_comm]
    rfl

/-- The first character of a line behind its indentation, or the end of the text. -/
def StartsLine (cs : List Char) : Prop :=
  ∀ c ∈ cs.head?, isBlank c = false ∧ isBreak c = false ∧ c ≠ '#'

/-- A plain scalar ends with its line, in front of one that is not indented enough. -/
theorem plain_newline {k : Nat} (hk : k < floor) (hrest : StartsLine rest) :
    plain false floor .none m ('\n' :: (List.replicate k ' ' ++ rest)) =
      .ok ⟨[], ⟨m.line + 1, k⟩, rest, true⟩ := by
  -- The reader has taken `i` spaces of the next line, and `j` are left.
  have hindent (i j : Nat) (h : i + j = k) :
      plain false floor (.folded ['\n'] []) ⟨m.line + 1, i⟩ (List.replicate j ' ' ++ rest) =
        .ok ⟨[], ⟨m.line + 1, k⟩, rest, true⟩ := by
    induction j generalizing i with
    | zero =>
      obtain rfl : i = k := h
      cases rest with
      | nil => rfl
      | cons c rest =>
        obtain ⟨hblank, hbreak, -⟩ := hrest c rfl
        rw [List.replicate_zero, List.nil_append, plain, hblank, hbreak]
        simp [Gap.isNone, Gap.broken, hk]
    | succ j ih =>
      rw [List.replicate_succ, List.cons_append, plain]
      exact ih (i + 1) (by omega)
  exact hindent 0 k (Nat.zero_add k)

theorem plain_colon (h : endsWord rest = true) :
    plain false floor .none m (':' :: rest) = .ok ⟨[], m, ':' :: rest, false⟩ := by
  rw [plain, h]
  rfl

theorem not_blank_of_printable (h : isPrintable c = true) (hspace : c ≠ ' ') :
    isBlank c = false := by
  have htab : c ≠ '\t' := by
    rintro rfl
    exact absurd h (by decide)
  simp [isBlank, hspace, htab]

theorem adjacent_cons {p : Char → Char → Bool} {a b : Char} :
    adjacent p (a :: b :: cs) = (p a b || adjacent p (b :: cs)) := rfl

/-- What the printer leaves plain behind a first character is the rest of a plain scalar. -/
theorem plainRest_of_adjacent (last : Char) (hprintable : ∀ c ∈ cs, isPrintable c = true)
    (hbreak : ∀ c ∈ cs, isBreak c = false)
    (hsign : adjacent (fun a b => b == '#' && (isBlank a || isBreak a)) (last :: cs) = false)
    (hcolon : adjacent (fun a b => a == ':' && (isBlank b || isBreak b)) cs = false)
    (hspace : (last :: cs).getLast? ≠ some ' ') (hend : cs.getLast? ≠ some ':') :
    PlainRest (last == ' ') cs := by
  induction cs generalizing last with
  | nil =>
    have hlast : last ≠ ' ' := by simpa using hspace
    simpa [PlainRest] using hlast
  | cons c cs ih =>
    rw [adjacent_cons, Bool.or_eq_false_iff] at hsign
    -- Each check looks at neighbours, so the character behind this one decides what it says of it.
    have hcolon' : adjacent (fun a b => a == ':' && (isBlank b || isBreak b)) cs = false ∧
        (c = ':' → endsWord cs = false) := by
      cases cs with
      | nil =>
        refine ⟨rfl, ?_⟩
        rintro rfl
        exact absurd rfl hend
      | cons d cs =>
        rw [adjacent_cons, Bool.or_eq_false_iff] at hcolon
        refine ⟨hcolon.2, ?_⟩
        rintro rfl
        exact hcolon.1
    have hend' : cs.getLast? ≠ some ':' := by
      cases cs with
      | nil => exact nofun
      | cons d cs => rwa [List.getLast?_cons_cons] at hend
    rw [List.getLast?_cons_cons] at hspace
    have hnext := ih c (fun d hd => hprintable d (.tail _ hd)) (fun d hd => hbreak d (.tail _ hd))
      hsign.2 hcolon'.1 hspace hend'
    rw [PlainRest]
    split
    · rename_i hc
      rwa [hc] at hnext
    · rename_i hc
      have hc' : (c == ' ') = false := by simpa using hc
      rw [hc'] at hnext
      refine ⟨not_blank_of_printable (hprintable c (.head _)) hc, hbreak c (.head _), ?_, hcolon'.2,
        hnext⟩
      rintro hlast rfl
      obtain rfl : last = ' ' := by simpa using hlast
      exact absurd hsign.1 (by decide)

theorem plainText_of_allowed (hne : cs ≠ []) (h : plainAllowed cs = true) : PlainText cs := by
  simp only [plainAllowed, holdsIndicator, Bool.and_eq_true, Bool.not_eq_true',
    Bool.or_eq_false_iff, List.all_eq_true, bne_iff_ne, List.any_eq_false, Bool.not_eq_true] at h
  obtain ⟨⟨⟨⟨⟨⟨-, hstart⟩, ⟨hsign, hcolon⟩, hend⟩, hprintable⟩, hbreak⟩, hhead⟩, hspace⟩ := h
  refine ⟨hne, hstart, hhead, ?_⟩
  cases cs with
  | nil => exact absurd rfl hne
  | cons c cs =>
    have hc : c ≠ ' ' := by simpa using hhead
    have hc' : (c == ' ') = false := by simpa using hc
    have hrest := plainRest_of_adjacent c (fun d hd => hprintable d (.tail _ hd))
      (fun d hd => hbreak d (.tail _ hd)) hsign hcolon hspace ?_
    · rw [hc'] at hrest
      rw [PlainRest, if_neg hc]
      refine ⟨not_blank_of_printable (hprintable c (.head _)) hc, hbreak c (.head _), nofun, ?_,
        hrest⟩
      rintro rfl
      simpa [startsIndicator, startsQuoted] using hstart
    · cases cs with
      | nil => exact nofun
      | cons d cs => simpa using hend

def isWord (c : Char) : Bool := c.isAlphanum || c == '_'

theorem ne_of_word {d : Char} (hc : isWord c = true) (hd : isWord d = false) : c ≠ d := by
  rintro rfl
  cases hc.symm.trans hd

theorem not_blank_of_word (h : isWord c = true) : isBlank c = false := by
  simp [isBlank, ne_of_word h (by decide : isWord ' ' = false),
    ne_of_word h (by decide : isWord '\t' = false)]

theorem not_break_of_word (h : isWord c = true) : isBreak c = false := by
  simp [isBreak, ne_of_word h (by decide : isWord '\n' = false),
    ne_of_word h (by decide : isWord '\u2028' = false),
    ne_of_word h (by decide : isWord '\u2029' = false)]

theorem printable_of_word (h : isWord c = true) : isPrintable c = true := by
  have hrange : 0x30 ≤ c.toNat ∧ c.toNat ≤ 0x7A := by
    obtain h | hunderscore := Bool.or_eq_true_iff.mp h
    · obtain h | hdigit := Bool.or_eq_true_iff.mp h
      · obtain hupper | hlower := Bool.or_eq_true_iff.mp h
        · obtain ⟨hlow, hhigh⟩ : c.val ≥ 'A'.val ∧ c.val ≤ 'Z'.val := of_decide_eq_true hupper
          exact ⟨Nat.le_trans (by decide) hlow, Nat.le_trans hhigh (by decide)⟩
        · obtain ⟨hlow, hhigh⟩ : c.val ≥ 'a'.val ∧ c.val ≤ 'z'.val :=
            (Bool.and_eq_true_iff.mp hlower).imp of_decide_eq_true of_decide_eq_true
          exact ⟨Nat.le_trans (by decide) hlow, Nat.le_trans hhigh (by decide)⟩
      · obtain ⟨hlow, hhigh⟩ := Char.isDigit_iff_toNat.mp hdigit
        exact ⟨hlow, Nat.le_trans hhigh (by decide)⟩
    · obtain rfl := beq_iff_eq.mp hunderscore
      decide
  simp only [isPrintable, Bool.or_eq_true, Bool.and_eq_true, decide_eq_true_eq, beq_iff_eq]
  omega

theorem plainRest_of_word (h : ∀ c ∈ cs, isWord c = true) : PlainRest false cs := by
  induction cs with
  | nil => rfl
  | cons c cs ih =>
    have hc := h c (.head _)
    rw [PlainRest, if_neg (ne_of_word hc (by decide))]
    exact ⟨not_blank_of_word hc, not_break_of_word hc, nofun,
      fun hcolon => absurd hcolon (ne_of_word hc (by decide)), ih fun d hd => h d (.tail _ hd)⟩

theorem not_word_of_startsQuoted (h : startsQuoted c = true) : isWord c = false := by
  simp only [startsQuoted, Bool.or_eq_true, beq_iff_eq] at h
  casesm* _ ∨ _ <;> subst_vars <;> decide

theorem not_word_of_startsIndicator (h : startsIndicator (c :: cs) = true) : isWord c = false := by
  simp only [startsIndicator, Bool.or_eq_true, Bool.and_eq_true, beq_iff_eq] at h
  obtain h | ⟨(rfl | rfl) | rfl, -⟩ := h
  · exact not_word_of_startsQuoted h
  all_goals decide

theorem plainText_of_word (hne : cs ≠ []) (h : ∀ c ∈ cs, isWord c = true) : PlainText cs := by
  cases cs with
  | nil => exact absurd rfl hne
  | cons c cs =>
    have hc := h c (.head _)
    refine ⟨hne, ?_, by simpa using ne_of_word hc (by decide), plainRest_of_word h⟩
    cases hstart : startsIndicator (c :: cs) with
    | false => rfl
    | true => cases hc.symm.trans (not_word_of_startsIndicator hstart)

-- ---------------------------------------------------------------------------
-- Numbers
-- ---------------------------------------------------------------------------

theorem digit_of_mem_digits {c : Char} (hc : c ∈ digits n) : (digit? 10 c).isSome = true := by
  rw [digits, toDigits_eq_chars (by decide) (by decide)] at hc
  obtain ⟨d, hd, rfl⟩ := List.mem_map.mp hc
  rw [digit?_digitChar (by decide) (lt_of_mem_valuesOf (by decide) (by decide) hd)]
  rfl

theorem word_digits (n : Nat) : digits n ≠ [] ∧ ∀ c ∈ digits n, isWord c = true := by
  rw [digits, toDigits_eq_chars (by decide) (by decide)]
  refine ⟨by simp [valuesOf_ne_nil], fun c hc => ?_⟩
  obtain ⟨d, hd, rfl⟩ := List.mem_map.mp hc
  have hlt := lt_of_mem_valuesOf (by decide) (by decide) hd
  interval_cases d <;> decide

theorem digits_zero {rest : List Char} (h : digits n = '0' :: rest) : rest = [] := by
  have hn : n = 0 := by
    rw [digits, toDigits_eq_chars (by decide) (by decide)] at h
    obtain ⟨d, ds, hvalues, hd, -⟩ := List.map_eq_cons_iff.mp h
    have hmem : d ∈ valuesOf 10 n := by rw [hvalues]; exact .head _
    have hlt : d < 10 := lt_of_mem_valuesOf (by decide) (by decide) hmem
    obtain rfl : d = 0 := by
      interval_cases d <;> first | rfl | cases hd
    exact valuesOf_head_eq_zero (by decide : 1 < 10) (by decide) (by rw [hvalues]; rfl)
  subst hn
  cases h
  rfl

theorem natural?_digits (h : n < bound) : natural? bound (digits n) = some n := by
  -- Other bases and signs start with what is no decimal digit.
  have hno {d : Char} {cs : List Char} (hd : digit? 10 d = none) (hmem : d ∈ cs) :
      digits n ≠ cs := by
    rintro rfl
    have hsome := digit_of_mem_digits hmem
    rw [hd] at hsome
    cases hsome
  have hbased : based? bound (digits n) = none := by
    unfold based?
    split
    · rename_i heq
      exact absurd heq (hno (by decide : digit? 10 'x' = none) (by simp))
    · rename_i heq
      exact absurd heq (hno (by decide : digit? 10 'o' = none) (by simp))
    · rename_i heq
      exact absurd heq (hno (by decide : digit? 10 'b' = none) (by simp))
    · rfl
  have hpadded : isZeroPadded (digits n) = false := by
    unfold isZeroPadded
    split
    · rename_i heq
      exact absurd heq (hno (by decide : digit? 10 '-' = none) (.head _))
    · rename_i heq
      exact absurd heq (hno (by decide : digit? 10 '+' = none) (.head _))
    · dsimp only
      split
      · rename_i heq
        cases digits_zero heq
      · rfl
  have hsigned : startsSigned (digits n) = false := by
    cases hdigits : digits n with
    | nil => rfl
    | cons c cs =>
      have hplus : c ≠ '+' := by
        rintro rfl
        exact hno (by decide) (.head _) hdigits
      have hminus : c ≠ '-' := by
        rintro rfl
        exact hno (by decide) (.head _) hdigits
      simp [startsSigned, hplus, hminus]
  have hread : readBase 10 bound (digits n) = .ok n := read_digits h
  unfold natural?
  split
  · rename_i heq
    exact absurd heq (hno (by decide : digit? 10 '+' = none) (.head _))
  · simp [hbased, hpadded, unsigned?, hsigned, hread, Except.toOption]

end FlowTally.Yaml
