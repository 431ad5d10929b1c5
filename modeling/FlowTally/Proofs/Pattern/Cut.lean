import FlowTally.Pattern.Class
import Mathlib.Data.List.Basic

/-!
# Escapes in front of a closing parenthesis

The readers of a pattern go from left to right, and a closing parenthesis behind what they read
does not change their answers: `Cuts` says of a reader that what it answers with a tail behind its
rest it answers without the tail, and leaves the same rest. With the empty tail this says that the
rest is an end of the text and that enough fuel is as good as any.

The reader of a boundary of words looks ahead at a brace. Its rest has to be one that a caller can
go on with, which `BareBrace` is not.
-/

namespace FlowTally.Pattern

open Text (isBlank)

variable {α β : Type} {cs rest tail : List Char} {c : Char} {flags : Flags} {n : Nat}

def Closing (tail : List Char) : Prop := tail = [] ∨ tail = [')', '$']

theorem Closing.head (ht : Closing tail) (h : tail = c :: rest) : c = ')' := by
  obtain rfl | rfl := ht
  · cases h
  · cases h
    rfl

/-- What `read` leaves in front of the tail, it leaves without the tail. -/
def Leaves (tail : List Char) (read : List Char → List Char) : Prop :=
  ∀ ⦃cs rest : List Char⦄, read cs = rest ++ tail →
    ∃ short, cs = short ++ tail ∧ rest <:+ short ∧ read short = rest

/-- What `read` answers with a rest in front of the tail, it answers without the tail. -/
def Cuts (tail : List Char) (read : List Char → Option (α × List Char)) : Prop :=
  ∀ ⦃cs : List Char⦄ ⦃a : α⦄ ⦃rest : List Char⦄, read cs = some (a, rest ++ tail) →
    ∃ short, cs = short ++ tail ∧ rest <:+ short ∧ read short = some (a, rest)

/-- The same of a reader with fuel, which without the tail needs no more than one unit for each
character and one for the end. -/
def CutsWith (tail : List Char) (read : Nat → List Char → Option (α × List Char)) : Prop :=
  ∀ ⦃n : Nat⦄ ⦃cs : List Char⦄ ⦃a : α⦄ ⦃rest : List Char⦄, read n cs = some (a, rest ++ tail) →
    ∃ short, cs = short ++ tail ∧ rest <:+ short ∧
      ∀ m, short.length < m → read m short = some (a, rest)

theorem cuts_none : Cuts tail fun _ => (none : Option (α × List Char)) := nofun

theorem cuts_some (a : α) : Cuts tail fun cs => some (a, cs) := by
  intro cs b rest h
  obtain ⟨rfl, rfl⟩ := Prod.mk.inj (Option.some.inj h)
  exact ⟨rest, rfl, List.suffix_refl _, rfl⟩

theorem Cuts.ite {p : Prop} [Decidable p] {read other : List Char → Option (α × List Char)}
    (hread : Cuts tail read) (hother : Cuts tail other) :
    Cuts tail fun cs => if p then read cs else other cs := by
  intro cs a rest h
  by_cases hp : p
  · simp only [if_pos hp] at h ⊢
    exact hread h
  · simp only [if_neg hp] at h ⊢
    exact hother h

theorem suffix_cons_of (c : Char) {short : List Char} (h : rest <:+ short) : rest <:+ c :: short :=
  h.trans (List.suffix_cons c short)

-- ---------------------------------------------------------------------------
-- Blanks and comments
-- ---------------------------------------------------------------------------

theorem leaves_skipVerbose (tail : List Char) (inComment : Bool) :
    Leaves tail (skipVerbose inComment) := by
  intro cs rest h
  induction cs generalizing inComment with
  | nil =>
    obtain ⟨rfl, rfl⟩ := List.append_eq_nil_iff.mp h.symm
    exact ⟨[], rfl, List.suffix_refl _, rfl⟩
  | cons c cs ih =>
    rw [skipVerbose] at h
    split at h
    · rename_i hin
      obtain ⟨short, rfl, hsuffix, hskip⟩ := ih _ h
      exact ⟨c :: short, rfl, suffix_cons_of c hsuffix, by rw [skipVerbose, if_pos hin, hskip]⟩
    · rename_i hin
      split at h
      · rename_i hblank
        obtain ⟨short, rfl, hsuffix, hskip⟩ := ih _ h
        refine ⟨c :: short, rfl, suffix_cons_of c hsuffix, ?_⟩
        rw [skipVerbose, if_neg hin, if_pos hblank, hskip]
      · rename_i hblank
        split at h
        · rename_i hsign
          obtain ⟨short, rfl, hsuffix, hskip⟩ := ih _ h
          refine ⟨c :: short, rfl, suffix_cons_of c hsuffix, ?_⟩
          rw [skipVerbose, if_neg hin, if_neg hblank, if_pos hsign, hskip]
        · rename_i hsign
          cases rest with
          | nil => exact ⟨[], h, List.suffix_refl _, rfl⟩
          | cons d rest =>
            obtain ⟨rfl, rfl⟩ := List.cons.inj h
            refine ⟨c :: rest, rfl, List.suffix_refl _, ?_⟩
            rw [skipVerbose, if_neg hin, if_neg hblank, if_neg hsign]

theorem leaves_skip (tail : List Char) (flags : Flags) : Leaves tail flags.skip := by
  intro cs rest h
  by_cases hverbose : flags.verbose = true
  · simp only [Flags.skip, if_pos hverbose] at h ⊢
    exact leaves_skipVerbose tail false h
  · simp only [Flags.skip, if_neg hverbose] at h ⊢
    exact ⟨rest, h, List.suffix_refl _, rfl⟩

theorem skip_suffix (flags : Flags) (cs : List Char) : flags.skip cs <:+ cs := by
  obtain ⟨short, hshort, hsuffix, -⟩ := leaves_skip [] flags (List.append_nil (flags.skip cs)).symm
  rw [List.append_nil] at hshort
  subst hshort
  exact hsuffix

theorem skip_cons_self (hblank : isBlank c = false) (hsign : c ≠ '#') :
    flags.skip (c :: cs) = c :: cs := by
  unfold Flags.skip
  split
  · simp [skipVerbose, hblank, hsign]
  · rfl

theorem skip_nil (flags : Flags) : flags.skip [] = [] := by
  unfold Flags.skip
  split <;> rfl

theorem skip_cons (h : flags.skip cs = c :: (rest ++ tail)) :
    ∃ short, cs = short ++ tail ∧ (c :: rest) <:+ short ∧ flags.skip short = c :: rest :=
  leaves_skip tail flags h

theorem skipVerbose_append {inComment : Bool} (h : skipVerbose inComment cs ≠ []) :
    skipVerbose inComment (cs ++ tail) = skipVerbose inComment cs ++ tail := by
  induction cs generalizing inComment with
  | nil => exact absurd rfl h
  | cons c cs ih =>
    rw [List.cons_append, skipVerbose]
    rw [skipVerbose] at h ⊢
    split
    · rename_i hin
      rw [if_pos hin] at h
      exact ih h
    · rename_i hin
      rw [if_neg hin] at h
      split
      · rename_i hblank
        rw [if_pos hblank] at h
        exact ih h
      · rename_i hblank
        rw [if_neg hblank] at h
        split
        · rename_i hsign
          rw [if_pos hsign] at h
          exact ih h
        · rfl

theorem skip_append (tail : List Char) (h : flags.skip cs ≠ []) :
    flags.skip (cs ++ tail) = flags.skip cs ++ tail := by
  unfold Flags.skip at h ⊢
  split
  · rename_i hverbose
    rw [if_pos hverbose] at h
    exact skipVerbose_append h
  · rfl

theorem skipVerbose_closing {inComment : Bool} (ht : Closing tail)
    (h : skipVerbose inComment cs = []) :
    skipVerbose inComment (cs ++ tail) = [] ∨ skipVerbose inComment (cs ++ tail) = tail := by
  induction cs generalizing inComment with
  | nil =>
    obtain rfl | rfl := ht
    · exact .inl rfl
    · cases inComment
      · exact .inr (by decide)
      · exact .inl (by decide)
  | cons c cs ih =>
    rw [skipVerbose] at h
    rw [List.cons_append, skipVerbose]
    split at h
    · rename_i hin
      rw [if_pos hin]
      exact ih h
    · rename_i hin
      rw [if_neg hin]
      split at h
      · rename_i hblank
        rw [if_pos hblank]
        exact ih h
      · rename_i hblank
        rw [if_neg hblank]
        split at h
        · rename_i hsign
          rw [if_pos hsign]
          exact ih h
        · cases h

theorem skip_closing (ht : Closing tail) (h : flags.skip cs = []) :
    flags.skip (cs ++ tail) = [] ∨ flags.skip (cs ++ tail) = tail := by
  unfold Flags.skip at h ⊢
  split
  · rename_i hverbose
    rw [if_pos hverbose] at h
    exact skipVerbose_closing ht h
  · rename_i hverbose
    rw [if_neg hverbose] at h
    exact .inr (by rw [h, List.nil_append])

/-- Where only blanks and comments stand before the tail, its parenthesis is all that is left. -/
theorem head_of_skip (ht : Closing tail) (h : flags.skip cs = [])
    (hskip : flags.skip (cs ++ tail) = c :: rest) : c = ')' := by
  obtain hleft | hleft := skip_closing ht h
  · cases hskip.symm.trans hleft
  · exact ht.head (hleft.symm.trans hskip)

theorem leaves_dropWhile (tail : List Char) (p : Char → Bool) : Leaves tail (List.dropWhile p) := by
  intro cs rest h
  induction cs with
  | nil =>
    obtain ⟨rfl, rfl⟩ := List.append_eq_nil_iff.mp h.symm
    exact ⟨[], rfl, List.suffix_refl _, rfl⟩
  | cons c cs ih =>
    rw [List.dropWhile_cons] at h
    split at h
    · rename_i hc
      obtain ⟨short, rfl, hsuffix, hdrop⟩ := ih h
      refine ⟨c :: short, rfl, suffix_cons_of c hsuffix, ?_⟩
      rw [List.dropWhile_cons, if_pos hc, hdrop]
    · rename_i hc
      cases rest with
      | nil => exact ⟨[], h, List.suffix_refl _, rfl⟩
      | cons d rest =>
        obtain ⟨rfl, rfl⟩ := List.cons.inj h
        exact ⟨c :: rest, rfl, List.suffix_refl _, by rw [List.dropWhile_cons, if_neg hc]⟩

-- ---------------------------------------------------------------------------
-- Escapes
-- ---------------------------------------------------------------------------

theorem cuts_readHexDigits (tail : List Char) (flags : Flags) (n count : Nat) :
    Cuts tail (readHexDigits flags n count) := by
  intro cs a rest h
  induction count generalizing n cs with
  | zero =>
    cases h
    exact ⟨rest, rfl, List.suffix_refl _, rfl⟩
  | succ count ih =>
    rw [readHexDigits] at h
    split at h
    · rename_i c after hskip
      split at h
      · rename_i d hd
        obtain ⟨short, rfl, hsuffix, hread⟩ := ih _ h
        obtain ⟨whole, rfl, hwhole, hskipped⟩ := skip_cons hskip
        refine ⟨whole, rfl, (suffix_cons_of c hsuffix).trans hwhole, ?_⟩
        rw [readHexDigits, hskipped]
        simp only [hd, hread]
      · cases h
    · cases h

theorem cutsWith_readHexBraced (tail : List Char) (flags : Flags) (n : Nat) (any : Bool) :
    CutsWith tail (readHexBraced flags n any) := by
  intro fuel cs a rest h
  induction fuel generalizing n any cs with
  | zero => cases h
  | succ fuel ih =>
    rw [readHexBraced] at h
    split at h
    · cases h
    · rename_i c after hskip
      split at h
      · rename_i hbrace
        split at h
        · rename_i hany
          cases h
          obtain ⟨whole, rfl, hwhole, hskipped⟩ := skip_cons hskip
          refine ⟨whole, rfl, (List.suffix_cons c rest).trans hwhole, fun m hm => ?_⟩
          obtain ⟨m, rfl⟩ := Nat.exists_eq_add_of_lt hm
          rw [readHexBraced, hskipped]
          simp only [if_pos hbrace, if_pos hany]
        · cases h
      · rename_i hbrace
        split at h
        · rename_i d hd
          split at h
          · rename_i hsmall
            obtain ⟨short, rfl, hsuffix, hread⟩ := ih _ _ h
            obtain ⟨whole, rfl, hwhole, hskipped⟩ := skip_cons hskip
            refine ⟨whole, rfl, (suffix_cons_of c hsuffix).trans hwhole, fun m hm => ?_⟩
            have hlength := hwhole.length_le
            obtain ⟨m, rfl⟩ := Nat.exists_eq_add_of_lt hm
            rw [readHexBraced, hskipped]
            simp only [if_neg hbrace, hd, if_pos hsmall]
            exact hread _ (by simp only [List.length_cons] at hlength; omega)
          · cases h
        · cases h

theorem cuts_readHex (tail : List Char) (flags : Flags) (digits : Nat) :
    Cuts tail (readHex flags digits) := by
  intro cs a rest h
  rw [readHex] at h
  split at h
  · rename_i after hskip
    obtain ⟨⟨n, left⟩, hbraced, h⟩ := Option.bind_eq_some_iff.mp h
    obtain ⟨c, hc, h⟩ := Option.bind_eq_some_iff.mp h
    cases h
    obtain ⟨short, rfl, hsuffix, hread⟩ := cutsWith_readHexBraced tail flags 0 false hbraced
    obtain ⟨whole, rfl, hwhole, hskipped⟩ := skip_cons hskip
    refine ⟨whole, rfl, (suffix_cons_of _ hsuffix).trans hwhole, ?_⟩
    rw [readHex, hskipped]
    simp only [hread _ (Nat.lt_succ_self _), hc, Option.bind_eq_bind, Option.bind_some, pure]
  · rename_i hbrace
    obtain ⟨⟨n, left⟩, hdigits, h⟩ := Option.bind_eq_some_iff.mp h
    -- The number decides what the digits stand for, and leaves the rest as it is.
    obtain ⟨hleft, hfinish⟩ : left = rest ++ tail ∧
        ∀ left, (if digits = 2 ∧ 0x80 ≤ n ∧ !flags.unicode then some (Escape.byte n, left)
          else (charOfNumber? n).bind fun c => some (Escape.char c, left)) = some (a, left) := by
      dsimp only at h
      split at h
      · rename_i hbyte
        cases h
        exact ⟨rfl, fun left => if_pos hbyte⟩
      · rename_i hbyte
        obtain ⟨c, hc, h⟩ := Option.bind_eq_some_iff.mp h
        cases h
        exact ⟨rfl, fun left => by rw [if_neg hbyte, hc, Option.bind_some]⟩
    subst hleft
    obtain ⟨short, hshort, hsuffix, hread⟩ := cuts_readHexDigits tail flags 0 digits hdigits
    obtain ⟨whole, rfl, hwhole, hskipped⟩ := leaves_skip tail flags hshort
    refine ⟨whole, rfl, hsuffix.trans hwhole, ?_⟩
    rw [readHex, hskipped]
    split
    · rename_i after
      exact absurd hshort (hbrace (after ++ tail))
    · simp only [hread, Option.bind_eq_bind, Option.bind_some, pure]
      exact hfinish rest

theorem cutsWith_readBraced (tail : List Char) (flags : Flags) :
    CutsWith tail (readBraced flags) := by
  intro fuel cs text rest h
  induction fuel generalizing text cs with
  | zero => cases h
  | succ fuel ih =>
    rw [readBraced] at h
    split at h
    · cases h
    · rename_i c after hskip
      split at h
      · rename_i hbrace
        cases h
        obtain ⟨whole, rfl, hwhole, hskipped⟩ := skip_cons hskip
        refine ⟨whole, rfl, (List.suffix_cons c rest).trans hwhole, fun m hm => ?_⟩
        obtain ⟨m, rfl⟩ := Nat.exists_eq_add_of_lt hm
        rw [readBraced, hskipped]
        simp only [if_pos hbrace]
      · rename_i hbrace
        obtain ⟨⟨others, left⟩, hothers, h⟩ := Option.map_eq_some_iff.mp h
        cases h
        obtain ⟨short, rfl, hsuffix, hread⟩ := ih hothers
        obtain ⟨whole, rfl, hwhole, hskipped⟩ := skip_cons hskip
        refine ⟨whole, rfl, (suffix_cons_of c hsuffix).trans hwhole, fun m hm => ?_⟩
        have hlength := hwhole.length_le
        obtain ⟨m, rfl⟩ := Nat.exists_eq_add_of_lt hm
        rw [readBraced, hskipped]
        simp only [if_neg hbrace]
        rw [hread _ (by simp only [List.length_cons] at hlength; omega)]
        rfl

theorem cuts_readProperty (tail : List Char) (flags : Flags) (negated : Bool) :
    Cuts tail (readProperty flags negated) := by
  intro cs a rest h
  obtain ⟨⟨set, left⟩, hfound, h⟩ := Option.bind_eq_some_iff.mp h
  obtain ⟨hleft, hfinish⟩ : left = rest ++ tail ∧
      ∀ left, (if flags.unicode then (flags.close negated set).bind fun set =>
        some (Escape.set set, left) else none) = some (a, left) := by
    dsimp only at h
    split at h
    · rename_i hunicode
      obtain ⟨closed, hclosed, h⟩ := Option.bind_eq_some_iff.mp h
      cases h
      exact ⟨rfl, fun left => by rw [if_pos hunicode, hclosed, Option.bind_some]⟩
    · cases h
  subst hleft
  split at hfound
  · cases hfound
  · rename_i after hskip
    split at hfound
    · rename_i text left hbraced
      obtain ⟨set, hset, hfound⟩ := Option.map_eq_some_iff.mp hfound
      cases hfound
      obtain ⟨short, rfl, hsuffix, hread⟩ := cutsWith_readBraced tail flags hbraced
      obtain ⟨whole, rfl, hwhole, hskipped⟩ := skip_cons hskip
      refine ⟨whole, rfl, (suffix_cons_of _ hsuffix).trans hwhole, ?_⟩
      rw [readProperty, hskipped]
      simp only [hread _ (Nat.lt_succ_self _), hset, Option.map_some, Option.bind_eq_bind,
        Option.bind_some, pure]
      exact hfinish rest
    · cases hfound
  · cases hfound
  · rename_i c after hbrace hslash hskip
    obtain ⟨set, hset, hfound⟩ := Option.map_eq_some_iff.mp hfound
    obtain ⟨rfl, hafter⟩ := Prod.mk.inj hfound
    obtain ⟨short, rfl, hsuffix, hread⟩ := leaves_skip tail flags hafter
    obtain ⟨whole, rfl, hwhole, hskipped⟩ := skip_cons hskip
    refine ⟨whole, rfl, (suffix_cons_of _ hsuffix).trans hwhole, ?_⟩
    rw [readProperty, hskipped]
    split
    · rename_i heq
      cases heq
    · rename_i heq
      exact absurd (List.cons.inj heq).1 hbrace
    · rename_i heq
      exact absurd (List.cons.inj heq).1 hslash
    · rename_i heq
      obtain ⟨rfl, rfl⟩ := List.cons.inj heq
      simp only [hset, hread, Option.map_some, Option.bind_eq_bind, Option.bind_some, pure]
      exact hfinish rest

theorem cuts_takeBoundary {name : List Char} (h : takeBoundary flags n cs = (name, rest ++ tail))
    (hn : cs.length ≤ n) :
    ∃ short, cs = short ++ tail ∧ rest <:+ short ∧
      ∀ m, short.length ≤ m → takeBoundary flags m short = (name, rest) := by
  induction n generalizing cs name with
  | zero =>
    cases h
    obtain ⟨rfl, rfl⟩ := List.append_eq_nil_iff.mp (List.length_eq_zero_iff.mp (Nat.le_zero.mp hn))
    exact ⟨[], rfl, List.suffix_refl _, fun m _ => by cases m <;> rfl⟩
  | succ n ih =>
    cases cs with
    | nil =>
      obtain ⟨rfl, hrest⟩ := Prod.mk.inj h
      obtain ⟨rfl, rfl⟩ := List.append_eq_nil_iff.mp hrest.symm
      exact ⟨[], rfl, List.suffix_refl _, fun m _ => by cases m <;> rfl⟩
    | cons c after =>
      simp only [takeBoundary] at h
      split at h
      · rename_i hletter
        obtain ⟨rfl, hrest⟩ := Prod.mk.inj h
        obtain ⟨short, hshort, hsuffix, hread⟩ := ih (Prod.ext rfl hrest)
          (Nat.le_trans (skip_suffix flags after).length_le (Nat.le_of_succ_le_succ hn))
        obtain ⟨whole, rfl, hwhole, hskipped⟩ := leaves_skip tail flags hshort
        refine ⟨c :: whole, rfl, suffix_cons_of c (hsuffix.trans hwhole), fun m hm => ?_⟩
        obtain ⟨m, rfl⟩ := Nat.exists_eq_add_of_lt hm
        have hlength := hwhole.length_le
        simp only [takeBoundary, if_pos hletter, hskipped]
        rw [hread _ (by omega)]
      · rename_i hletter
        obtain ⟨rfl, hrest⟩ := Prod.mk.inj h
        refine ⟨rest, hrest, List.suffix_refl _, fun m hm => ?_⟩
        cases rest with
        | nil => cases m <;> rfl
        | cons d rest =>
          obtain ⟨rfl, -⟩ := List.cons.inj hrest
          obtain ⟨m, rfl⟩ := Nat.exists_eq_add_of_lt hm
          simp only [takeBoundary, if_neg hletter]

def BareBrace (flags : Flags) (cs : List Char) : Prop :=
  ∃ after, cs = '\x7b' :: after ∧ flags.skip after = []

def namedBoundary (flags : Flags) (name : List Char) : Option Escape :=
  let ascii := !flags.unicode
  let text := String.ofList name
  if text = "start" then some (.look (.wordStart ascii))
  else if text = "end" then some (.look (.wordEnd ascii))
  else if text = "start-half" then some (.look (.wordStartHalf ascii))
  else if text = "end-half" then some (.look (.wordEndHalf ascii))
  else none

section

variable {a : Escape} {after more name : List Char}

theorem readBoundary_named (hskip : flags.skip after = c :: more) (hletter : isBoundaryLetter c = true)
    (htake : takeBoundary flags (more.length + 1) (c :: more) = (name, '\x7d' :: rest)) :
    readBoundary flags ('\x7b' :: after) = (namedBoundary flags name).map (·, rest) := by
  unfold readBoundary namedBoundary
  simp only [hskip, if_pos hletter, htake]
  split_ifs <;> rfl

theorem readBoundary_unclosed {left : List Char} (hskip : flags.skip after = c :: more)
    (hletter : isBoundaryLetter c = true)
    (htake : takeBoundary flags (more.length + 1) (c :: more) = (name, left))
    (hclose : ∀ rest, left ≠ '\x7d' :: rest) : readBoundary flags ('\x7b' :: after) = none := by
  unfold readBoundary
  simp only [hskip, if_pos hletter, htake]
  split
  · rename_i heq
    exact absurd (Prod.mk.inj heq).2 (hclose _)
  · rfl

theorem readBoundary_nil (hskip : flags.skip after = []) :
    readBoundary flags ('\x7b' :: after) = none := by
  simp only [readBoundary, hskip]

theorem readBoundary_brace (hskip : flags.skip after = c :: more)
    (hletter : ¬ isBoundaryLetter c = true) :
    readBoundary flags ('\x7b' :: after) =
      some (.look (.wordBoundary !flags.unicode), '\x7b' :: after) := by
  unfold readBoundary
  simp only [hskip, if_neg hletter]

theorem readBoundary_plain (hbrace : ∀ after, cs ≠ '\x7b' :: after) :
    readBoundary flags cs = some (.look (.wordBoundary !flags.unicode), cs) := by
  unfold readBoundary
  dsimp only
  split
  · exact absurd rfl (hbrace _)
  · rfl

theorem cuts_boundary_named (hskip : flags.skip after = c :: more)
    (hletter : isBoundaryLetter c = true)
    (htake : takeBoundary flags (more.length + 1) (c :: more) = (name, '\x7d' :: (rest ++ tail)))
    (hname : namedBoundary flags name = some a) :
    ∃ short, '\x7b' :: after = short ++ tail ∧ rest <:+ short ∧
      readBoundary flags short = some (a, rest) := by
  obtain ⟨short, hshort, hsuffix, hread⟩ :=
    cuts_takeBoundary (show _ = (name, ('\x7d' :: rest) ++ tail) from htake) (Nat.le_refl _)
  cases short with
  | nil => cases List.suffix_nil.mp hsuffix
  | cons d short =>
    obtain ⟨rfl, rfl⟩ := List.cons.inj hshort
    obtain ⟨whole, rfl, hwhole, hskipped⟩ := skip_cons hskip
    refine ⟨'\x7b' :: whole, rfl,
      suffix_cons_of _ ((List.suffix_cons _ rest).trans (hsuffix.trans hwhole)), ?_⟩
    rw [readBoundary_named hskipped hletter (hread _ (Nat.le_refl _)), hname, Option.map_some]

/-- The character behind the brace is the same without the tail, since there is one. -/
theorem cuts_boundary_brace (hskip : flags.skip (rest ++ tail) = c :: more)
    (hletter : ¬ isBoundaryLetter c = true) (hbrace : ¬ BareBrace flags ('\x7b' :: rest)) :
    readBoundary flags ('\x7b' :: rest) =
      some (.look (.wordBoundary !flags.unicode), '\x7b' :: rest) := by
  have hsome : flags.skip rest ≠ [] := fun hrest => hbrace ⟨rest, rfl, hrest⟩
  obtain ⟨d, found, hfound⟩ := List.exists_cons_of_ne_nil hsome
  have hhead := hskip.symm.trans (skip_append tail hsome)
  rw [hfound, List.cons_append] at hhead
  obtain ⟨rfl, -⟩ := List.cons.inj hhead
  exact readBoundary_brace hfound hletter

theorem cuts_readBoundary (ht : Closing tail)
    (h : readBoundary flags cs = some (a, rest ++ tail)) (hbrace : ¬ BareBrace flags rest) :
    ∃ short, cs = short ++ tail ∧ rest <:+ short ∧ readBoundary flags short = some (a, rest) := by
  by_cases hopen : ∃ after, cs = '\x7b' :: after
  · obtain ⟨after, rfl⟩ := hopen
    cases hskip : flags.skip after with
    | nil => cases (readBoundary_nil hskip).symm.trans h
    | cons c more =>
      by_cases hletter : isBoundaryLetter c = true
      · rcases htake : takeBoundary flags (more.length + 1) (c :: more) with ⟨name, left⟩
        by_cases hclose : ∃ left', left = '\x7d' :: left'
        · obtain ⟨left, rfl⟩ := hclose
          rw [readBoundary_named hskip hletter htake] at h
          obtain ⟨b, hname, h⟩ := Option.map_eq_some_iff.mp h
          obtain ⟨rfl, rfl⟩ := Prod.mk.inj h
          exact cuts_boundary_named hskip hletter htake hname
        · cases (readBoundary_unclosed hskip hletter htake fun left' hleft =>
            hclose ⟨left', hleft⟩).symm.trans h
      · rw [readBoundary_brace hskip hletter] at h
        obtain ⟨rfl, hrest⟩ := Prod.mk.inj (Option.some.inj h)
        refine ⟨rest, hrest, List.suffix_refl _, ?_⟩
        cases rest with
        | nil => cases ht.head hrest.symm
        | cons d rest =>
          obtain ⟨rfl, rfl⟩ := List.cons.inj hrest
          exact cuts_boundary_brace hskip hletter hbrace
  · have hplain : ∀ after, cs ≠ '\x7b' :: after := fun after hcs => hopen ⟨after, hcs⟩
    rw [readBoundary_plain hplain] at h
    obtain ⟨rfl, rfl⟩ := Prod.mk.inj (Option.some.inj h)
    refine ⟨rest, rfl, List.suffix_refl _, readBoundary_plain ?_⟩
    rintro after rfl
    exact hplain _ rfl

end

theorem readBoundary_look {a : Escape} (h : readBoundary flags cs = some (a, rest)) :
    ∃ look, a = .look look := by
  unfold readBoundary at h
  dsimp only at h
  split at h
  · split at h
    · cases h
    · split at h
      · split at h
        · split_ifs at h <;> cases h <;> exact ⟨_, rfl⟩
        · cases h
      · cases h
        exact ⟨_, rfl⟩
  · cases h
    exact ⟨_, rfl⟩

theorem cuts_readEscape_letter (tail : List Char) (flags : Flags) (hb : c ≠ 'b') :
    Cuts tail fun cs => readEscape flags (c :: cs) := by
  simp only [readEscape, if_neg hb]
  refine Cuts.ite cuts_none ?_
  iterate 3 refine Cuts.ite (cuts_readHex tail flags _) ?_
  iterate 2 refine Cuts.ite (cuts_readProperty tail flags _) ?_
  refine Cuts.ite ?_ ?_
  · cases letterSet flags c with
    | none => exact cuts_none
    | some set => exact cuts_some _
  · iterate 12 refine Cuts.ite (cuts_some _) ?_
    exact cuts_none

theorem cuts_readEscape {a : Escape} (ht : Closing tail)
    (h : readEscape flags cs = some (a, rest ++ tail))
    (hbrace : ∀ look, a = .look look → ¬ BareBrace flags rest) :
    ∃ short, cs = short ++ tail ∧ rest <:+ short ∧ readEscape flags short = some (a, rest) := by
  cases cs with
  | nil => cases h
  | cons c after =>
    suffices hafter : ∃ short, after = short ++ tail ∧ rest <:+ short ∧
        readEscape flags (c :: short) = some (a, rest) by
      obtain ⟨short, rfl, hsuffix, hread⟩ := hafter
      exact ⟨c :: short, rfl, suffix_cons_of c hsuffix, hread⟩
    by_cases hb : c = 'b'
    · subst hb
      obtain ⟨look, hlook⟩ := readBoundary_look h
      exact cuts_readBoundary ht h (hbrace look hlook)
    · exact cuts_readEscape_letter tail flags hb h

end FlowTally.Pattern
