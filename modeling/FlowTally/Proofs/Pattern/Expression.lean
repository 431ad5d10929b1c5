import FlowTally.Pattern.Reader
import FlowTally.Proofs.Pattern.Class

/-!
# Expressions in front of a closing parenthesis

The reader of an expression takes one item after the other: `Place` is what it carries between
them, `Place.readItem` one item, and `Place.read_item` the reading as a chain of items.

`Place.cutsRead`: a reading that stops in front of a tail, or at a closing parenthesis before it,
is the reading of the text without the tail. An item is a step of the induction (`cuts_readItem`);
the group inside an item is read with less fuel, so its reading is the induction hypothesis.
-/

namespace FlowTally.Pattern

open Text (isBlank)

variable {cs rest tail : List Char} {c : Char} {flags : Flags} {names : List (List Char)} {n : Nat}

-- ---------------------------------------------------------------------------
-- Groups
-- ---------------------------------------------------------------------------

theorem cuts_readFlags {seen : List FlagLetter} {negating : Option Bool} {inner : Flags}
    {stop : FlagsEnd} {isEmpty : Bool}
    (h : readFlags flags seen negating cs = some (inner, stop, isEmpty, rest ++ tail)) :
    ∃ short, cs = short ++ tail ∧ rest <:+ short ∧
      readFlags flags seen negating short = some (inner, stop, isEmpty, rest) := by
  induction cs generalizing flags seen negating with
  | nil => cases h
  | cons c cs ih =>
    rw [readFlags] at h
    split at h
    · rename_i hend
      split at h
      · cases h
      · rename_i hnegating
        cases h
        refine ⟨c :: rest, rfl, List.suffix_cons c rest, ?_⟩
        rw [readFlags, if_pos hend, if_neg hnegating]
    · rename_i hend
      split at h
      · rename_i hminus
        split at h
        · cases h
        · rename_i hnegating
          obtain ⟨short, rfl, hsuffix, hread⟩ := ih h
          refine ⟨c :: short, rfl, suffix_cons_of c hsuffix, ?_⟩
          rw [readFlags, if_neg hend, if_pos hminus, if_neg hnegating, hread]
      · rename_i hminus
        split at h
        · cases h
        · rename_i letter hletter
          split at h
          · cases h
          · rename_i hseen
            obtain ⟨short, rfl, hsuffix, hread⟩ := ih h
            refine ⟨c :: short, rfl, suffix_cons_of c hsuffix, ?_⟩
            rw [readFlags, if_neg hend, if_neg hminus]
            simp only [hletter, if_neg hseen, hread]

theorem cuts_readName (tail : List Char) : Cuts tail readName := by
  intro cs name rest h
  unfold readName at h
  dsimp only at h
  split at h
  · rename_i first others d after htake hdrop
    split at h
    · rename_i hname
      obtain ⟨rfl, rfl⟩ := Prod.mk.inj (Option.some.inj h)
      obtain ⟨short, rfl, hsuffix, hshort⟩ :=
        leaves_dropWhile tail (· != '>') (show _ = (d :: rest) ++ tail from hdrop)
      refine ⟨short, rfl, (List.suffix_cons d rest).trans hsuffix, ?_⟩
      rw [takeWhile_append_of_dropWhile (by simp [hshort])] at htake ⊢
      unfold readName
      simp only [htake, hshort, if_pos hname]
    · cases h
  · cases h

namespace Opening

def left : Opening → List Char
  | .group _ _ rest => rest
  | .flags _ rest => rest

def append (o : Opening) (tail : List Char) : Opening :=
  match o with
  | .group flags names rest => .group flags names (rest ++ tail)
  | .flags flags rest => .flags flags (rest ++ tail)

end Opening

theorem cuts_readNamed {o : Opening} (h : readNamed flags names cs = some (o.append tail)) :
    ∃ short, cs = short ++ tail ∧ o.left <:+ short ∧ readNamed flags names short = some o := by
  obtain ⟨⟨name, left⟩, hname, h⟩ := Option.bind_eq_some_iff.mp h
  dsimp only at h
  split at h
  · cases h
  · rename_i hnew
    cases o with
    | flags here rest => cases h
    | group inner known rest =>
      obtain ⟨rfl, rfl, rfl⟩ := Opening.group.inj (Option.some.inj h)
      obtain ⟨short, rfl, hsuffix, hread⟩ := cuts_readName tail hname
      refine ⟨short, rfl, hsuffix, ?_⟩
      simp only [readNamed, hread, Option.bind_some, if_neg hnew]

def readFlagged (flags : Flags) (names : List (List Char)) (cs : List Char) : Option Opening :=
  match readFlags flags [] none cs with
  | some (inner, .group, _, rest) => some (.group inner names rest)
  | some (here, .here, isEmpty, rest) => if isEmpty then none else some (.flags here rest)
  | none => none

theorem cuts_readFlagged {o : Opening}
    (h : readFlagged flags names cs = some (o.append tail)) :
    ∃ short, cs = short ++ tail ∧ o.left <:+ short ∧ readFlagged flags names short = some o := by
  unfold readFlagged at h
  split at h
  · rename_i inner isEmpty left hflags
    cases o with
    | flags here rest => cases h
    | group inner known rest =>
      obtain ⟨rfl, rfl, rfl⟩ := Opening.group.inj (Option.some.inj h)
      obtain ⟨short, rfl, hsuffix, hread⟩ := cuts_readFlags hflags
      exact ⟨short, rfl, hsuffix, by simp only [readFlagged, hread]⟩
  · rename_i here isEmpty left hflags
    split at h
    · cases h
    · rename_i hempty
      cases o with
      | group inner known rest => cases h
      | flags here rest =>
        obtain ⟨rfl, rfl⟩ := Opening.flags.inj (Option.some.inj h)
        obtain ⟨short, rfl, hsuffix, hread⟩ := cuts_readFlags hflags
        exact ⟨short, rfl, hsuffix, by simp only [readFlagged, hread, if_neg hempty]⟩
  · cases h

/-- The opening is read in front of the tail as it is read alone. -/
def CutsOpening (tail : List Char) (flags : Flags) (names : List (List Char)) (cs : List Char)
    (o : Opening) : Prop :=
  ∃ short, cs = short ++ tail ∧ o.left <:+ short ∧ readOpening flags names short = some o

section

variable {o : Opening} {after : List Char}

theorem cutsOpening_named (hskip : flags.skip cs = '?' :: 'P' :: '<' :: after)
    (h : readNamed flags names after = some (o.append tail)) :
    CutsOpening tail flags names cs o := by
  obtain ⟨short, rfl, hsuffix, hread⟩ := cuts_readNamed h
  obtain ⟨whole, rfl, hwhole, hskipped⟩ :=
    skip_cons (show _ = '?' :: (('P' :: '<' :: short) ++ tail) from hskip)
  refine ⟨whole, rfl, hsuffix.trans ((List.suffix_append ['?', 'P', '<'] short).trans hwhole), ?_⟩
  simp only [readOpening, hskipped, hread]

theorem cutsOpening_angled (hskip : flags.skip cs = '?' :: '<' :: c :: after)
    (hc : ¬ (c = '=' ∨ c = '!')) (h : readNamed flags names (c :: after) = some (o.append tail)) :
    CutsOpening tail flags names cs o := by
  obtain ⟨short, hshort, hsuffix, hread⟩ := cuts_readNamed h
  cases short with
  | nil => cases hread
  | cons d short =>
    obtain ⟨rfl, rfl⟩ := List.cons.inj hshort
    obtain ⟨whole, rfl, hwhole, hskipped⟩ :=
      skip_cons (show _ = '?' :: (('<' :: c :: short) ++ tail) from hskip)
    refine ⟨whole, rfl, hsuffix.trans ((List.suffix_append ['?', '<'] _).trans hwhole), ?_⟩
    simp only [readOpening, hskipped, if_neg hc, hread]

theorem cutsOpening_flagged (hskip : flags.skip cs = '?' :: after)
    (hnamed : ∀ rest, after ≠ 'P' :: '<' :: rest) (hangled : ∀ c rest, after ≠ '<' :: c :: rest)
    (h : readFlagged flags names after = some (o.append tail)) :
    CutsOpening tail flags names cs o := by
  obtain ⟨short, rfl, hsuffix, hread⟩ := cuts_readFlagged h
  obtain ⟨whole, rfl, hwhole, hskipped⟩ := skip_cons hskip
  refine ⟨whole, rfl, hsuffix.trans ((List.suffix_cons _ short).trans hwhole), ?_⟩
  unfold readOpening
  rw [hskipped]
  split
  · rename_i heq
    cases heq
    exact absurd rfl (hnamed _)
  · rename_i heq
    cases heq
    exact absurd rfl (hangled _ _)
  · rename_i heq
    cases heq
    exact hread
  · rename_i hquestion
    exact absurd rfl (hquestion _)

theorem cutsOpening_plain (hleft : flags.skip cs = rest ++ tail)
    (hquestion : ∀ after, flags.skip cs ≠ '?' :: after) :
    CutsOpening tail flags names cs (.group flags names rest) := by
  obtain ⟨whole, rfl, hwhole, hskipped⟩ := leaves_skip tail flags hleft
  refine ⟨whole, rfl, hwhole, ?_⟩
  have hplain (after : List Char) : rest ≠ '?' :: after := by
    rintro rfl
    exact hquestion _ hleft
  unfold readOpening
  rw [hskipped]
  split
  · exact absurd rfl (hplain _)
  · exact absurd rfl (hplain _)
  · exact absurd rfl (hplain _)
  · rfl

theorem cuts_readOpening (h : readOpening flags names cs = some (o.append tail)) :
    CutsOpening tail flags names cs o := by
  unfold readOpening at h
  split at h
  · rename_i hskip
    exact cutsOpening_named hskip h
  · rename_i hskip
    split at h
    · cases h
    · rename_i hc
      exact cutsOpening_angled hskip hc h
  · rename_i after hnamed hangled hskip
    exact cutsOpening_flagged hskip hnamed hangled h
  · rename_i hnamed hangled hquestion
    cases o with
    | flags here rest => cases h
    | group inner known rest =>
      obtain ⟨rfl, rfl, hleft⟩ := Opening.group.inj (Option.some.inj h)
      exact cutsOpening_plain hleft hquestion

end

-- ---------------------------------------------------------------------------
-- Repetitions
-- ---------------------------------------------------------------------------

theorem readDecimal_digit {d n fuel : Nat} {any : Bool} (h : Text.Natural.digit? 10 c = some d) :
    readDecimal flags n any (fuel + 1) (c :: rest) =
      if n * 10 + d < Text.Natural.bound32 then
        readDecimal flags (n * 10 + d) true fuel (flags.skip rest)
      else none := by
  simp only [readDecimal, h]

/-- A number ends where no digit follows, also at the end of the text. -/
theorem readDecimal_end {n fuel : Nat} {any : Bool}
    (h : ∀ c ∈ cs.head?, Text.Natural.digit? 10 c = none) :
    readDecimal flags n any (fuel + 1) cs =
      if any then some (n, flags.skip (cs.dropWhile isBlank)) else none := by
  cases cs with
  | nil => rw [readDecimal, List.dropWhile_nil, skip_nil]
  | cons c rest => simp only [readDecimal, h c rfl]

theorem cutsWith_readDecimal (tail : List Char) (flags : Flags) (n : Nat) (any : Bool) :
    CutsWith tail (readDecimal flags n any) := by
  intro fuel cs count rest h
  induction fuel generalizing n any cs with
  | zero => cases h
  | succ fuel ih =>
    by_cases hend : ∀ c ∈ cs.head?, Text.Natural.digit? 10 c = none
    · rw [readDecimal_end hend] at h
      split at h
      · rename_i hany
        obtain ⟨rfl, hrest⟩ := Prod.mk.inj (Option.some.inj h)
        obtain ⟨between, hbetween, hsuffix, hskipped⟩ := leaves_skip tail flags hrest
        obtain ⟨short, rfl, hsuffix', hdrop⟩ := leaves_dropWhile tail isBlank hbetween
        refine ⟨short, rfl, hsuffix.trans hsuffix', fun m hm => ?_⟩
        obtain ⟨m, rfl⟩ := Nat.exists_eq_add_of_lt hm
        have hshort : ∀ c ∈ short.head?, Text.Natural.digit? 10 c = none := fun c hc =>
          hend c (List.mem_head?_append_of_mem_head? hc)
        rw [readDecimal_end hshort, if_pos hany, hdrop, hskipped]
      · cases h
    · obtain ⟨c, hc, hdigit⟩ : ∃ c ∈ cs.head?, Text.Natural.digit? 10 c ≠ none := by
        push Not at hend
        exact hend
      obtain ⟨after, rfl⟩ := List.head?_eq_some_iff.mp hc
      obtain ⟨d, hd⟩ := Option.ne_none_iff_exists'.mp hdigit
      rw [readDecimal_digit hd] at h
      split at h
      · rename_i hsmall
        obtain ⟨short, hshort, hsuffix, hread⟩ := ih _ _ h
        obtain ⟨whole, rfl, hwhole, hskipped⟩ := leaves_skip tail flags hshort
        refine ⟨c :: whole, rfl, suffix_cons_of c (hsuffix.trans hwhole), fun m hm => ?_⟩
        obtain ⟨m, rfl⟩ := Nat.exists_eq_add_of_lt hm
        have hlength := hwhole.length_le
        rw [readDecimal_digit hd, if_pos hsmall, hskipped]
        exact hread _ (by simp only [List.length_cons]; omega)
      · cases h

theorem cuts_readCount (tail : List Char) (flags : Flags) : Cuts tail (readCount flags) := by
  intro cs count rest h
  obtain ⟨short, hshort, hsuffix, hread⟩ := cutsWith_readDecimal tail flags 0 false h
  obtain ⟨whole, rfl, hwhole, hdrop⟩ := leaves_dropWhile tail isBlank hshort
  refine ⟨whole, rfl, hsuffix.trans hwhole, ?_⟩
  rw [readCount, hdrop]
  exact hread _ (Nat.lt_succ_of_le hwhole.length_le)

section

variable {least bound : Nat} {most : Option Nat} {left after last : List Char}

theorem readBounds_exact
    (hcount : readCount flags (flags.skip cs) = some (least, '\x7d' :: after)) :
    readBounds flags cs = some (least, some least, flags.skip after) := by
  simp only [readBounds, hcount, Option.bind_eq_bind, Option.bind_some, pure]

theorem readBounds_least (hcount : readCount flags (flags.skip cs) = some (least, ',' :: after))
    (hskip : flags.skip after = '\x7d' :: last) :
    readBounds flags cs = some (least, none, flags.skip last) := by
  simp only [readBounds, hcount, hskip, Option.bind_eq_bind, Option.bind_some, pure]

theorem readBounds_both (hcount : readCount flags (flags.skip cs) = some (least, ',' :: after))
    (hbrace : ∀ last, flags.skip after ≠ '\x7d' :: last)
    (hbound : readCount flags (flags.skip after) = some (bound, '\x7d' :: last))
    (hle : least ≤ bound) : readBounds flags cs = some (least, some bound, flags.skip last) := by
  simp only [readBounds, hcount, hbound, Option.bind_eq_bind, Option.bind_some, if_pos hle, pure]

/-- The bounds are one number, a least number, or a least and a greatest one. -/
theorem readBounds_ok (h : readBounds flags cs = some (least, most, rest)) :
    (∃ after, readCount flags (flags.skip cs) = some (least, '\x7d' :: after) ∧
      most = some least ∧ flags.skip after = rest) ∨
    ∃ after, readCount flags (flags.skip cs) = some (least, ',' :: after) ∧
      ((∃ last, flags.skip after = '\x7d' :: last ∧ most = none ∧ flags.skip last = rest) ∨
        ∃ bound last, (∀ last, flags.skip after ≠ '\x7d' :: last) ∧
          readCount flags (flags.skip after) = some (bound, '\x7d' :: last) ∧ least ≤ bound ∧
          most = some bound ∧ flags.skip last = rest) := by
  obtain ⟨⟨count, left⟩, hcount, h⟩ := Option.bind_eq_some_iff.mp h
  dsimp only at h
  split at h
  · rename_i after
    cases h
    exact .inl ⟨after, hcount, rfl, rfl⟩
  · rename_i after
    split at h
    · rename_i last hskip
      cases h
      exact .inr ⟨after, hcount, .inl ⟨last, hskip, rfl, rfl⟩⟩
    · rename_i hbrace
      obtain ⟨⟨bound, left'⟩, hbound, h⟩ := Option.bind_eq_some_iff.mp h
      dsimp only at h
      split at h
      · split at h
        · rename_i last hle
          cases h
          exact .inr ⟨after, hcount, .inr ⟨bound, last, hbrace, hbound, hle, rfl, rfl⟩⟩
        · cases h
      · cases h
  · cases h

/-- The counts are read behind the blanks after the brace or the comma. -/
theorem cuts_readCount_skip (tail : List Char) (flags : Flags) :
    Cuts tail fun cs => readCount flags (flags.skip cs) := by
  intro cs count rest h
  obtain ⟨between, hbetween, hsuffix, hread⟩ := cuts_readCount tail flags h
  obtain ⟨whole, rfl, hwhole, hskipped⟩ := leaves_skip tail flags hbetween
  exact ⟨whole, rfl, hsuffix.trans hwhole, by simp only [hskipped, hread]⟩

theorem cuts_readBounds (h : readBounds flags cs = some (least, most, rest ++ tail)) :
    ∃ short, cs = short ++ tail ∧ rest <:+ short ∧
      readBounds flags short = some (least, most, rest) := by
  obtain ⟨after, hcount, rfl, hrest⟩ |
    ⟨after, hcount, ⟨last, hskip, rfl, hrest⟩ | ⟨bound, last, hbrace, hbound, hle, rfl, hrest⟩⟩ :=
      readBounds_ok h
  · obtain ⟨behind, rfl, hbehind, hskipped⟩ := leaves_skip tail flags hrest
    obtain ⟨whole, rfl, hwhole, hread⟩ :=
      cuts_readCount_skip tail flags (show _ = some (_, ('\x7d' :: behind) ++ tail) from hcount)
    refine ⟨whole, rfl, hbehind.trans ((List.suffix_cons _ behind).trans hwhole), ?_⟩
    rw [readBounds_exact hread, hskipped]
  · obtain ⟨behind, rfl, hbehind, hskipped⟩ := leaves_skip tail flags hrest
    obtain ⟨between, rfl, hbetween, hskippedBrace⟩ := skip_cons hskip
    obtain ⟨whole, rfl, hwhole, hread⟩ :=
      cuts_readCount_skip tail flags (show _ = some (_, (',' :: between) ++ tail) from hcount)
    refine ⟨whole, rfl, ?_, by rw [readBounds_least hread hskippedBrace, hskipped]⟩
    exact hbehind.trans <| (List.suffix_cons _ behind).trans <| hbetween.trans <|
      (List.suffix_cons _ between).trans hwhole
  · obtain ⟨behind, rfl, hbehind, hskipped⟩ := leaves_skip tail flags hrest
    obtain ⟨between, rfl, hbetween, hreadBound⟩ :=
      cuts_readCount_skip tail flags (show _ = some (_, ('\x7d' :: behind) ++ tail) from hbound)
    obtain ⟨whole, rfl, hwhole, hread⟩ :=
      cuts_readCount_skip tail flags (show _ = some (_, (',' :: between) ++ tail) from hcount)
    have hplain (last : List Char) : flags.skip between ≠ '\x7d' :: last := by
      intro hclose
      have hsome : flags.skip between ≠ [] := by simp [hclose]
      exact hbrace (last ++ tail) (by rw [skip_append tail hsome, hclose, List.cons_append])
    refine ⟨whole, rfl, ?_, by rw [readBounds_both hread hplain hreadBound hle, hskipped]⟩
    exact hbehind.trans <| (List.suffix_cons _ behind).trans <| hbetween.trans <|
      (List.suffix_cons _ between).trans hwhole

theorem readBounds_le (h : readBounds flags cs = some (least, most, rest)) :
    ∀ m ∈ most, least ≤ m := by
  obtain ⟨after, -, rfl, -⟩ | ⟨after, -, ⟨last, -, rfl, -⟩ | ⟨bound, last, -, -, hle, rfl, -⟩⟩ :=
    readBounds_ok h
  · rintro m ⟨⟩
    exact Nat.le_refl _
  · rintro m ⟨⟩
  · rintro m ⟨⟩
    exact hle

end

theorem leaves_dropLazy (tail : List Char) : Leaves tail dropLazy := by
  intro cs rest h
  unfold dropLazy at h
  split at h
  · exact ⟨'?' :: rest, by rw [h]; rfl, List.suffix_cons _ _, rfl⟩
  · rename_i hlazy
    subst h
    refine ⟨rest, rfl, List.suffix_refl _, ?_⟩
    unfold dropLazy
    split
    · rename_i after
      exact absurd rfl (hlazy (after ++ tail))
    · rfl

-- ---------------------------------------------------------------------------
-- One item
-- ---------------------------------------------------------------------------

/-- What the reader of an expression carries from one item to the next. -/
structure Place where
  flags : Flags
  names : List (List Char)
  branches : List (Regex × Nat)
  parts : List Part

namespace Place

def add (p : Place) (part : Part) : Place := { p with parts := part :: p.parts }

def repeated (p : Place) (least : Nat) (most : Option Nat) (rest : List Char) :
    Option (Place × List Char) :=
  (repeatLast least most p.parts).map fun parts => ({ p with parts }, dropLazy rest)

def answer (p : Place) : Regex × Nat := alternatives (sequence p.parts :: p.branches)

def read (n : Nat) (p : Place) (cs : List Char) :
    Option ((Regex × Nat) × List (List Char) × List Char) :=
  readExpression n p.flags p.names p.branches p.parts cs

def readGroup (n : Nat) (p : Place) (cs : List Char) : Option (Place × List Char) :=
  match readOpening p.flags p.names cs with
  | some (.flags here rest) => some ({ p.add ⟨none, 0⟩ with flags := here }, rest)
  | some (.group inner names rest) =>
    match readExpression n inner names [] [] rest with
    | some ((body, height), names, ')' :: rest) =>
      some ({ p.add ⟨some body, height + 1⟩ with names }, rest)
    | _ => none
  | none => none

def readSet (n : Nat) (p : Place) (cs : List Char) : Option (Place × List Char) :=
  let (negated, start, rest) := openClass p.flags cs
  (readClass p.flags n negated start rest).map fun (set, height, rest) =>
    (p.add ⟨some (.set set), height⟩, rest)

def readEscaped (p : Place) (cs : List Char) : Option (Place × List Char) :=
  (readEscape p.flags cs).bind fun (escape, rest) =>
    (ofEscape p.flags escape).map fun r => (p.add ⟨some r, 0⟩, rest)

def readBounded (p : Place) (cs : List Char) : Option (Place × List Char) :=
  (readBounds p.flags cs).bind fun (least, most, rest) => p.repeated least most rest

/-- What a character stands for that opens nothing and repeats nothing. -/
def symbol (p : Place) (c : Char) : Option Regex :=
  if c = '.' then dot p.flags
  else if c = '^' then some (.look (startLook p.flags))
  else if c = '$' then some (.look (endLook p.flags))
  else some (literal p.flags c)

def readPlain (p : Place) (c : Char) (cs : List Char) : Option (Place × List Char) :=
  if c = '|' then some ({ p with branches := sequence p.parts :: p.branches, parts := [] }, cs)
  else if c = '?' then p.repeated 0 (some 1) cs
  else if c = '*' then p.repeated 0 none cs
  else if c = '+' then p.repeated 1 none cs
  else if c = '\x7b' then p.readBounded cs
  else (p.symbol c).map fun r => (p.add ⟨some r, 0⟩, cs)

/-- One item of an expression: what the reader goes on with, and where. -/
def readItem (n : Nat) (p : Place) (cs : List Char) : Option (Place × List Char) :=
  match p.flags.skip cs with
  | [] => none
  | '(' :: rest => p.readGroup n rest
  | '[' :: rest => p.readSet n rest
  | '\\' :: rest => p.readEscaped rest
  | c :: rest => p.readPlain c rest

def AtEnd (cs : List Char) : Prop := cs = [] ∨ ∃ rest, cs = ')' :: rest

theorem read_end {p : Place} (h : AtEnd (p.flags.skip cs)) :
    p.read (n + 1) cs = some (p.answer, p.names, p.flags.skip cs) := by
  obtain h | ⟨rest, h⟩ := h <;> simp only [read, readExpression, h, answer]

def goOn (n : Nat) (next : Place × List Char) :
    Option ((Regex × Nat) × List (List Char) × List Char) := next.1.read n next.2

theorem read_group {p : Place} (h : p.flags.skip cs = '(' :: rest) :
    p.read (n + 1) cs = (p.readGroup n rest).bind (goOn n) := by
  simp only [read, readExpression, h, readGroup]
  cases readOpening p.flags p.names rest with
  | none => rfl
  | some o =>
    cases o with
    | flags here left => rfl
    | group inner names left =>
      dsimp only
      cases readExpression n inner names [] [] left with
      | none => rfl
      | some found =>
        obtain ⟨⟨body, height⟩, known, left⟩ := found
        cases left with
        | nil => rfl
        | cons d left =>
          by_cases hd : d = ')'
          · subst hd
            rfl
          · simp [hd]

theorem read_set {p : Place} (h : p.flags.skip cs = '[' :: rest) :
    p.read (n + 1) cs = (p.readSet n rest).bind (goOn n) := by
  simp only [read, readExpression, h, readSet]
  cases readClass p.flags n (openClass p.flags rest).1 (openClass p.flags rest).2.1
    (openClass p.flags rest).2.2 <;> rfl

theorem read_escaped {p : Place} (h : p.flags.skip cs = '\\' :: rest) :
    p.read (n + 1) cs = (p.readEscaped rest).bind (goOn n) := by
  simp only [read, readExpression, h, readEscaped]
  cases readEscape p.flags rest with
  | none => rfl
  | some found =>
    dsimp only [Option.bind_some]
    cases ofEscape p.flags found.1 <;> rfl

theorem bind_repeated (p : Place) (least : Nat) (most : Option Nat) :
    (p.repeated least most cs).bind (goOn n) =
      match repeatLast least most p.parts with
      | some parts => readExpression n p.flags p.names p.branches parts (dropLazy cs)
      | none => none := by
  unfold repeated
  cases repeatLast least most p.parts <;> rfl

theorem bind_readBounded (p : Place) :
    (p.readBounded cs).bind (goOn n) = (readBounds p.flags cs).bind fun (least, most, rest) =>
      (p.repeated least most rest).bind (goOn n) := by
  unfold readBounded
  cases readBounds p.flags cs <;> rfl

theorem bind_symbol (p : Place) (r : Option Regex) :
    (r.map fun r => (p.add ⟨some r, 0⟩, cs)).bind (goOn n) =
      match r with
      | some r => readExpression n p.flags p.names p.branches (⟨some r, 0⟩ :: p.parts) cs
      | none => none := by
  cases r <;> rfl

theorem read_plain {p : Place} (h : p.flags.skip cs = c :: rest)
    (hopen : c ∉ [')', '(', '[', '\\']) :
    p.read (n + 1) cs = (p.readPlain c rest).bind (goOn n) := by
  simp only [read, readExpression, h]
  split
  case h_1 heq => cases heq
  case h_2 heq =>
    cases heq
    exact absurd (by decide) hopen
  case h_4 heq =>
    cases heq
    exact absurd (by decide) hopen
  case h_5 heq =>
    cases heq
    exact absurd (by decide) hopen
  case h_10 heq =>
    cases heq
    exact absurd (by decide) hopen
  case h_3 heq =>
    cases heq
    rfl
  case h_6 heq =>
    cases heq
    exact (bind_repeated ..).symm
  case h_7 heq =>
    cases heq
    exact (bind_repeated ..).symm
  case h_8 heq =>
    cases heq
    exact (bind_repeated ..).symm
  case h_9 heq =>
    cases heq
    refine Eq.trans ?_ (bind_readBounded p).symm
    simp only [bind_repeated]
    cases readBounds p.flags rest <;> rfl
  case h_11 heq =>
    cases heq
    exact (bind_symbol ..).symm
  case h_12 heq =>
    cases heq
    rfl
  case h_13 heq =>
    cases heq
    rfl
  case h_14 hnoClose hbar hnoGroup hnoSet hmaybe hmany hplus hbrace hnoEscape hdot hstart hend heq =>
    cases heq
    rw [readPlain, if_neg hbar, if_neg hmaybe, if_neg hmany, if_neg hplus, if_neg hbrace, symbol,
      if_neg hdot, if_neg hstart, if_neg hend]
    rfl

theorem read_item {p : Place} (h : ¬ AtEnd (p.flags.skip cs)) :
    p.read (n + 1) cs = (p.readItem n cs).bind (goOn n) := by
  unfold readItem
  split
  · rename_i hskip
    exact absurd (.inl hskip) h
  · rename_i hskip
    exact read_group hskip
  · rename_i hskip
    exact read_set hskip
  · rename_i hskip
    exact read_escaped hskip
  · rename_i c rest hgroup hset hescape hskip
    have hclose : c ≠ ')' := by
      rintro rfl
      exact h (.inr ⟨rest, hskip⟩)
    exact read_plain hskip (by simp_all)

def CutsRead (tail : List Char) (n : Nat) : Prop :=
  ∀ ⦃p : Place⦄ ⦃cs : List Char⦄ ⦃answer : Regex × Nat⦄ ⦃names : List (List Char)⦄
    ⦃rest : List Char⦄, p.read n cs = some (answer, names, rest ++ tail) →
    ∃ short, cs = short ++ tail ∧ rest <:+ short ∧
      ∀ m, short.length < m → p.read m short = some (answer, names, rest)

theorem readBounds_closing (ht : Closing tail) (h : flags.skip cs = []) :
    readBounds flags (cs ++ tail) = none := by
  have hcount : readCount flags (flags.skip (cs ++ tail)) = none := by
    obtain hskip | hskip := skip_closing ht h
    · rw [hskip]
      rfl
    · rw [hskip]
      obtain rfl | rfl := ht
      · rfl
      · have hdrop : List.dropWhile isBlank [')', '$'] = [')', '$'] := by decide
        have hdigit : Text.Natural.digit? 10 ')' = none := by decide
        rw [readCount, hdrop]
        simp [readDecimal, hdigit]
  simp only [readBounds, hcount, Option.bind_eq_bind, Option.bind_none]

theorem read_bareBrace {p : Place} (ht : Closing tail) (h : BareBrace p.flags rest) :
    p.read n (rest ++ tail) = none := by
  obtain ⟨after, rfl, hafter⟩ := h
  have hskip : p.flags.skip ('\x7b' :: after ++ tail) = '\x7b' :: (after ++ tail) :=
    skip_cons_self (by decide) (by decide)
  cases n with
  | zero => rfl
  | succ n =>
    have hplain : p.readPlain '\x7b' (after ++ tail) = p.readBounded (after ++ tail) := rfl
    rw [read_plain hskip (by decide), hplain, readBounded, readBounds_closing ht hafter]
    rfl

theorem cuts_repeated (tail : List Char) (p : Place) (least : Nat) (most : Option Nat) :
    Cuts tail (p.repeated least most) := by
  intro cs next rest h
  obtain ⟨parts, hparts, h⟩ := Option.map_eq_some_iff.mp h
  obtain ⟨rfl, hrest⟩ := Prod.mk.inj h
  obtain ⟨short, rfl, hsuffix, hlazy⟩ := leaves_dropLazy tail hrest
  refine ⟨short, rfl, hsuffix, ?_⟩
  rw [repeated, hparts, Option.map_some, hlazy]

theorem cuts_readBounded (tail : List Char) (p : Place) : Cuts tail p.readBounded := by
  intro cs next rest h
  obtain ⟨⟨least, most, left⟩, hbounds, h⟩ := Option.bind_eq_some_iff.mp h
  obtain ⟨short, rfl, hsuffix, hread⟩ := cuts_repeated tail p least most h
  obtain ⟨whole, rfl, hwhole, hreadBounds⟩ := cuts_readBounds hbounds
  refine ⟨whole, rfl, hsuffix.trans hwhole, ?_⟩
  simp only [readBounded, hreadBounds, Option.bind_some, hread]

theorem cuts_readPlain (tail : List Char) (p : Place) (c : Char) : Cuts tail (p.readPlain c) := by
  refine Cuts.ite (cuts_some _) ?_
  iterate 3 refine Cuts.ite (cuts_repeated tail p _ _) ?_
  refine Cuts.ite (cuts_readBounded tail p) ?_
  cases p.symbol c with
  | none => exact cuts_none
  | some r => exact cuts_some _

variable {p next : Place}

theorem cuts_readEscaped (ht : Closing tail) (h : p.readEscaped cs = some (next, rest ++ tail))
    (hgo : goOn n (next, rest ++ tail) ≠ none) :
    ∃ short, cs = short ++ tail ∧ rest <:+ short ∧ p.readEscaped short = some (next, rest) := by
  obtain ⟨⟨escape, left⟩, hescape, h⟩ := Option.bind_eq_some_iff.mp h
  obtain ⟨r, hr, h⟩ := Option.map_eq_some_iff.mp h
  cases h
  obtain ⟨short, rfl, hsuffix, hread⟩ := cuts_readEscape ht hescape fun look _ hbrace =>
    hgo (read_bareBrace ht hbrace)
  refine ⟨short, rfl, hsuffix, ?_⟩
  simp only [readEscaped, hread, Option.bind_some, hr, Option.map_some]

theorem cuts_readSet (ht : Closing tail) (h : p.readSet n cs = some (next, rest ++ tail)) :
    ∃ short, cs = short ++ tail ∧ rest <:+ short ∧
      ∀ m, short.length < m → p.readSet m short = some (next, rest) := by
  unfold readSet at h
  generalize hopen : openClass p.flags cs = opened at h
  obtain ⟨negated, start, inside⟩ := opened
  obtain ⟨⟨set, height, left⟩, hclass, h⟩ := Option.map_eq_some_iff.mp h
  cases h
  obtain ⟨members, rfl, hsuffix, hread⟩ := cuts_readClass ht hclass
  obtain ⟨short, rfl, hopened, hreadOpen⟩ := cuts_openClass hopen
  refine ⟨short, rfl, hsuffix.trans hopened, fun m hm => ?_⟩
  have hlength := hopened.length_le
  simp only [readSet, hreadOpen, hread m (by omega), Option.map_some]

theorem cuts_readGroup (hcuts : CutsRead tail n)
    (h : p.readGroup n cs = some (next, rest ++ tail)) :
    ∃ short, cs = short ++ tail ∧ rest <:+ short ∧
      ∀ m, short.length < m → p.readGroup m short = some (next, rest) := by
  unfold readGroup at h
  split at h
  · rename_i here left hopen
    cases h
    obtain ⟨short, rfl, hsuffix, hread⟩ := cuts_readOpening (o := .flags here rest) hopen
    exact ⟨short, rfl, hsuffix, fun m _ => by simp only [readGroup, hread]⟩
  · rename_i inner known left hopen
    split at h
    · rename_i body height names left' hinner
      cases h
      obtain ⟨inside, rfl, hinside, hreadInside⟩ :=
        hcuts (p := ⟨inner, known, [], []⟩) (show _ = some (_, _, (')' :: rest) ++ tail) from hinner)
      obtain ⟨short, rfl, hsuffix, hread⟩ := cuts_readOpening (o := .group inner known inside) hopen
      refine ⟨short, rfl, (List.suffix_cons _ rest).trans (hinside.trans hsuffix), fun m hm => ?_⟩
      have hlength : inside.length ≤ short.length := hsuffix.length_le
      have hbody : readExpression m inner known [] [] inside =
          some ((body, height), names, ')' :: rest) := hreadInside m (by omega)
      simp only [readGroup, hread, hbody]
    · cases h
  · cases h

/-- A step behind one character. -/
theorem readItem_behind {after : List Char} (hskip : p.flags.skip cs = c :: (after ++ tail))
    (hsuffix : rest <:+ after)
    (hitem : ∀ m whole, p.flags.skip whole = c :: after → after.length < m →
      p.readItem m whole = some (next, rest)) :
    ∃ short, cs = short ++ tail ∧ rest <:+ short ∧ rest.length < short.length ∧
      ∀ m, short.length ≤ m → p.readItem m short = some (next, rest) := by
  obtain ⟨whole, rfl, hwhole, hskipped⟩ := skip_cons hskip
  have hlength := hwhole.length_le
  have hlength' := hsuffix.length_le
  rw [List.length_cons] at hlength
  exact ⟨whole, rfl, (suffix_cons_of c hsuffix).trans hwhole, by omega,
    fun m hm => hitem m whole hskipped (by omega)⟩

theorem cuts_readItem (ht : Closing tail) (hcuts : CutsRead tail n)
    (h : p.readItem n cs = some (next, rest ++ tail)) (hgo : goOn n (next, rest ++ tail) ≠ none) :
    ∃ short, cs = short ++ tail ∧ rest <:+ short ∧ rest.length < short.length ∧
      ∀ m, short.length ≤ m → p.readItem m short = some (next, rest) := by
  unfold readItem at h
  split at h
  · cases h
  · rename_i hskip
    obtain ⟨short, rfl, hsuffix, hread⟩ := cuts_readGroup hcuts h
    exact readItem_behind hskip hsuffix fun m whole hskipped hm => by
      simp only [readItem, hskipped, hread m hm]
  · rename_i hskip
    obtain ⟨short, rfl, hsuffix, hread⟩ := cuts_readSet ht h
    exact readItem_behind hskip hsuffix fun m whole hskipped hm => by
      simp only [readItem, hskipped, hread m hm]
  · rename_i hskip
    obtain ⟨short, rfl, hsuffix, hread⟩ := cuts_readEscaped ht h hgo
    exact readItem_behind hskip hsuffix fun m whole hskipped _ => by
      simp only [readItem, hskipped, hread]
  · rename_i hgroup hset hescape hskip
    obtain ⟨short, rfl, hsuffix, hread⟩ := cuts_readPlain tail p _ h
    exact readItem_behind hskip hsuffix fun m whole hskipped _ => by
      simp [readItem, *]

theorem readItem_nil {p : Place} (h : p.flags.skip cs = []) : p.readItem n cs = none := by
  simp only [readItem, h]

/-- A reading without the tail needs no more fuel than one unit for each character and one for the
end. -/
theorem cutsRead (ht : Closing tail) (n : Nat) : CutsRead tail n := by
  induction n with
  | zero => exact nofun
  | succ n ih =>
    intro p cs answer names rest h
    by_cases hend : AtEnd (p.flags.skip cs)
    · rw [read_end hend] at h
      obtain ⟨rfl, hleft⟩ := Prod.mk.inj (Option.some.inj h)
      obtain ⟨rfl, hskip⟩ := Prod.mk.inj hleft
      obtain ⟨short, rfl, hsuffix, hskipped⟩ := leaves_skip tail p.flags hskip
      have hrest : AtEnd rest := by
        cases rest with
        | nil => exact .inl rfl
        | cons c rest =>
          rw [hskip] at hend
          obtain hend | ⟨left, hend⟩ := hend
          · cases hend
          · exact .inr ⟨rest, by rw [(List.cons.inj hend).1]⟩
      refine ⟨short, rfl, hsuffix, fun m hm => ?_⟩
      obtain ⟨m, rfl⟩ := Nat.exists_eq_add_of_lt hm
      rw [read_end (by rwa [hskipped]), hskipped]
    · rw [read_item hend] at h
      obtain ⟨⟨next, left⟩, hitem, h⟩ := Option.bind_eq_some_iff.mp h
      obtain ⟨short, rfl, hsuffix, hread⟩ := ih h
      have hgo : next.read n (short ++ tail) ≠ none := fun hnone => by cases hnone.symm.trans h
      obtain ⟨whole, rfl, hwhole, hlength, hreadItem⟩ := cuts_readItem ht ih hitem hgo
      refine ⟨whole, rfl, hsuffix.trans hwhole, fun m hm => ?_⟩
      obtain ⟨m, rfl⟩ := Nat.exists_eq_add_of_lt hm
      have hitem := hreadItem (whole.length + m) (by omega)
      have hsome : p.flags.skip whole ≠ [] := fun hnil => by
        cases (readItem_nil hnil).symm.trans hitem
      rw [read_item, hitem, Option.bind_some]
      · exact hread _ (by omega)
      · rintro (hnil | ⟨after, hclose⟩)
        · exact hsome hnil
        · exact hend (.inr ⟨after ++ tail, by rw [skip_append tail hsome, hclose]; rfl⟩)

end Place

end FlowTally.Pattern
