import FlowTally.Proofs.Pattern.Cut

/-!
# Classes in front of a closing parenthesis

`cuts_readClass`: a class between brackets is read in front of a tail as it is read without it. A
member needs a character behind it, which a class that closes always has: at a tail that starts
with a closing parenthesis, an open class stays open (`readClass_closing`).
-/

namespace FlowTally.Pattern

open Text (isBlank)

variable {cs rest tail : List Char} {c : Char} {flags : Flags} {n : Nat}

-- ---------------------------------------------------------------------------
-- Members
-- ---------------------------------------------------------------------------

theorem cuts_readMember {a : Escape} (ht : Closing tail)
    (h : readMember flags cs = some (a, rest ++ tail))
    (hbrace : ∀ look, a = .look look → ¬ BareBrace flags rest) :
    ∃ c short, cs = c :: (short ++ tail) ∧ rest <:+ short ∧
      readMember flags (c :: short) = some (a, rest) := by
  unfold readMember at h
  split at h
  · cases h
  · rename_i after
    obtain ⟨short, rfl, hsuffix, hread⟩ := cuts_readEscape ht h hbrace
    exact ⟨'\\', short, rfl, hsuffix, hread⟩
  · rename_i c after hslash
    obtain ⟨rfl, rfl⟩ := Prod.mk.inj (Option.some.inj h)
    refine ⟨c, rest, rfl, List.suffix_refl _, ?_⟩
    unfold readMember
    split
    · rename_i heq
      cases heq
    · rename_i heq
      exact absurd (List.cons.inj heq).1 hslash
    · rename_i heq
      cases heq
      rfl

/-- A condition is no member, so its look ahead does not matter. -/
theorem cuts_readMember_plain {a : Escape} (ht : Closing tail)
    (h : readMember flags cs = some (a, rest ++ tail)) (hplain : ∀ look, a ≠ .look look) :
    ∃ c short, cs = c :: (short ++ tail) ∧ rest <:+ short ∧
      readMember flags (c :: short) = some (a, rest) :=
  cuts_readMember ht h fun look ha => absurd ha (hplain look)

def singleSet? (flags : Flags) : Escape → Option CharSet
  | .set set => some set
  | .look _ => none
  | other => (memberNumber? flags other).map fun n => .range n n

theorem singleSet?_plain {first : Escape} {set : CharSet} (h : singleSet? flags first = some set) :
    ∀ look, first ≠ .look look := by
  rintro look rfl
  cases h

theorem memberNumber?_plain {first : Escape} {n : Nat} (h : memberNumber? flags first = some n) :
    ∀ look, first ≠ .look look := by
  rintro look rfl
  cases h

def readRangeEnd (flags : Flags) (first : Escape) (cs : List Char) : Option (CharSet × List Char) :=
  (readMember flags cs).bind fun (last, rest) =>
    (memberNumber? flags first).bind fun low => (memberNumber? flags last).bind fun high =>
      if low ≤ high then some (.range low high, rest) else none

/-- What follows a minus sign that makes no range. -/
def EndsMember (cs : List Char) : Prop := ∃ rest, cs = ']' :: rest ∨ cs = '-' :: rest

theorem EndsMember.ne_nil (h : EndsMember cs) : cs ≠ [] := by
  obtain ⟨rest, rfl | rfl⟩ := h <;> exact List.cons_ne_nil _ _

theorem readMemberOrRange_eq (flags : Flags) (cs : List Char) :
    readMemberOrRange flags cs = (readMember flags cs).bind fun (first, left) =>
      match flags.skip left with
      | [] => none
      | '-' :: after =>
        match flags.skip after with
        | [] => none
        | ']' :: _ => (singleSet? flags first).map (·, flags.skip left)
        | '-' :: _ => (singleSet? flags first).map (·, flags.skip left)
        | after => readRangeEnd flags first after
      | _ => (singleSet? flags first).map (·, flags.skip left) := by
  rw [readMemberOrRange]
  refine Option.bind_congr fun (first, left) _ => ?_
  cases first <;> simp only [singleSet?, Option.map_map] <;> rfl

section

variable {first : Escape} {left after : List Char} {set : CharSet}

theorem readMemberOrRange_single (hread : readMember flags cs = some (first, left))
    (hsome : flags.skip left ≠ []) (hminus : ∀ after, flags.skip left ≠ '-' :: after) :
    readMemberOrRange flags cs = (singleSet? flags first).map (·, flags.skip left) := by
  rw [readMemberOrRange_eq, hread, Option.bind_some]
  dsimp only
  split
  · rename_i hnil
    exact absurd hnil hsome
  · rename_i hskip
    exact absurd hskip (hminus _)
  · rfl

theorem readMemberOrRange_minus (hread : readMember flags cs = some (first, left))
    (hskip : flags.skip left = '-' :: after) (hends : EndsMember (flags.skip after)) :
    readMemberOrRange flags cs = (singleSet? flags first).map (·, '-' :: after) := by
  rw [readMemberOrRange_eq, hread, Option.bind_some]
  obtain ⟨next, hnext | hnext⟩ := hends
  · simp only [hskip, hnext]
  · simp only [hskip, hnext]

theorem readMemberOrRange_range (hread : readMember flags cs = some (first, left))
    (hskip : flags.skip left = '-' :: after) (hgoes : ¬ EndsMember (flags.skip after)) :
    readMemberOrRange flags cs = readRangeEnd flags first (flags.skip after) := by
  rw [readMemberOrRange_eq, hread, Option.bind_some]
  simp only [hskip]
  split
  · rename_i hnil
    rw [hnil]
    rfl
  · rename_i hnext
    exact absurd ⟨_, .inl hnext⟩ hgoes
  · rename_i hnext
    exact absurd ⟨_, .inr hnext⟩ hgoes
  · rfl

theorem readMemberOrRange_nil (hread : readMember flags cs = some (first, left))
    (hskip : flags.skip left = []) : readMemberOrRange flags cs = none := by
  rw [readMemberOrRange_eq, hread, Option.bind_some]
  simp only [hskip]

theorem cuts_single (ht : Closing tail) (hread : readMember flags cs = some (first, left))
    (hset : singleSet? flags first = some set) (hleft : flags.skip left = rest ++ tail)
    (hrest : rest ≠ []) (hminus : ∀ after, flags.skip left ≠ '-' :: after) :
    ∃ c short, cs = c :: (short ++ tail) ∧ rest <:+ short ∧
      readMemberOrRange flags (c :: short) = some (set, rest) := by
  obtain ⟨short, rfl, hsuffix, hskipped⟩ := leaves_skip tail flags hleft
  obtain ⟨c, whole, rfl, hwhole, hread⟩ := cuts_readMember_plain ht hread (singleSet?_plain hset)
  refine ⟨c, whole, rfl, hsuffix.trans hwhole, ?_⟩
  rw [readMemberOrRange_single hread, hset, Option.map_some, hskipped]
  · rwa [hskipped]
  · intro after hafter
    rw [hskipped] at hafter
    subst hafter
    exact hminus _ hleft

/-- What follows the minus sign is no closing parenthesis, so it is not the tail's. -/
theorem EndsMember.of_append (ht : Closing tail) (h : EndsMember (flags.skip (cs ++ tail))) :
    EndsMember (flags.skip cs) := by
  cases hskip : flags.skip cs with
  | nil =>
    obtain ⟨rest, h | h⟩ := h
    · cases head_of_skip ht hskip h
    · cases head_of_skip ht hskip h
  | cons c found =>
    rw [skip_append tail (by simp [hskip]), hskip] at h
    obtain ⟨rest, h | h⟩ := h
    · exact ⟨found, .inl (by rw [(List.cons.inj h).1])⟩
    · exact ⟨found, .inr (by rw [(List.cons.inj h).1])⟩

theorem EndsMember.append (h : EndsMember (flags.skip cs)) (tail : List Char) :
    EndsMember (flags.skip (cs ++ tail)) := by
  rw [skip_append tail h.ne_nil]
  obtain ⟨rest, h | h⟩ := h
  · exact ⟨rest ++ tail, .inl (by rw [h, List.cons_append])⟩
  · exact ⟨rest ++ tail, .inr (by rw [h, List.cons_append])⟩

theorem cuts_minus (ht : Closing tail) (hread : readMember flags cs = some (first, left))
    (hset : singleSet? flags first = some set) (hskip : flags.skip left = '-' :: after)
    (hends : EndsMember (flags.skip after)) (hafter : '-' :: after = rest ++ tail)
    (hrest : rest ≠ []) :
    ∃ c short, cs = c :: (short ++ tail) ∧ rest <:+ short ∧
      readMemberOrRange flags (c :: short) = some (set, rest) := by
  obtain ⟨d, rest, rfl⟩ := List.exists_cons_of_ne_nil hrest
  obtain ⟨rfl, rfl⟩ := List.cons.inj hafter
  obtain ⟨short, rfl, hsuffix, hskipped⟩ := skip_cons hskip
  obtain ⟨c, whole, rfl, hwhole, hread⟩ := cuts_readMember_plain ht hread (singleSet?_plain hset)
  refine ⟨c, whole, rfl, hsuffix.trans hwhole, ?_⟩
  rw [readMemberOrRange_minus hread hskipped (hends.of_append ht), hset, Option.map_some]

theorem readRangeEnd_ok (h : readRangeEnd flags first cs = some (set, rest)) :
    ∃ last low high, readMember flags cs = some (last, rest) ∧
      memberNumber? flags first = some low ∧ memberNumber? flags last = some high ∧
      low ≤ high ∧ set = .range low high := by
  obtain ⟨⟨last, left⟩, hlast, h⟩ := Option.bind_eq_some_iff.mp h
  obtain ⟨low, hlow, h⟩ := Option.bind_eq_some_iff.mp h
  obtain ⟨high, hhigh, h⟩ := Option.bind_eq_some_iff.mp h
  split at h
  · rename_i hle
    cases h
    exact ⟨last, low, high, hlast, hlow, hhigh, hle, rfl⟩
  · cases h

theorem cuts_range (ht : Closing tail) (hread : readMember flags cs = some (first, left))
    (hskip : flags.skip left = '-' :: after) (hgoes : ¬ EndsMember (flags.skip after))
    (hend : readRangeEnd flags first (flags.skip after) = some (set, rest ++ tail)) :
    ∃ c short, cs = c :: (short ++ tail) ∧ rest <:+ short ∧
      readMemberOrRange flags (c :: short) = some (set, rest) := by
  obtain ⟨last, low, high, hlast, hlow, hhigh, hle, rfl⟩ := readRangeEnd_ok hend
  obtain ⟨d, short, hnext, hsuffix, hreadLast⟩ :=
    cuts_readMember_plain ht hlast (memberNumber?_plain hhigh)
  obtain ⟨between, rfl, hbetween, hskippedLast⟩ := skip_cons hnext
  obtain ⟨short', rfl, hsuffix', hskipped⟩ := skip_cons hskip
  obtain ⟨c, whole, rfl, hwhole, hread⟩ :=
    cuts_readMember_plain ht hread (memberNumber?_plain hlow)
  have hrest : rest <:+ short' := (suffix_cons_of d hsuffix).trans <| hbetween.trans <|
    (List.suffix_cons _ _).trans hsuffix'
  refine ⟨c, whole, rfl, hrest.trans hwhole, ?_⟩
  rw [readMemberOrRange_range hread hskipped fun hends => hgoes (hends.append tail), hskippedLast]
  simp only [readRangeEnd, hreadLast, hlow, hhigh, Option.bind_some, if_pos hle]

end

/-- With a character left behind it, a member or a range. -/
theorem cuts_readMemberOrRange {set : CharSet} (ht : Closing tail)
    (h : readMemberOrRange flags cs = some (set, rest ++ tail)) (hrest : rest ≠ []) :
    ∃ c short, cs = c :: (short ++ tail) ∧ rest <:+ short ∧
      readMemberOrRange flags (c :: short) = some (set, rest) := by
  cases hread : readMember flags cs with
  | none =>
    rw [readMemberOrRange_eq, hread] at h
    cases h
  | some found =>
    obtain ⟨first, left⟩ := found
    by_cases hnil : flags.skip left = []
    · cases (readMemberOrRange_nil hread hnil).symm.trans h
    by_cases hminus : ∃ after, flags.skip left = '-' :: after
    · obtain ⟨after, hskip⟩ := hminus
      by_cases hends : EndsMember (flags.skip after)
      · rw [readMemberOrRange_minus hread hskip hends] at h
        obtain ⟨single, hset, h⟩ := Option.map_eq_some_iff.mp h
        obtain ⟨rfl, hafter⟩ := Prod.mk.inj h
        exact cuts_minus ht hread hset hskip hends hafter hrest
      · rw [readMemberOrRange_range hread hskip hends] at h
        exact cuts_range ht hread hskip hends h
    · have hplain : ∀ after, flags.skip left ≠ '-' :: after := fun after hskip =>
        hminus ⟨after, hskip⟩
      rw [readMemberOrRange_single hread hnil hplain] at h
      obtain ⟨single, hset, h⟩ := Option.map_eq_some_iff.mp h
      obtain ⟨rfl, hleft⟩ := Prod.mk.inj h
      exact cuts_single ht hread hset hleft hrest hplain

-- ---------------------------------------------------------------------------
-- Sets by name
-- ---------------------------------------------------------------------------

def readAsciiName (negated : Bool) (cs : List Char) : Option (CharSet × List Char) :=
  match cs.dropWhile (· != ':') with
  | ':' :: ']' :: after =>
    (asciiSet? (String.ofList (cs.takeWhile (· != ':')))).map fun set =>
      (if negated then .negation set else set, after)
  | _ => none

theorem readAsciiClass_plain (h : ∀ rest, cs ≠ '^' :: rest) :
    readAsciiClass (':' :: cs) = readAsciiName false cs := by
  simp only [readAsciiClass]
  rfl

theorem takeWhile_append_of_dropWhile {p : Char → Bool} (h : cs.dropWhile p ≠ []) :
    (cs ++ tail).takeWhile p = cs.takeWhile p := by
  rw [List.takeWhile_append, if_neg]
  intro hlength
  have hall := congrArg List.length (List.takeWhile_append_dropWhile (p := p) (l := cs))
  rw [List.length_append, hlength] at hall
  exact h (List.length_eq_zero_iff.mp (Nat.left_eq_add.mp hall.symm))

theorem cuts_readAsciiName (tail : List Char) (negated : Bool) :
    Cuts tail (readAsciiName negated) := by
  intro cs set rest h
  unfold readAsciiName at h
  split at h
  · rename_i after hdrop
    obtain ⟨found, hfound, h⟩ := Option.map_eq_some_iff.mp h
    obtain ⟨rfl, rfl⟩ := Prod.mk.inj h
    obtain ⟨short, rfl, hsuffix, hshort⟩ :=
      leaves_dropWhile tail (· != ':') (show _ = (':' :: ']' :: rest) ++ tail from hdrop)
    refine ⟨short, rfl, (List.suffix_append [':', ']'] rest).trans hsuffix, ?_⟩
    rw [takeWhile_append_of_dropWhile (by simp [hshort])] at hfound
    unfold readAsciiName
    simp only [hshort, hfound, Option.map_some]
  · cases h

theorem readAsciiName_append {negated : Bool} {set : CharSet}
    (h : readAsciiName negated cs = some (set, rest)) :
    readAsciiName negated (cs ++ tail) = some (set, rest ++ tail) := by
  unfold readAsciiName at h ⊢
  split at h
  · rename_i after hdrop
    obtain ⟨found, hfound, h⟩ := Option.map_eq_some_iff.mp h
    obtain ⟨rfl, rfl⟩ := Prod.mk.inj h
    have hsome : cs.dropWhile (· != ':') ≠ [] := by simp [hdrop]
    rw [takeWhile_append_of_dropWhile hsome, List.dropWhile_append, if_neg (by simp [hdrop]), hdrop]
    simp only [hfound, List.cons_append, Option.map_some]
  · cases h

theorem cuts_readAsciiClass (tail : List Char) : Cuts tail readAsciiClass := by
  intro cs set rest h
  have hcolon : ∃ name, cs = ':' :: name := by
    unfold readAsciiClass at h
    split at h
    · exact ⟨_, rfl⟩
    · cases h
  obtain ⟨name, rfl⟩ := hcolon
  by_cases hsign : ∃ after, name = '^' :: after
  · obtain ⟨after, rfl⟩ := hsign
    obtain ⟨short, rfl, hsuffix, hread⟩ := cuts_readAsciiName tail true h
    exact ⟨':' :: '^' :: short, rfl, suffix_cons_of _ (suffix_cons_of _ hsuffix), hread⟩
  · have hplain : ∀ after, name ≠ '^' :: after := fun after hname => hsign ⟨after, hname⟩
    rw [readAsciiClass_plain hplain] at h
    obtain ⟨short, rfl, hsuffix, hread⟩ := cuts_readAsciiName tail false h
    refine ⟨':' :: short, rfl, suffix_cons_of _ hsuffix, ?_⟩
    rw [readAsciiClass_plain, hread]
    rintro after rfl
    exact hplain _ rfl

theorem readAsciiClass_append (ht : Closing tail) {set : CharSet}
    (h : readAsciiClass cs = some (set, rest)) :
    readAsciiClass (cs ++ tail) = some (set, rest ++ tail) := by
  have hcolon : ∃ name, cs = ':' :: name := by
    unfold readAsciiClass at h
    split at h
    · exact ⟨_, rfl⟩
    · cases h
  obtain ⟨name, rfl⟩ := hcolon
  by_cases hsign : ∃ after, name = '^' :: after
  · obtain ⟨after, rfl⟩ := hsign
    exact readAsciiName_append h
  · have hplain : ∀ after, name ≠ '^' :: after := fun after hname => hsign ⟨after, hname⟩
    rw [readAsciiClass_plain hplain] at h
    rw [List.cons_append, readAsciiClass_plain, readAsciiName_append h]
    intro after hafter
    cases name with
    | nil => cases ht.head hafter
    | cons c name =>
      obtain ⟨rfl, -⟩ := List.cons.inj hafter
      exact hplain name rfl

-- ---------------------------------------------------------------------------
-- Openings
-- ---------------------------------------------------------------------------

theorem cuts_readLeadingMinus {minus : Bool}
    (h : readLeadingMinus flags n cs = (minus, rest ++ tail)) (hn : cs.length ≤ n) :
    ∃ short, cs = short ++ tail ∧ rest <:+ short ∧
      ∀ m, short.length ≤ m → readLeadingMinus flags m short = (minus, rest) := by
  induction n generalizing cs minus with
  | zero =>
    cases h
    obtain ⟨rfl, rfl⟩ := List.append_eq_nil_iff.mp (List.length_eq_zero_iff.mp (Nat.le_zero.mp hn))
    exact ⟨[], rfl, List.suffix_refl _, fun m _ => by cases m <;> rfl⟩
  | succ n ih =>
    unfold readLeadingMinus at h
    split at h
    · rename_i after
      obtain ⟨rfl, hrest⟩ := Prod.mk.inj h
      obtain ⟨short, hshort, hsuffix, hread⟩ := ih (Prod.ext rfl hrest)
        (Nat.le_trans (skip_suffix flags after).length_le (Nat.le_of_succ_le_succ hn))
      obtain ⟨whole, rfl, hwhole, hskipped⟩ := leaves_skip tail flags hshort
      refine ⟨'-' :: whole, rfl, suffix_cons_of _ (hsuffix.trans hwhole), fun m hm => ?_⟩
      obtain ⟨m, rfl⟩ := Nat.exists_eq_add_of_lt hm
      have hlength := hwhole.length_le
      rw [readLeadingMinus, hskipped, hread _ (by omega)]
    · rename_i hminus
      obtain ⟨rfl, rfl⟩ := Prod.mk.inj h
      refine ⟨rest, rfl, List.suffix_refl _, fun m hm => ?_⟩
      cases m with
      | zero => rfl
      | succ m =>
        unfold readLeadingMinus
        split
        · rename_i after
          exact absurd rfl (hminus (after ++ tail))
        · rfl

def openMembers (flags : Flags) (negated : Bool) (cs : List Char) : Bool × OpenClass × List Char :=
  match readLeadingMinus flags (cs.length + 1) cs with
  | (true, rest) => (negated, ⟨none, .one '-', 0⟩, rest)
  | (false, ']' :: rest) => (negated, ⟨none, .one ']', 0⟩, flags.skip rest)
  | (false, rest) => (negated, ⟨none, .none, 0⟩, rest)

theorem openClass_negated (h : flags.skip cs = '^' :: rest) :
    openClass flags cs = openMembers flags true (flags.skip rest) := by
  simp only [openClass, h]
  rfl

theorem openClass_plain (h : ∀ rest, flags.skip cs ≠ '^' :: rest) :
    openClass flags cs = openMembers flags false (flags.skip cs) := by
  simp only [openClass]
  rfl

theorem cuts_openMembers {negated negated' : Bool} {k : OpenClass}
    (h : openMembers flags negated cs = (negated', k, rest ++ tail)) :
    ∃ short, cs = short ++ tail ∧ rest <:+ short ∧
      openMembers flags negated short = (negated', k, rest) := by
  unfold openMembers at h
  split at h
  · rename_i left hminus
    cases h
    obtain ⟨short, rfl, hsuffix, hread⟩ := cuts_readLeadingMinus hminus (Nat.le_succ _)
    refine ⟨short, rfl, hsuffix, ?_⟩
    simp only [openMembers, hread _ (Nat.le_succ _)]
  · rename_i left hminus
    obtain ⟨hnegated, h⟩ := Prod.mk.inj h
    obtain ⟨rfl, hleft⟩ := Prod.mk.inj h
    subst hnegated
    obtain ⟨after, rfl, hafter, hskipped⟩ := leaves_skip tail flags hleft
    obtain ⟨short, rfl, hsuffix, hread⟩ :=
      cuts_readLeadingMinus (show _ = (false, (']' :: after) ++ tail) from hminus) (Nat.le_succ _)
    refine ⟨short, rfl, (suffix_cons_of _ hafter).trans hsuffix, ?_⟩
    simp only [openMembers, hread _ (Nat.le_succ _), hskipped]
  · rename_i left hbracket hminus
    cases h
    obtain ⟨short, rfl, hsuffix, hread⟩ := cuts_readLeadingMinus hminus (Nat.le_succ _)
    refine ⟨short, rfl, hsuffix, ?_⟩
    simp only [openMembers, hread _ (Nat.le_succ _)]
    split
    · rename_i heq
      cases heq
    · rename_i heq
      cases heq
      exact absurd rfl (hbracket _)
    · rename_i heq
      cases heq
      rfl

theorem cuts_openClass {negated : Bool} {k : OpenClass}
    (h : openClass flags cs = (negated, k, rest ++ tail)) :
    ∃ short, cs = short ++ tail ∧ rest <:+ short ∧
      openClass flags short = (negated, k, rest) := by
  by_cases hsign : ∃ after, flags.skip cs = '^' :: after
  · obtain ⟨after, hskip⟩ := hsign
    rw [openClass_negated hskip] at h
    obtain ⟨short, hshort, hsuffix, hread⟩ := cuts_openMembers h
    obtain ⟨between, rfl, hbetween, hskipped⟩ := leaves_skip tail flags hshort
    obtain ⟨whole, rfl, hwhole, hskippedWhole⟩ := skip_cons hskip
    refine ⟨whole, rfl, hsuffix.trans <| (suffix_cons_of _ hbetween).trans hwhole, ?_⟩
    rw [openClass_negated hskippedWhole, hskipped, hread]
  · have hplain : ∀ after, flags.skip cs ≠ '^' :: after := fun after hskip => hsign ⟨after, hskip⟩
    rw [openClass_plain hplain] at h
    obtain ⟨short, hshort, hsuffix, hread⟩ := cuts_openMembers h
    obtain ⟨whole, rfl, hwhole, hskipped⟩ := leaves_skip tail flags hshort
    refine ⟨whole, rfl, hsuffix.trans hwhole, ?_⟩
    rw [openClass_plain, hskipped, hread]
    intro after hafter
    rw [hskipped] at hafter
    subst hafter
    exact hplain _ hshort

-- ---------------------------------------------------------------------------
-- Whole classes
-- ---------------------------------------------------------------------------

def SetOperation.sign : SetOperation → Char
  | .intersection => '&'
  | .difference => '-'
  | .symmetric => '~'

/-- What is no member of a class: a bracket, or an operation. -/
def ClassMark (cs : List Char) : Prop :=
  ∃ rest, cs = '[' :: rest ∨ cs = ']' :: rest ∨
    ∃ op : SetOperation, cs = op.sign :: op.sign :: rest

theorem ClassMark.append (h : ClassMark cs) (tail : List Char) : ClassMark (cs ++ tail) := by
  obtain ⟨rest, rfl | rfl | ⟨op, rfl⟩⟩ := h
  · exact ⟨rest ++ tail, .inl rfl⟩
  · exact ⟨rest ++ tail, .inr (.inl rfl)⟩
  · exact ⟨rest ++ tail, .inr (.inr ⟨op, rfl⟩)⟩

theorem not_classMark_nil : ¬ ClassMark [] := by
  rintro ⟨rest, h | h | ⟨op, h⟩⟩ <;> cases h

theorem not_classMark_single (hopen : c ≠ '[') (hclose : c ≠ ']') : ¬ ClassMark [c] := by
  rintro ⟨rest, h | h | ⟨op, h⟩⟩
  · exact hopen (List.cons.inj h).1
  · exact hclose (List.cons.inj h).1
  · cases (List.cons.inj h).2

theorem readClass_operation {negated : Bool} {k : OpenClass} {op : SetOperation}
    (h : flags.skip cs = op.sign :: op.sign :: rest) :
    readClass flags (n + 1) negated k cs = readClass flags n negated (k.operate flags op) rest := by
  conv_lhs => unfold readClass
  cases op <;> simp only [SetOperation.sign] at h <;> simp only [h]

theorem readClass_member {negated : Bool} {k : OpenClass} (h : ¬ ClassMark (flags.skip cs)) :
    readClass flags (n + 1) negated k cs =
      (readMemberOrRange flags (flags.skip cs)).bind fun (set, rest) =>
        readClass flags n negated (k.add set 0) rest := by
  conv_lhs => unfold readClass
  split
  case h_1 hskip =>
    rw [hskip]
    rfl
  case h_2 rest hskip => exact absurd ⟨rest, .inl hskip⟩ h
  case h_3 rest hskip => exact absurd ⟨rest, .inr (.inl hskip)⟩ h
  case h_4 rest hskip => exact absurd ⟨rest, .inr (.inr ⟨.intersection, hskip⟩)⟩ h
  case h_5 rest hskip => exact absurd ⟨rest, .inr (.inr ⟨.difference, hskip⟩)⟩ h
  case h_6 rest hskip => exact absurd ⟨rest, .inr (.inr ⟨.symmetric, hskip⟩)⟩ h
  case h_7 =>
    cases readMemberOrRange flags (flags.skip cs) with
    | none => rfl
    | some found => rfl

/-- A class that is open at the tail stays open. -/
theorem readClass_closing {negated : Bool} {k : OpenClass} (ht : Closing tail) :
    readClass flags n negated k tail = none := by
  have hclosing : flags.skip [')', '$'] = [')', '$'] := skip_cons_self (by decide) (by decide)
  have hend : flags.skip ['$'] = ['$'] := skip_cons_self (by decide) (by decide)
  have hlast (n : Nat) (k : OpenClass) : readClass flags n negated k ['$'] = none := by
    cases n with
    | zero => rfl
    | succ n =>
      have hmember : readMemberOrRange flags ['$'] = none := by
        rw [readMemberOrRange_eq]
        simp [readMember, skip_nil]
      rw [readClass_member, hend, hmember, Option.bind_none]
      rw [hend]
      exact not_classMark_single (by decide) (by decide)
  cases n with
  | zero => rfl
  | succ n =>
    obtain rfl | rfl := ht
    · rw [readClass_member, skip_nil]
      · rfl
      · rw [skip_nil]
        exact not_classMark_nil
    · rw [readClass_member, hclosing, Option.bind_eq_none_iff]
      · rintro ⟨set, rest⟩ hmember
        rw [readMemberOrRange_eq] at hmember
        simp [readMember, hend] at hmember
        obtain ⟨single, -, -, rfl⟩ := hmember
        exact hlast n _
      · rw [hclosing]
        rintro ⟨rest, h | h | ⟨op, h⟩⟩
        · cases h
        · cases h
        · cases op <;> cases h

section

variable {negated inner : Bool} {k start : OpenClass} {set found : CharSet} {height depth : Nat}
  {after left inside : List Char}

/-- The class is read in front of the tail as it is read alone, with fuel for each character and
one unit for the end. -/
def CutsClass (tail : List Char) (flags : Flags) (negated : Bool) (k : OpenClass) (cs : List Char)
    (set : CharSet) (height : Nat) (rest : List Char) : Prop :=
  ∃ short, cs = short ++ tail ∧ rest <:+ short ∧
    ∀ m, short.length < m → readClass flags m negated k short = some (set, height, rest)

theorem readClass_named (hskip : flags.skip cs = '[' :: after)
    (hname : readAsciiClass after = some (found, left)) :
    readClass flags (n + 1) negated k cs = readClass flags n negated (k.add found 0) left := by
  conv_lhs => unfold readClass
  simp only [hskip, hname]

theorem readClass_nested (hskip : flags.skip cs = '[' :: after)
    (hname : readAsciiClass after = none) (hopen : openClass flags after = (inner, start, inside)) :
    readClass flags (n + 1) negated k cs =
      (readClass flags n inner start inside).bind fun (found, depth, left) =>
        readClass flags n negated (k.add found depth) left := by
  conv_lhs => unfold readClass
  simp only [hskip, hname, hopen]
  cases readClass flags n inner start inside with
  | none => rfl
  | some found => rfl

theorem readClass_close (hskip : flags.skip cs = ']' :: after) :
    readClass flags (n + 1) negated k cs =
      (flags.close negated (k.value flags)).map (·, k.finalHeight, after) := by
  conv_lhs => unfold readClass
  simp only [hskip]

theorem CutsClass.named (hskip : flags.skip cs = '[' :: after)
    (hname : readAsciiClass after = some (found, left))
    (h : CutsClass tail flags negated (k.add found 0) left set height rest) :
    CutsClass tail flags negated k cs set height rest := by
  obtain ⟨short, rfl, hsuffix, hread⟩ := h
  obtain ⟨named, rfl, hnamed, hreadName⟩ := cuts_readAsciiClass tail hname
  obtain ⟨whole, rfl, hwhole, hskipped⟩ := skip_cons hskip
  refine ⟨whole, rfl, hsuffix.trans ((suffix_cons_of _ hnamed).trans hwhole), fun m hm => ?_⟩
  obtain ⟨m, rfl⟩ := Nat.exists_eq_add_of_lt hm
  have hlength := hwhole.length_le
  have hlength' := hnamed.length_le
  rw [readClass_named hskipped hreadName]
  exact hread _ (by simp only [List.length_cons] at hlength; omega)

theorem CutsClass.nested (ht : Closing tail) (hskip : flags.skip cs = '[' :: after)
    (hname : readAsciiClass after = none) (hopen : openClass flags after = (inner, start, inside))
    (hinner : CutsClass tail flags inner start inside found depth left)
    (h : CutsClass tail flags negated (k.add found depth) (left ++ tail) set height rest) :
    CutsClass tail flags negated k cs set height rest := by
  obtain ⟨short, hshort, hsuffix, hread⟩ := h
  obtain rfl := List.append_cancel_right hshort
  obtain ⟨members, rfl, hmembers, hreadInner⟩ := hinner
  obtain ⟨opened, rfl, hopened, hreadOpen⟩ := cuts_openClass hopen
  obtain ⟨whole, rfl, hwhole, hskipped⟩ := skip_cons hskip
  have hleft := (suffix_cons_of _ (hmembers.trans hopened)).trans hwhole
  refine ⟨whole, rfl, hsuffix.trans hleft, fun m hm => ?_⟩
  obtain ⟨m, rfl⟩ := Nat.exists_eq_add_of_lt hm
  have hlength := hwhole.length_le
  have hlengthOpened := hopened.length_le
  have hlengthMembers := hmembers.length_le
  simp only [List.length_cons] at hlength
  have hname' : readAsciiClass opened = none := by
    cases hopenName : readAsciiClass opened with
    | none => rfl
    | some found => cases hname.symm.trans (readAsciiClass_append ht hopenName)
  rw [readClass_nested hskipped hname' hreadOpen, hreadInner _ (by omega), Option.bind_some]
  exact hread _ (by omega)

theorem CutsClass.close (hskip : flags.skip cs = ']' :: (rest ++ tail))
    (hclosed : flags.close negated (k.value flags) = some set) :
    CutsClass tail flags negated k cs set k.finalHeight rest := by
  obtain ⟨whole, rfl, hwhole, hskipped⟩ := skip_cons hskip
  refine ⟨whole, rfl, (List.suffix_cons _ rest).trans hwhole, fun m hm => ?_⟩
  obtain ⟨m, rfl⟩ := Nat.exists_eq_add_of_lt hm
  rw [readClass_close hskipped, hclosed, Option.map_some]

theorem CutsClass.operation {op : SetOperation} (hskip : flags.skip cs = op.sign :: op.sign :: left)
    (h : CutsClass tail flags negated (k.operate flags op) left set height rest) :
    CutsClass tail flags negated k cs set height rest := by
  obtain ⟨short, rfl, hsuffix, hread⟩ := h
  obtain ⟨whole, rfl, hwhole, hskipped⟩ :=
    skip_cons (show _ = op.sign :: ((op.sign :: short) ++ tail) from hskip)
  refine ⟨whole, rfl, (suffix_cons_of _ (suffix_cons_of _ hsuffix)).trans hwhole, fun m hm => ?_⟩
  obtain ⟨m, rfl⟩ := Nat.exists_eq_add_of_lt hm
  have hlength := hwhole.length_le
  rw [readClass_operation hskipped]
  exact hread _ (by simp only [List.length_cons] at hlength; omega)

theorem CutsClass.member (ht : Closing tail) (hmark : ¬ ClassMark (flags.skip cs))
    (hmember : readMemberOrRange flags (flags.skip cs) = some (found, left)) (hleft : left ≠ tail)
    (h : CutsClass tail flags negated (k.add found 0) left set height rest) :
    CutsClass tail flags negated k cs set height rest := by
  obtain ⟨short, rfl, hsuffix, hread⟩ := h
  have hshort : short ≠ [] := by
    rintro rfl
    exact hleft rfl
  obtain ⟨c, member, hfirst, hsuffixMember, hreadMember⟩ :=
    cuts_readMemberOrRange ht hmember hshort
  obtain ⟨whole, rfl, hwhole, hskipped⟩ := skip_cons hfirst
  refine ⟨whole, rfl, hsuffix.trans ((suffix_cons_of _ hsuffixMember).trans hwhole), fun m hm => ?_⟩
  obtain ⟨m, rfl⟩ := Nat.exists_eq_add_of_lt hm
  have hlength := hwhole.length_le
  have hlength' := hsuffixMember.length_le
  have hmark' : ¬ ClassMark (flags.skip whole) := by
    rw [hskipped]
    intro hclass
    rw [hfirst] at hmark
    exact hmark (hclass.append tail)
  rw [readClass_member hmark', hskipped, hreadMember, Option.bind_some]
  exact hread _ (by simp only [List.length_cons] at hlength; omega)

theorem cuts_readClass (ht : Closing tail)
    (h : readClass flags n negated k cs = some (set, height, rest ++ tail)) :
    CutsClass tail flags negated k cs set height rest := by
  induction n generalizing negated k cs set height rest with
  | zero => cases h
  | succ n ih =>
    by_cases hmark : ClassMark (flags.skip cs)
    · obtain ⟨after, hskip | hskip | ⟨op, hskip⟩⟩ := hmark
      · cases hname : readAsciiClass after with
        | some named =>
          rw [readClass_named hskip hname] at h
          exact .named hskip hname (ih h)
        | none =>
          rw [readClass_nested hskip hname rfl] at h
          obtain ⟨⟨found, depth, left⟩, hinner, h⟩ := Option.bind_eq_some_iff.mp h
          obtain ⟨short, rfl, -⟩ := ih h
          exact .nested ht hskip hname rfl (ih hinner) (ih h)
      · rw [readClass_close hskip] at h
        obtain ⟨closed, hclosed, h⟩ := Option.map_eq_some_iff.mp h
        cases h
        exact .close hskip hclosed
      · rw [readClass_operation hskip] at h
        exact .operation hskip (ih h)
    · rw [readClass_member hmark] at h
      obtain ⟨⟨found, left⟩, hmember, h⟩ := Option.bind_eq_some_iff.mp h
      have hleft : left ≠ tail := by
        rintro rfl
        cases (readClass_closing ht).symm.trans h
      exact .member ht hmark hmember hleft (ih h)

end

end FlowTally.Pattern
