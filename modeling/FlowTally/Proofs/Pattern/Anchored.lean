import FlowTally.Pattern.Basic
import FlowTally.Proofs.Pattern.Expression
import FlowTally.Proofs.Pattern.Language

/-!
# Path patterns and whole paths

`PathPattern.selects_iff_whole`: an accepted text is an expression of its own and selects the paths
that it matches as a whole, exactly if none of its closing parentheses closes the group that is put
around it. `Pattern.closesUnopened` reads that off the text alone.

An anchored text is read as a group and what follows it (`Place.read_anchored`), and the inside of
the group as the text in front of a tail, which is how it is read alone (`Place.cutsRead`). The
matcher finds what is in the language of the whole because what is read is well formed.
-/

namespace FlowTally

namespace Pattern

variable {cs rest : List Char} {n : Nat}

-- ---------------------------------------------------------------------------
-- What is read is well formed
-- ---------------------------------------------------------------------------

def Part.WellFormed (part : Part) : Prop := ∀ r ∈ part.regex, r.WellFormed

theorem sequence_wellFormed {parts : List Part} (h : ∀ part ∈ parts, part.WellFormed) :
    (sequence parts).1.WellFormed := by
  match parts with
  | [] => trivial
  | [part] =>
    cases hregex : part.regex with
    | none => simp [sequence, hregex, Regex.WellFormed]
    | some r => simpa [sequence, hregex] using h part (List.mem_singleton_self part) r hregex
  | first :: second :: others =>
    change (List.foldl _ Regex.empty (first :: second :: others)).WellFormed
    generalize first :: second :: others = parts at h
    generalize hstart : Regex.empty = start
    have hwell : start.WellFormed := hstart ▸ trivial
    clear hstart
    induction parts generalizing start with
    | nil => exact hwell
    | cons part parts ih =>
      rw [List.foldl_cons]
      refine ih (fun other hother => h other (.tail _ hother)) _ ?_
      have hpart := h part (.head _)
      split
      · exact hpart _ ‹part.regex = some _›
      · exact ⟨hpart _ ‹part.regex = some _›, hwell⟩
      · exact hwell

theorem alternatives_wellFormed {branches : List (Regex × Nat)}
    (h : ∀ branch ∈ branches, branch.1.WellFormed) : (alternatives branches).1.WellFormed := by
  match branches with
  | [] => trivial
  | [branch] => exact h branch (List.mem_singleton_self branch)
  | last :: second :: others =>
    change (List.foldl _ last.1 (second :: others)).WellFormed
    have hlast := h last (.head _)
    replace h := fun branch hbranch => h branch (.tail _ hbranch)
    generalize last.1 = start at hlast
    generalize second :: others = branches at h
    induction branches generalizing start with
    | nil => exact hlast
    | cons branch branches ih =>
      rw [List.foldl_cons]
      exact ih _ ⟨h branch (.head _), hlast⟩ fun other hother => h other (.tail _ hother)

theorem literal_wellFormed (flags : Flags) (c : Char) : (literal flags c).WellFormed := by
  unfold literal
  split_ifs <;> trivial

theorem dot_wellFormed {flags : Flags} : ∀ r ∈ dot flags, r.WellFormed := by
  unfold dot
  split_ifs <;> rintro r ⟨⟩ <;> trivial

theorem ofEscape_wellFormed {flags : Flags} {escape : Escape} :
    ∀ r ∈ ofEscape flags escape, r.WellFormed := by
  cases escape <;> rintro r ⟨⟩
  · exact literal_wellFormed ..
  · trivial
  · trivial

namespace Place

structure WellFormed (p : Place) : Prop where
  branches : ∀ branch ∈ p.branches, branch.1.WellFormed
  parts : ∀ part ∈ p.parts, part.WellFormed

theorem symbol_wellFormed {p : Place} {c : Char} : ∀ r ∈ p.symbol c, r.WellFormed := by
  unfold symbol
  split_ifs
  · exact dot_wellFormed
  · rintro r ⟨⟩
    trivial
  · rintro r ⟨⟩
    trivial
  · rintro r ⟨⟩
    exact literal_wellFormed ..

theorem WellFormed.answer {p : Place} (h : p.WellFormed) : p.answer.1.WellFormed := by
  refine alternatives_wellFormed fun branch hbranch => ?_
  obtain rfl | hbranch := List.mem_cons.mp hbranch
  · exact sequence_wellFormed h.parts
  · exact h.branches branch hbranch

theorem WellFormed.add {p : Place} (h : p.WellFormed) (part : Part) (hpart : part.WellFormed) :
    (p.add part).WellFormed := by
  refine ⟨h.branches, fun other hother => ?_⟩
  obtain rfl | hother := List.mem_cons.mp hother
  · exact hpart
  · exact h.parts other hother

theorem WellFormed.repeated {p next : Place} (h : p.WellFormed) {least : Nat} {most : Option Nat}
    (hbounds : ∀ m ∈ most, least ≤ m) (hnext : p.repeated least most cs = some (next, rest)) :
    next.WellFormed := by
  obtain ⟨parts, hparts, hnext⟩ := Option.map_eq_some_iff.mp hnext
  cases hnext
  refine ⟨h.branches, fun part hpart => ?_⟩
  unfold repeatLast at hparts
  split at hparts
  · rename_i r height others hlast
    cases hparts
    have hold := h.parts
    rw [hlast] at hold
    obtain rfl | hpart := List.mem_cons.mp hpart
    · rintro body ⟨⟩
      exact ⟨hold _ (.head _) r rfl, hbounds⟩
    · exact hold part (.tail _ hpart)
  · cases hparts

variable {p next : Place}

theorem WellFormed.readPlain {c : Char} (h : p.WellFormed)
    (hitem : p.readPlain c cs = some (next, rest)) : next.WellFormed := by
  unfold Place.readPlain at hitem
  split_ifs at hitem
  · cases hitem
    refine ⟨fun branch hbranch => ?_, nofun⟩
    obtain rfl | hbranch := List.mem_cons.mp hbranch
    · exact sequence_wellFormed h.parts
    · exact h.branches branch hbranch
  · exact h.repeated (by rintro m ⟨⟩; exact Nat.zero_le 1) hitem
  · exact h.repeated (by rintro m ⟨⟩) hitem
  · exact h.repeated (by rintro m ⟨⟩) hitem
  · obtain ⟨⟨least, most, left⟩, hbounds, hitem⟩ := Option.bind_eq_some_iff.mp hitem
    exact h.repeated (readBounds_le hbounds) hitem
  · obtain ⟨r, hr, hitem⟩ := Option.map_eq_some_iff.mp hitem
    cases hitem
    exact h.add _ (by rintro r' ⟨⟩; exact symbol_wellFormed r hr)

theorem WellFormed.readGroup (h : p.WellFormed)
    (hread : ∀ ⦃p : Place⦄ ⦃cs answer names rest⦄, p.WellFormed →
      p.read n cs = some (answer, names, rest) → answer.1.WellFormed)
    (hitem : p.readGroup n cs = some (next, rest)) : next.WellFormed := by
  unfold Place.readGroup at hitem
  split at hitem
  · cases hitem
    have hadd := h.add ⟨none, 0⟩ (by rintro r ⟨⟩)
    exact ⟨hadd.branches, hadd.parts⟩
  · split at hitem
    · rename_i body height known left hinner
      cases hitem
      have hbody : body.WellFormed := hread (p := ⟨_, _, [], []⟩) ⟨nofun, nofun⟩ hinner
      have hadd := h.add ⟨some body, height + 1⟩ (by rintro r ⟨⟩; exact hbody)
      exact ⟨hadd.branches, hadd.parts⟩
    · cases hitem
  · cases hitem

theorem WellFormed.readItem (h : p.WellFormed)
    (hread : ∀ ⦃p : Place⦄ ⦃cs answer names rest⦄, p.WellFormed →
      p.read n cs = some (answer, names, rest) → answer.1.WellFormed)
    (hitem : p.readItem n cs = some (next, rest)) : next.WellFormed := by
  unfold Place.readItem at hitem
  split at hitem
  · cases hitem
  · exact h.readGroup hread hitem
  · obtain ⟨⟨set, height, left⟩, -, hitem⟩ := Option.map_eq_some_iff.mp hitem
    cases hitem
    exact h.add _ (by rintro r ⟨⟩; trivial)
  · obtain ⟨⟨escape, left⟩, -, hitem⟩ := Option.bind_eq_some_iff.mp hitem
    obtain ⟨r, hr, hitem⟩ := Option.map_eq_some_iff.mp hitem
    cases hitem
    exact h.add _ (by rintro r' ⟨⟩; exact ofEscape_wellFormed r hr)
  · exact h.readPlain hitem

theorem WellFormed.read (h : p.WellFormed) {answer : Regex × Nat}
    {names : List (List Char)} (hread : p.read n cs = some (answer, names, rest)) :
    answer.1.WellFormed := by
  induction n generalizing p cs answer names rest with
  | zero => cases hread
  | succ n ih =>
    by_cases hend : AtEnd (p.flags.skip cs)
    · rw [read_end hend] at hread
      cases hread
      exact h.answer
    · rw [read_item hend] at hread
      obtain ⟨⟨next, left⟩, hitem, hread⟩ := Option.bind_eq_some_iff.mp hread
      exact ih (h.readItem (fun _ _ _ _ _ hp => ih hp) hitem) hread

end Place

-- ---------------------------------------------------------------------------
-- The group around a pattern
-- ---------------------------------------------------------------------------

namespace Place

def start : Place := ⟨{}, [], [], []⟩

def behindGroup (names : List (List Char)) (body : Regex) (height : Nat) : Place :=
  ⟨{}, names, [], [⟨some body, height + 1⟩, ⟨some (.look .textStart), 0⟩]⟩

theorem start_wellFormed : start.WellFormed := ⟨nofun, nofun⟩

/-- An anchored text is the text in a group, and what follows the end of the group. -/
theorem read_anchored {answer : Regex × Nat} {names : List (List Char)}
    (h : start.read (n + 3) ('^' :: '(' :: '?' :: ':' :: cs) = some (answer, names, rest)) :
    ∃ body height known left,
      start.read (n + 1) cs = some ((body, height), known, ')' :: left) ∧
        (behindGroup known body height).read (n + 1) left = some (answer, names, rest) := by
  let p : Place := start.add ⟨some (.look .textStart), 0⟩
  have hfirst : start.readPlain '^' ('(' :: '?' :: ':' :: cs) =
      some (p, '(' :: '?' :: ':' :: cs) := rfl
  have hskip : p.flags.skip ('(' :: '?' :: ':' :: cs) = '(' :: '?' :: ':' :: cs := rfl
  rw [read_plain rfl (by decide), hfirst, Option.bind_some, goOn, read_group hskip] at h
  obtain ⟨⟨grouped, left⟩, hgroup, h⟩ := Option.bind_eq_some_iff.mp h
  have hopening : readOpening p.flags p.names ('?' :: ':' :: cs) = some (.group {} [] cs) := rfl
  simp only [readGroup, hopening] at hgroup
  split at hgroup
  · rename_i body height known left' hinner
    cases hgroup
    exact ⟨body, height, known, left, hinner, h⟩
  · cases hgroup

/-- Behind the group only the end of the text is left to read. -/
theorem read_behindGroup {answer : Regex × Nat} {names known : List (List Char)} {body : Regex}
    {height : Nat} (h : (behindGroup known body height).read (n + 2) ['$'] =
      some (answer, names, rest)) :
    answer.1 = .append (.look .textStart) (.append body (.look .textEnd)) ∧
      height < answer.2 ∧ rest = [] := by
  let p := (behindGroup known body height).add ⟨some (.look .textEnd), 0⟩
  have hlast : (behindGroup known body height).readPlain '$' [] = some (p, []) := rfl
  rw [read_plain rfl (by decide), hlast, Option.bind_some, goOn, read_end (.inl rfl)] at h
  cases h
  refine ⟨rfl, ?_, rfl⟩
  simp only [p, answer, sequence, alternatives, behindGroup, add, List.map_cons, List.map_nil,
    List.foldl_cons, List.foldl_nil]
  omega

end Place

/-- Where the group around a text ends: at the parenthesis behind the text, or in the text. -/
theorem close_suffix (h : ')' :: rest <:+ cs ++ [')', '$']) :
    rest = ['$'] ∨ ∃ inside, rest = inside ++ [')', '$'] := by
  obtain ⟨before, h⟩ := h
  obtain ⟨inside, -, hrest⟩ | ⟨between, -, htail⟩ := List.append_eq_append_iff.mp h
  · cases inside with
    | nil =>
      cases hrest
      exact .inl rfl
    | cons c inside =>
      obtain ⟨-, rfl⟩ := List.cons.inj hrest
      exact .inr ⟨inside, rfl⟩
  · cases between with
    | nil =>
      cases htail
      exact .inl rfl
    | cons c between =>
      obtain ⟨-, htail⟩ := List.cons.inj htail
      cases between with
      | nil => cases htail
      | cons d between => exact absurd (List.cons.inj htail).2.symm (by simp)

end Pattern

namespace Pattern.Regex

variable {chars : List Char} {body : Regex}

theorem spans_anchored :
    (∃ i j, i ≤ chars.length ∧
      Spans chars (.append (.look .textStart) (.append body (.look .textEnd))) i j) ↔
        Spans chars body 0 chars.length := by
  constructor
  · rintro ⟨i, j, hi, h⟩
    cases h with
    | append hstart hrest =>
      cases hstart with
      | look _ hbefore =>
        cases hrest with
        | append hbody hend =>
          cases hend with
          | look hj hafter =>
            obtain rfl : i = 0 := by
              by_contra hpos
              have hlt : i - 1 < chars.length := by omega
              simp [Look.holds, hpos, List.getElem?_eq_getElem hlt] at hbefore
            obtain rfl : j = chars.length := by
              by_contra hne
              have hlt : j < chars.length := by omega
              simp [Look.holds, List.getElem?_eq_getElem hlt] at hafter
            exact hbody
  · intro h
    refine ⟨0, chars.length, Nat.zero_le _, .append (.look (Nat.zero_le _) rfl) (.append h ?_)⟩
    exact .look le_rfl (by simp [Look.holds])

end Pattern.Regex

namespace Pattern

theorem read_ok {cs : List Char} {r : Regex} :
    read cs = .ok r ↔ ∃ height names,
      Place.start.read (2 * cs.length + 2) cs = some ((r, height), names, []) ∧
        height ≤ maxHeight ∧ weight r ≤ maxWeight := by
  unfold read
  constructor
  · intro h
    split at h
    · rename_i own height names hread
      split_ifs at h with hheight hweight
      cases h
      exact ⟨height, names, hread, Nat.le_of_not_lt hheight, Nat.le_of_not_lt hweight⟩
    · cases h
  · rintro ⟨height, names, hread, hheight, hweight⟩
    have hread : readExpression (2 * cs.length + 2) {} [] [] [] cs =
        some ((r, height), names, []) := hread
    simp only [hread, if_neg (Nat.not_lt_of_le hheight), if_neg (Nat.not_lt_of_le hweight)]

/-- A closing parenthesis of the text has no opening one: the reader stops at it. -/
def closesUnopened (cs : List Char) : Bool :=
  match readExpression (2 * cs.length + 2) {} [] [] [] cs with
  | some (_, _, ')' :: _) => true
  | _ => false

/-- The text inside an anchored text is an expression of its own, or one of its parentheses closes
the group around it. -/
theorem read_inside {cs : List Char} {r : Regex}
    (h : read ('^' :: '(' :: '?' :: ':' :: (cs ++ [')', '$'])) = .ok r) :
    (∃ own, read cs = .ok own ∧ own.WellFormed ∧ closesUnopened cs = false ∧
      r = .append (.look .textStart) (.append own (.look .textEnd))) ∨
    (read cs = .error .malformed ∧ closesUnopened cs = true) := by
  obtain ⟨height, names, hread, hheight, hweight⟩ := read_ok.mp h
  obtain ⟨body, depth, known, left, hinside, hbehind⟩ := Place.read_anchored
    (n := 2 * cs.length + 11) (by simpa [Nat.mul_add] using hread)
  -- The group ends where a reading of the text with its parenthesis ends.
  have hend := hinside
  rw [← List.append_nil (')' :: left)] at hend
  obtain ⟨_, hwhole, hsuffix, -⟩ := Place.cutsRead (.inl rfl) _ hend
  rw [List.append_nil] at hwhole
  subst hwhole
  obtain rfl | ⟨inside, rfl⟩ := close_suffix hsuffix
  · left
    obtain ⟨short, hshort, -, hown⟩ := Place.cutsRead (.inr rfl) _
      (show _ = some (_, _, [] ++ [')', '$']) from hinside)
    obtain rfl := List.append_cancel_right hshort
    have hown := hown (2 * cs.length + 2) (by omega)
    obtain ⟨rfl, hdepth, -⟩ := Place.read_behindGroup hbehind
    have hweight : weight body ≤ maxWeight := by
      simp only [weight] at hweight
      omega
    refine ⟨body, read_ok.mpr ⟨depth, known, hown, by omega, hweight⟩, ?_, ?_, rfl⟩
    · exact Place.start_wellFormed.read hown
    · have hown : readExpression (2 * cs.length + 2) {} [] [] [] cs =
          some ((body, depth), known, []) := hown
      simp only [closesUnopened, hown]
  · right
    obtain ⟨short, hshort, -, hown⟩ := Place.cutsRead (.inr rfl) _
      (show _ = some (_, _, (')' :: inside) ++ [')', '$']) from hinside)
    obtain rfl := List.append_cancel_right hshort
    have hown : readExpression (2 * cs.length + 2) {} [] [] [] cs =
        some ((body, depth), known, ')' :: inside) := hown (2 * cs.length + 2) (by omega)
    exact ⟨by simp only [read, hown], by simp only [closesUnopened, hown]⟩

end Pattern

namespace PathPattern

/-- A path pattern selects the paths that its text matches as a whole, unless a parenthesis of the
text closes the group around it. -/
theorem selects_iff_whole {text : String} {pattern : PathPattern}
    (h : read text = .ok pattern) :
    (∃ own, Pattern.read text.toList = .ok own ∧
      ∀ path : String, pattern.selects path = true ↔
        own.Spans path.toList 0 path.toList.length) ↔
      Pattern.closesUnopened text.toList = false := by
  have hanchored : anchored text = '^' :: '(' :: '?' :: ':' :: (text.toList ++ [')', '$']) := rfl
  unfold read at h
  split at h
  · rename_i regex hregex
    cases h
    rw [hanchored] at hregex
    obtain ⟨own, hown, hwell, hcloses, rfl⟩ | ⟨hmalformed, hcloses⟩ := Pattern.read_inside hregex
    · refine iff_of_true ⟨own, hown, fun path => ?_⟩ hcloses
      have hwhole : (Pattern.Regex.append (.look .textStart)
          (.append own (.look .textEnd))).WellFormed := ⟨trivial, hwell, trivial⟩
      rw [selects, Pattern.Regex.search_iff hwhole, Pattern.Regex.spans_anchored]
    · refine iff_of_false ?_ (by simp [hcloses])
      rintro ⟨own, hown, -⟩
      cases hmalformed.symm.trans hown
  · cases h

/-- Alternatives stay inside the group around them. Where the text closes that group, each of them
is bound to one end of a path only. -/
theorem selects_iff_whole_alternatives :
    (∃ pattern own, read "a|b" = .ok pattern ∧ Pattern.read "a|b".toList = .ok own ∧
      ∀ path : String, pattern.selects path = true ↔
        own.Spans path.toList 0 path.toList.length) ∧
    ∃ pattern, read "a)|(?:b" = .ok pattern ∧ pattern.selects "a/c" = true ∧
      pattern.selects "c/b" = true ∧ ¬ ∃ own, Pattern.read "a)|(?:b".toList = .ok own ∧
        ∀ path : String, pattern.selects path = true ↔
          own.Spans path.toList 0 path.toList.length := by
  let a : Pattern.Regex := .set (.range 97 97)
  let b : Pattern.Regex := .set (.range 98 98)
  have hinside : read "a|b" = .ok
      ⟨"a|b", .append (.look .textStart) (.append (.either a b) (.look .textEnd))⟩ := by
    decide +kernel
  have houtside : read "a)|(?:b" = .ok
      ⟨"a)|(?:b", .either (.append (.look .textStart) a) (.append b (.look .textEnd))⟩ := by
    decide +kernel
  obtain ⟨own, hown, hselects⟩ := (selects_iff_whole hinside).mpr (by decide +kernel)
  refine ⟨⟨_, own, hinside, hown, hselects⟩,
    ⟨_, houtside, by decide +kernel, by decide +kernel, ?_⟩⟩
  rw [selects_iff_whole houtside]
  decide +kernel

end PathPattern

end FlowTally
