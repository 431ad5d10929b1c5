import FlowTally.Proofs.Yaml.Quoted

/-!
# Printed scalars

What a text on one line is printed as: plain, in single or in double quotes. In
each of the three forms it starts no comment, and all its characters may stand
in a document.
-/

namespace FlowTally.Yaml

open Text.Natural (lt_of_mem_padded)

variable {cs : List Char} {c : Char}

def printsPlain (cs : List Char) : Bool := !isAmbiguous cs && plainAllowed cs

theorem plainText_of_printsPlain (h : printsPlain cs = true) : PlainText cs := by
  obtain ⟨hambiguous, hallowed⟩ := Bool.and_eq_true_iff.mp h
  refine plainText_of_allowed ?_ hallowed
  rintro rfl
  exact absurd hambiguous (by decide)

theorem scalarText_inline (h : ∀ c ∈ cs, isInline c = true) :
    scalarText cs =
      if printsPlain cs then cs
      else if singleQuotedAllowed cs then singleQuotedText cs
      else doubleQuotedText cs := by
  have hline : cs.contains '\n' = false := by
    rw [Bool.eq_false_iff, ne_eq, List.contains_iff_mem]
    intro hmem
    exact absurd (h _ hmem) (by decide)
  rw [scalarText, hline]
  rfl

theorem PlainText.startsLine (h : PlainText cs) (after : List Char) : StartsLine (cs ++ after) := by
  cases cs with
  | nil => exact absurd rfl h.nonempty
  | cons c cs =>
    rintro _ ⟨⟩
    refine ⟨h.first.1, h.first.2.1, ?_⟩
    rintro rfl
    cases h.start

theorem startsLine_scalarText (h : ∀ c ∈ cs, isInline c = true) (after : List Char) :
    StartsLine (scalarText cs ++ after) := by
  rw [scalarText_inline h]
  split_ifs with hplain
  · exact (plainText_of_printsPlain hplain).startsLine after
  · rintro _ ⟨⟩
    decide
  · rintro _ ⟨⟩
    decide

theorem printable_of_mem_doubleQuotedChar (c : Char) :
    ∀ d ∈ doubleQuotedChar c, isPrintable d = true := by
  have hhex (width n : Nat) : ∀ d ∈ hexUpper width n, isPrintable d = true := by
    intro d hd
    rw [hexUpper_eq] at hd
    obtain ⟨value, hvalue, rfl⟩ := List.mem_map.mp hd
    have hlt := lt_of_mem_padded (by decide) (by decide) hvalue
    interval_cases value <;> decide
  have hlong (letter : Char) (hletter : isPrintable letter = true) (width n : Nat) :
      ∀ d ∈ '\\' :: letter :: hexUpper width n, isPrintable d = true :=
    List.forall_mem_cons.mpr ⟨by decide, List.forall_mem_cons.mpr ⟨hletter, hhex width n⟩⟩
  unfold doubleQuotedChar
  split
  · rename_i letter hletter
    have hprintable : isPrintable letter = true := by
      unfold escapeLetter? at hletter
      split at hletter <;> cases hletter <;> decide
    simpa using ⟨by decide, hprintable⟩
  · dsimp only
    split_ifs with hprintable
    · simpa using hprintable
    all_goals exact hlong _ (by decide) _ _

theorem printable_between {quote : Char} (hquote : isPrintable quote = true)
    (h : ∀ c ∈ cs, isPrintable c = true) : ∀ c ∈ quote :: cs ++ [quote], isPrintable c = true := by
  intro c hc
  simp only [List.mem_append, List.mem_cons, List.not_mem_nil, or_false] at hc
  obtain (rfl | hc) | rfl := hc
  · exact hquote
  · exact h c hc
  · exact hquote

theorem printable_flatMap {items : List α} {f : α → List Char}
    (h : ∀ item ∈ items, ∀ c ∈ f item, isPrintable c = true) :
    ∀ c ∈ items.flatMap f, isPrintable c = true := by
  intro c hc
  obtain ⟨item, hitem, hc⟩ := List.mem_flatMap.mp hc
  exact h item hitem c hc

theorem printable_of_mem_scalarText (h : ∀ c ∈ cs, isInline c = true) :
    ∀ c ∈ scalarText cs, isPrintable c = true := by
  rw [scalarText_inline h]
  split_ifs with hplain hsingle
  · simp only [printsPlain, plainAllowed, Bool.and_eq_true, List.all_eq_true] at hplain
    exact hplain.2.1.1.1.2
  · simp only [singleQuotedAllowed, Bool.and_eq_true, List.all_eq_true] at hsingle
    rw [singleQuotedText, singleQuotedBody_inline fun c hc => not_break_of_inline (h c hc)]
    refine printable_between (by decide) fun d hd => ?_
    obtain ⟨c, hc, hd⟩ := List.mem_flatMap.mp hd
    have hprintable := hsingle.1.1 c hc
    unfold singleQuotedChar at hd
    grind
  · rw [doubleQuotedText]
    refine printable_between (by decide) fun d hd => ?_
    obtain ⟨c, -, hd⟩ := List.mem_flatMap.mp hd
    exact printable_of_mem_doubleQuotedChar c d hd

end FlowTally.Yaml
