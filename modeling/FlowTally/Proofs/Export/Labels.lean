import FlowTally.Export.Labels
import FlowTally.Proofs.Text.Lines

/-!
# Labels read back from their file

A line is split at its first comma. The written label has none, so whatever
the id holds comes back, as long as it stays on the line.
-/

namespace FlowTally.LabelEntry

open Content (OneLine ofChars oneLine_append oneLine_cons)

variable {label id : List Char} {entries : List LabelEntry}

theorem splitComma?_append (h : ',' ∉ label) :
    splitComma? (label ++ ',' :: id) = some (label, id) := by
  have hlabel : ∀ c ∈ label, (c != ',') = true := by
    intro c hc
    refine bne_iff_ne.mpr ?_
    rintro rfl
    exact h hc
  simp [splitComma?, List.dropWhile_append_of_pos hlabel, List.takeWhile_append_of_pos hlabel]

theorem comma_not_mem_format (style : LabelStyle) (label : Bool) :
    ',' ∉ (style.format label).toList := by
  cases style <;> cases label <;> decide

theorem oneLine_format (style : LabelStyle) (label : Bool) :
    OneLine (style.format label).toList := by
  cases style <;> cases label <;> decide

def text (style : LabelStyle) (e : LabelEntry) : List Char :=
  (style.format e.label).toList ++ ',' :: e.sampleId.toList

theorem readLine_text (style : LabelStyle) (e : LabelEntry) :
    readLine (ofChars (text style e)) = .ok e := by
  have hsplit : splitComma? (text style e) =
      some ((style.format e.label).toList, e.sampleId.toList) :=
    splitComma?_append (comma_not_mem_format style e.label)
  simp [readLine, hsplit, LabelStyle.readLabel?_format]

theorem oneLine_text {e : LabelEntry} (style : LabelStyle) (h : OneLine e.sampleId.toList) :
    OneLine (text style e) :=
  oneLine_append.mpr ⟨oneLine_format style e.label, oneLine_cons.mpr ⟨by decide, h⟩⟩

theorem readLines_writeLines (style : LabelStyle) (h : ∀ e ∈ entries, OneLine e.sampleId.toList) :
    readLines (Content.lines (ofChars (writeLines style entries))) = .ok entries := by
  have hlines : Content.lines (ofChars (writeLines style entries)) =
      entries.map fun e => ofChars (text style e) :=
    Content.lines_flatMap (text style) fun e he => oneLine_text style (h e he)
  rw [hlines]
  clear hlines h
  induction entries with
  | nil => rfl
  | cons e entries ih => simp [readLines, readLine_text, ih, Except.bind, Except.map]

end FlowTally.LabelEntry
