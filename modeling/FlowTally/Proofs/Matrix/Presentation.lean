import FlowTally.Proofs.Matrix.Listing
import FlowTally.Proofs.Sorting
import Mathlib

/-!
# Changes that a table does not show

The same table can be written in many ways: its lines in another order, with other blanks
between the fields, comments, line ends or letter case. `Restyled` lists such changes, one
at a time, on the lines of a text as its line feeds cut them. None of them changes what the
text lists (`Restyled.represents`), so no run of them changes the table that is read
(`read_restyled`).
-/

namespace FlowTally.Market

open Content (Bodies HasBody ofChars)
open Text (AllBlank Spaced isBlank trim words)

def SameLetter (c d : Char) : Prop := c.toLower = d.toLower

def IsFiller (line : List Char) : Prop :=
  AllBlank line ∨ ∃ before comment, AllBlank before ∧ line = before ++ '%' :: comment

/-- One change of the lines of a text, of which the first is the header. -/
inductive Restyled : List (List Char) → List (List Char) → Prop
  | letters (h : List.Forall₂ SameLetter first other) : Restyled (first :: rest) (other :: rest)
  | returned (before : List (List Char)) :
      Restyled (before ++ line :: next :: after) (before ++ (line ++ ['\r']) :: next :: after)
  | inserted (h : IsFiller line) (before : List (List Char)) :
      Restyled (first :: (before ++ after)) (first :: (before ++ line :: after))
  | deleted (h : IsFiller line) (before : List (List Char)) :
      Restyled (first :: (before ++ line :: after)) (first :: (before ++ after))
  | spaced (h : Spaced ws line) (hother : Spaced ws other) (before : List (List Char)) :
      Restyled (first :: (before ++ line :: after)) (first :: (before ++ other :: after))
  /-- The lines behind the size line in another order. -/
  | permuted (fillers : List (List Char)) (hfillers : ∀ line ∈ fillers, IsFiller line)
      (hsize : ¬ IsFiller size) (h : lines.Perm others) :
      Restyled (first :: (fillers ++ size :: lines)) (first :: (fillers ++ size :: others))

def Restyles (cs ds : List Char) : Prop := Restyled (cs.splitOn '\n') (ds.splitOn '\n')

def Represents : List (List Char) → CellTable → Prop
  | [], _ => False
  | first :: rest, t => isHeader first = true ∧ Lists (entries rest) t

variable {t : CellTable} {cs ds line first other : List Char} {lines others : List (List Char)}
  {size : List (List Char)} {listed reordered : List (List (List Char))}

-- ---------------------------------------------------------------------------
-- Headers
-- ---------------------------------------------------------------------------

theorem isBlank_toLower (c : Char) : isBlank c.toLower = isBlank c := by
  by_cases hupper : c.val ≥ 'A'.val ∧ c.val ≤ 'Z'.val
  · have hlow : 65 ≤ c.toNat := hupper.1
    have hhigh : c.toNat ≤ 90 := hupper.2
    have hlower : c.toLower.toNat = c.toNat + 32 := by
      rw [Char.toLower, dif_pos hupper]
      change (c.toNat + 32) % 2 ^ 32 = c.toNat + 32
      omega
    rw [Text.isBlank_of_between (by omega) (by omega),
      Text.isBlank_of_between (c := c) (by omega) (by omega)]
  · rw [Char.toLower, dif_neg hupper]

theorem dropWhile_map_toLower (cs : List Char) :
    (cs.map Char.toLower).dropWhile isBlank = (cs.dropWhile isBlank).map Char.toLower := by
  have hcomp : isBlank ∘ Char.toLower = isBlank := funext isBlank_toLower
  rw [List.dropWhile_map, hcomp]

theorem trim_map_toLower (cs : List Char) :
    trim (cs.map Char.toLower) = (trim cs).map Char.toLower := by
  simp only [trim, dropWhile_map_toLower, ← List.map_reverse]

theorem isHeader_letters (h : List.Forall₂ SameLetter first other) :
    isHeader first = isHeader other := by
  have hletters : first.map Char.toLower = other.map Char.toLower := by
    rw [← List.forall₂_eq_eq_eq]
    exact List.forall₂_map_left_iff.mpr (List.forall₂_map_right_iff.mpr h)
  have htrim := congrArg trim hletters
  rw [trim_map_toLower, trim_map_toLower] at htrim
  exact congrArg (· == header.map Char.toLower) htrim

theorem isHeader_return (line : List Char) : isHeader (line ++ ['\r']) = isHeader line := by
  rw [isHeader, Text.trim_concat_blank (by decide), isHeader]

-- ---------------------------------------------------------------------------
-- Lines behind the header
-- ---------------------------------------------------------------------------

theorem isSkipped_of_isFiller (h : IsFiller line) : isSkipped line = true := by
  rw [isSkipped_eq]
  rcases h with hblank | ⟨before, comment, hbefore, rfl⟩
  · rw [Text.words_of_spaced (.nil hblank)]
    rfl
  · obtain ⟨w, ws, hwords⟩ := Text.exists_words_cons (c := '%') (by decide) comment
    rw [Text.words_append_of_allBlank hbefore, hwords]
    rfl

theorem isFiller_of_isSkipped (h : isSkipped line = true) : IsFiller line := by
  induction line with
  | nil => exact .inl (by simp [AllBlank])
  | cons c line ih =>
    by_cases hc : isBlank c = true
    · rw [isSkipped_eq, Text.words_cons_blank hc, ← isSkipped_eq] at h
      rcases ih h with hblank | ⟨before, comment, hbefore, rfl⟩
      · exact .inl (List.forall_mem_cons.mpr ⟨hc, hblank⟩)
      · exact .inr ⟨c :: before, comment, List.forall_mem_cons.mpr ⟨hc, hbefore⟩, rfl⟩
    · obtain ⟨w, ws, hwords⟩ := Text.exists_words_cons (Bool.eq_false_iff.mpr hc) line
      rw [isSkipped_eq, hwords] at h
      have hpercent : c = '%' := by simpa [isEntry] using h
      exact .inr ⟨[], line, by simp [AllBlank], by rw [hpercent]; rfl⟩

theorem entries_congr (h : words line = words other) (before after : List (List Char)) :
    entries (before ++ line :: after) = entries (before ++ other :: after) := by
  simp only [entries, List.map_append, List.map_cons, h]

theorem entries_filler (h : IsFiller line) (before after : List (List Char)) :
    entries (before ++ line :: after) = entries (before ++ after) := by
  rw [entries_append, entries_cons, if_pos (isSkipped_of_isFiller h), ← entries_append]

theorem words_return (line : List Char) : words (line ++ ['\r']) = words line :=
  Text.words_concat_blank (by decide) line

theorem Lists.perm (h : Lists (size :: listed) t) (hperm : listed.Perm reordered) :
    Lists (size :: reordered) t := by
  cases h with
  | intro hsize hroom hcells =>
    obtain ⟨moved, hmoved, hsame⟩ := List.perm_comp_forall₂ hperm.symm hcells
    rw [← hsame.length_eq] at hsize hroom
    rw [← mergeSort_eq_of_perm Cell.le_trans Cell.le_total Cell.le_antisymm hsame]
    exact .intro hsize hroom hmoved

-- ---------------------------------------------------------------------------
-- Changes
-- ---------------------------------------------------------------------------

theorem entries_size {fillers : List (List Char)} (hfillers : ∀ line ∈ fillers, IsFiller line)
    (hsize : ¬ IsFiller line) (behind : List (List Char)) :
    entries (fillers ++ line :: behind) = words line :: entries behind := by
  have hskipped : entries fillers = [] :=
    entries_of_skipped fun filler hm => isSkipped_of_isFiller (hfillers filler hm)
  rw [entries_append, hskipped, List.nil_append, entries_cons,
    if_neg fun hskip => hsize (isFiller_of_isSkipped hskip)]

theorem Restyled.represents (h : Restyled lines others) (ht : Represents lines t) :
    Represents others t := by
  cases h with
  | letters h =>
    obtain ⟨hheader, hlists⟩ := ht
    exact ⟨isHeader_letters h ▸ hheader, hlists⟩
  | @returned line next after before =>
    cases before with
    | nil =>
      obtain ⟨hheader, hlists⟩ := ht
      exact ⟨(isHeader_return line).trans hheader, hlists⟩
    | cons first before =>
      obtain ⟨hheader, hlists⟩ := ht
      exact ⟨hheader, entries_congr (words_return line) before (next :: after) ▸ hlists⟩
  | inserted h before =>
    obtain ⟨hheader, hlists⟩ := ht
    exact ⟨hheader, (entries_filler h before _).symm ▸ hlists⟩
  | deleted h before =>
    obtain ⟨hheader, hlists⟩ := ht
    exact ⟨hheader, entries_filler h before _ ▸ hlists⟩
  | spaced h hother before =>
    obtain ⟨hheader, hlists⟩ := ht
    have hwords := (Text.words_of_spaced h).trans (Text.words_of_spaced hother).symm
    exact ⟨hheader, entries_congr hwords before _ ▸ hlists⟩
  | permuted fillers hfillers hsize hperm =>
    obtain ⟨hheader, hlists⟩ := ht
    rw [entries_size hfillers hsize] at hlists
    refine ⟨hheader, ?_⟩
    rw [entries_size hfillers hsize]
    exact hlists.perm ((hperm.map words).filter isEntry)

-- ---------------------------------------------------------------------------
-- Texts
-- ---------------------------------------------------------------------------

theorem words_hasBody {body : List Char} (h : HasBody line body) : words line = words body := by
  rcases h with rfl | rfl
  · rfl
  · exact words_return body

theorem entries_bodies (h : Bodies lines others) : entries lines = entries others := by
  induction h with
  | none => rfl
  | last _ => rfl
  | cons hline _ ih =>
    simp only [entries, List.map_cons, List.filter_cons, words_hasBody hline] at ih ⊢
    rw [ih]

theorem isHeader_hasBody {body : List Char} (h : HasBody line body) :
    isHeader line = isHeader body := by
  rcases h with rfl | rfl
  · rfl
  · exact isHeader_return body

theorem represents_bodies (h : Bodies lines others) : Represents lines t ↔ Represents others t := by
  cases h with
  | none =>
    have hheader : isHeader [] = false := by decide
    simp [Represents, hheader]
  | last _ => rfl
  | cons hline hrest => rw [Represents, Represents, isHeader_hasBody hline, entries_bodies hrest]

theorem readLines_ofChars_ok_iff :
    readLines (lines.map ofChars) = .ok t ↔ Represents lines t := by
  rw [readLines_ok_iff]
  cases lines with
  | nil => simp [Represents]
  | cons first rest =>
    constructor
    · rintro ⟨header, behind, hlines, hheader, hlists⟩
      obtain ⟨hfirst, hrest⟩ := List.cons.inj hlines
      cases Content.ofChars_inj hfirst
      cases List.map_injective_iff.mpr (fun _ _ => Content.ofChars_inj) hrest
      exact ⟨hheader, hlists⟩
    · rintro ⟨hheader, hlists⟩
      exact ⟨first, rest, rfl, hheader, hlists⟩

theorem read_ofChars_ok_iff : read (ofChars cs) = .ok t ↔ Represents (cs.splitOn '\n') t := by
  obtain ⟨bodies, hlines, hbodies⟩ := Content.exists_bodies cs
  rw [read, hlines, readLines_ofChars_ok_iff, represents_bodies hbodies]

theorem Restyles.read (h : Restyles cs ds) (hr : read (ofChars cs) = .ok t) :
    read (ofChars ds) = .ok t :=
  read_ofChars_ok_iff.mpr (h.represents (read_ofChars_ok_iff.mp hr))

/-- A table that is read from a text is read from every text that changes lead to. -/
theorem read_restyled (h : Relation.ReflTransGen Restyles cs ds)
    (hr : read (ofChars cs) = .ok t) : read (ofChars ds) = .ok t := by
  induction h with
  | refl => exact hr
  | tail _ hstep ih => exact hstep.read ih

theorem restyles_intercalate (hlines : ∀ line ∈ lines, '\n' ∉ line) (hne : lines ≠ [])
    (hothers : ∀ line ∈ others, '\n' ∉ line) (hne' : others ≠ []) (h : Restyled lines others) :
    Restyles (['\n'].intercalate lines) (['\n'].intercalate others) := by
  rw [Restyles, List.splitOn_intercalate _ hlines hne, List.splitOn_intercalate _ hothers hne']
  exact h

def writtenTable : CellTable := ⟨2, 3, [⟨0, 0, 4⟩, ⟨1, 2, 5⟩, ⟨1, 2, 7⟩]⟩

def writtenLines : List (List Char) :=
  [header, "2 3 3".toList, "1 1 4".toList, "2 3 5".toList, "2 3 7".toList, []]

def loweredLines : List (List Char) := header.map Char.toLower :: writtenLines.tail

def returnedLines : List (List Char) :=
  [header.map Char.toLower, "2 3 3\r".toList, "1 1 4".toList, "2 3 5".toList, "2 3 7".toList, []]

def commentedLines : List (List Char) :=
  [header.map Char.toLower, "2 3 3\r".toList, "\t% moved".toList, "1 1 4".toList, "2 3 5".toList,
    "2 3 7".toList, []]

def reorderedLines : List (List Char) :=
  [header.map Char.toLower, "2 3 3\r".toList, "2 3 7".toList, "\t% moved".toList, "1 1 4".toList,
    "2 3 5".toList, []]

theorem read_restyled_reorderedLines :
    Relation.ReflTransGen Restyles (['\n'].intercalate writtenLines)
        (['\n'].intercalate reorderedLines) ∧
      read (ofChars (['\n'].intercalate writtenLines)) = .ok writtenTable ∧
      read (ofChars (['\n'].intercalate reorderedLines)) = .ok writtenTable := by
  have hletters : ∀ c ∈ header, SameLetter c c.toLower :=
    fun c _ => (Char.toLower_toLower_eq_toLower c).symm
  have hlowered : Restyled writtenLines loweredLines :=
    .letters (List.forall₂_map_right_iff.mpr (List.forall₂_same.mpr hletters))
  have hreturned : Restyled loweredLines returnedLines := .returned [header.map Char.toLower]
  have hcommented : Restyled returnedLines commentedLines :=
    .inserted (.inr ⟨['\t'], " moved".toList, List.forall_mem_singleton.mpr rfl, rfl⟩)
      ["2 3 3\r".toList]
  have hreordered : Restyled commentedLines reorderedLines := by
    refine .permuted [] (by simp) (fun h => ?_) (by decide)
    exact absurd (isSkipped_of_isFiller h) (by decide)
  have hchanges : Relation.ReflTransGen Restyles (['\n'].intercalate writtenLines)
      (['\n'].intercalate reorderedLines) :=
    .tail (.tail (.tail (.tail .refl
      (restyles_intercalate (by decide) (by decide) (by decide) (by decide) hlowered))
      (restyles_intercalate (by decide) (by decide) (by decide) (by decide) hreturned))
      (restyles_intercalate (by decide) (by decide) (by decide) (by decide) hcommented))
      (restyles_intercalate (by decide) (by decide) (by decide) (by decide) hreordered)
  have hwritten : ['\n'].intercalate writtenLines = write writtenTable := by decide
  have hregular : Regular writtenTable :=
    ⟨by decide, by decide, by decide, by decide, by decide, by decide, by decide⟩
  have hread : read (ofChars (['\n'].intercalate writtenLines)) = .ok writtenTable := by
    rw [hwritten, read_write hregular]
  exact ⟨hchanges, hread, read_restyled hchanges hread⟩

end FlowTally.Market
