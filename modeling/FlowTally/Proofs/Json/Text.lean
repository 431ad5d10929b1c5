import FlowTally.Json.Printer
import FlowTally.Json.Reader
import FlowTally.Proofs.Text.Digits

/-!
# Strings and whole numbers read back from JSON text

A written string is read piece by piece, one for each character, and the
pieces join to the string again. The digits of a whole number are read up to
the first character that no number holds, and their value is that number if it
fits in 64 bits.
-/

namespace FlowTally.Json

open Content (ofChars)
open Text.Natural (chars digits digit? valuesOf fold bound64)

variable {c : Char} {n d : Nat} {ds : List Nat} {rest after : Content} {pieces : List Piece}

-- ---------------------------------------------------------------------------
-- Strings
-- ---------------------------------------------------------------------------

def IsUnit (c : Char) : Prop :=
  c.toNat < 0x20 ∧ c ≠ '\x08' ∧ c ≠ '\t' ∧ c ≠ '\n' ∧ c ≠ '\x0c' ∧ c ≠ '\r'

instance (c : Char) : Decidable (IsUnit c) := inferInstanceAs (Decidable (_ ∧ _))

def pieceOf (c : Char) : Piece := if IsUnit c then .unit c.toNat else .char c

def piecesOf (s : String) : List Piece := s.toList.map pieceOf

theorem digit?_hexDigit (h : n < 16) : digit? 16 (hexDigit n) = some n := by
  interval_cases n <;> decide

theorem readPieces_plain (hlow : ¬ c.toNat < 0x20) (hquote : c ≠ '"') (hslash : c ≠ '\\')
    (h : readPieces rest = some (pieces, after)) :
    readPieces (some c :: rest) = some (.char c :: pieces, after) := by
  rw [readPieces]
  · simp [hlow, hslash, h]
  · simpa using hquote
  · exact fun _ _ _ _ _ _ heq => hslash heq
  · exact fun _ _ _ heq => hslash heq

theorem readPieces_unit (hlow : c.toNat < 0x20) (h : readPieces rest = some (pieces, after)) :
    readPieces (some '\\' :: some 'u' :: some '0' :: some '0' :: some (hexDigit (c.toNat / 16)) ::
      some (hexDigit (c.toNat % 16)) :: rest) = some (.unit c.toNat :: pieces, after) := by
  have hzero : digit? 16 '0' = some 0 := by decide
  have hhigh : digit? 16 (hexDigit (c.toNat / 16)) = some (c.toNat / 16) :=
    digit?_hexDigit (by omega)
  have hdigit : digit? 16 (hexDigit (c.toNat % 16)) = some (c.toNat % 16) :=
    digit?_hexDigit (by omega)
  have hvalue : c.toNat / 16 * 16 + c.toNat % 16 = c.toNat := Nat.div_add_mod' ..
  simp [readPieces, hex4?, hzero, hhigh, hdigit, h, hvalue]

theorem readPieces_printChar (h : readPieces rest = some (pieces, after)) :
    readPieces (ofChars (printChar c) ++ rest) = some (pieceOf c :: pieces, after) := by
  by_cases hunit : IsUnit c
  · obtain ⟨hlow, hb, ht, hn, hf, hr⟩ := hunit
    have hquote : c ≠ '"' := by
      rintro rfl
      revert hlow
      decide
    have hslash : c ≠ '\\' := by
      rintro rfl
      revert hlow
      decide
    have hprint : printChar c =
        ['\\', 'u', '0', '0', hexDigit (c.toNat / 16), hexDigit (c.toNat % 16)] := by
      simp [printChar, hquote, hslash, hb, ht, hn, hf, hr, hlow]
    rw [hprint, pieceOf, if_pos ⟨hlow, hb, ht, hn, hf, hr⟩]
    exact readPieces_unit hlow h
  · rw [pieceOf, if_neg hunit]
    unfold printChar
    -- The seven characters with a short escape come first.
    iterate 7
      split
      · rename_i heq
        subst heq
        simp [ofChars, readPieces, escape?, h]
    rename_i hquote hslash hb ht hn hf hr
    have hlow : ¬ c.toNat < 0x20 := fun hlow => hunit ⟨hlow, hb, ht, hn, hf, hr⟩
    rw [if_neg hlow]
    exact readPieces_plain hlow hquote hslash h

theorem readPieces_printChars (cs : List Char) (rest : Content) :
    readPieces (ofChars (cs.flatMap printChar) ++ some '"' :: rest) =
      some (cs.map pieceOf, rest) := by
  induction cs with
  | nil => simp [ofChars, readPieces]
  | cons c cs ih =>
    rw [List.flatMap_cons, Content.ofChars_append, List.append_assoc]
    exact readPieces_printChar ih

theorem joinPieces_unit (hlow : n < 0x20) :
    joinPieces (.unit n :: pieces) = (joinPieces pieces).map (Char.ofNat n :: ·) := by
  have hn : ¬ (0xD800 ≤ n ∧ n < 0xE000) := by omega
  have hhigh : ¬ (0xD800 ≤ n ∧ n < 0xDC00) := by omega
  have hlow : ¬ (0xDC00 ≤ n ∧ n < 0xE000) := by omega
  cases pieces with
  | nil => simp [joinPieces, hn]
  | cons piece pieces => cases piece <;> simp [joinPieces, hn, hhigh, hlow]

theorem joinPieces_pieceOf (cs : List Char) : joinPieces (cs.map pieceOf) = some cs := by
  induction cs with
  | nil => simp [joinPieces]
  | cons c cs ih =>
    rw [List.map_cons, pieceOf]
    split
    · rename_i h
      simp [joinPieces_unit h.1, ih]
    · simp [joinPieces, ih]

theorem text?OfPieces_piecesOf (s : String) : text?OfPieces (piecesOf s) = some s := by
  simp [text?OfPieces, piecesOf, joinPieces_pieceOf]

-- ---------------------------------------------------------------------------
-- Whole numbers
-- ---------------------------------------------------------------------------

def EndsNumber (rest : Content) : Prop :=
  ∀ c, rest.head? = some (some c) → digit? 10 c = none ∧ c ≠ '.' ∧ c ≠ 'e' ∧ c ≠ 'E'

def literalOf (n : Int) : Literal := ⟨decide (n < 0), valuesOf 10 n.natAbs, none, none⟩

theorem readDigits_chars (hds : ∀ d ∈ ds, d < 10) (hrest : EndsNumber rest) :
    readDigits (ofChars (chars ds) ++ rest) = (ds, rest) := by
  induction ds with
  | nil =>
    cases rest with
    | nil => simp [ofChars, readDigits]
    | cons first rest =>
      cases first with
      | none => simp [ofChars, readDigits]
      | some c => simp [ofChars, readDigits, (hrest c rfl).1]
  | cons d ds ih =>
    obtain ⟨hd, hds⟩ := List.forall_mem_cons.mp hds
    have hdigit : digit? 10 d.digitChar = some d := Text.Natural.digit?_digitChar (by decide) hd
    have htail := ih hds
    change readDigits (some d.digitChar :: (ofChars (chars ds) ++ rest)) = _
    simp only [readDigits, hdigit, htail]

theorem readLiteral_digits (negative : Bool) (n : Nat) (hrest : EndsNumber rest) :
    readLiteral negative (ofChars (digits n) ++ rest) =
      some (⟨negative, valuesOf 10 n, none, none⟩, rest) := by
  have hds : ∀ d ∈ valuesOf 10 n, d < 10 := fun d hd =>
    Text.Natural.lt_of_mem_valuesOf (by decide) (by decide) hd
  have hread := readDigits_chars hds hrest
  have hdigits : digits n = chars (valuesOf 10 n) :=
    Text.Natural.toDigits_eq_chars (by decide) (by decide) n
  rw [← hdigits] at hread
  have hwhole : (∃ d, valuesOf 10 n = [d]) ∨ ∃ d e ds, valuesOf 10 n = (d + 1) :: e :: ds := by
    match hv : valuesOf 10 n with
    | [] => exact absurd hv (Text.Natural.valuesOf_ne_nil (by decide) (by decide) n)
    | [d] => exact .inl ⟨d, rfl⟩
    | (d + 1) :: e :: ds => exact .inr ⟨d, e, ds, rfl⟩
    | 0 :: e :: ds =>
      -- Only zero starts with a zero, and zero has one digit.
      have hhead : (valuesOf 10 n).head? = some 0 := by rw [hv]; rfl
      obtain rfl := Text.Natural.valuesOf_head_eq_zero (by decide) (by decide) hhead
      cases hv
  have hrest : rest = [] ∨ (∃ more, rest = none :: more) ∨
      ∃ c more, rest = some c :: more ∧ c ≠ '.' ∧ c ≠ 'e' ∧ c ≠ 'E' := by
    match rest with
    | [] => exact .inl rfl
    | none :: more => exact .inr (.inl ⟨more, rfl⟩)
    | some c :: more => exact .inr (.inr ⟨c, more, rfl, (hrest c rfl).2⟩)
  simp only [readLiteral, hread]
  rcases hwhole with ⟨d, hv⟩ | ⟨d, e, ds, hv⟩ <;>
    rcases hrest with rfl | ⟨more, rfl⟩ | ⟨c, more, rfl, hdot, he, hE⟩ <;>
    simp [*]

theorem takeDigits_fold (h : fold 10 n ds < bound64) : takeDigits n ds = (fold 10 n ds, []) := by
  induction ds generalizing n with
  | nil => rfl
  | cons d ds ih =>
    have hfits : n * 10 + d < bound64 :=
      Nat.lt_of_le_of_lt (Text.Natural.le_fold (by decide) _ ds) h
    simp only [takeDigits, if_pos hfits]
    exact ih h

/-- Numbers whose literal is that of an integer: those of 64 bits, signed or unsigned. -/
def IsWhole (n : Int) : Prop := -9223372036854775808 ≤ n ∧ n < 18446744073709551616

instance (n : Int) : Decidable (IsWhole n) := inferInstanceAs (Decidable (_ ∧ _))

theorem value?_literalOf {n : Int} (h : IsWhole n) : (literalOf n).value? = some (.int n) := by
  obtain ⟨hlow, hhigh⟩ := h
  have hfold : fold 10 0 (valuesOf 10 n.natAbs) = n.natAbs :=
    Text.Natural.fold_valuesOf (by decide) (by decide) n.natAbs
  have htake : takeDigits 0 (valuesOf 10 n.natAbs) = (fold 10 0 (valuesOf 10 n.natAbs), []) :=
    takeDigits_fold (by rw [hfold, show bound64 = 18446744073709551616 from rfl]; omega)
  simp only [Literal.value?, literalOf, htake, hfold]
  by_cases hsign : n < 0
  · have hbound : 0 < n.natAbs ∧ n.natAbs ≤ Nat.pow 2 63 := by
      rw [show Nat.pow 2 63 = 9223372036854775808 from rfl]
      omega
    have hvalue : -(n.natAbs : Int) = n := by omega
    simp only [hsign, decide_true, Bool.not_true, Bool.false_eq_true, if_false, if_pos hbound, hvalue]
  · have hvalue : (n.natAbs : Int) = n := by omega
    simp only [hsign, decide_false, Bool.not_false, if_true, hvalue]

end FlowTally.Json
