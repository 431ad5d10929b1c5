import FlowTally.Proofs.Json.Text

/-!
# Written JSON text

`Written tree cs` says that `cs` is a text of the tree: strings and whole
numbers as a printer writes them, and any blanks in front of and behind the
parts of arrays and objects. The reader takes every such text and gives the
tree (`tree?_written`), with fuel that grows with the text. What is between the
parts makes no difference, so both layouts of a printer are covered.
-/

namespace FlowTally.Json

open Content (ofChars)

def Blank (ws : List Char) : Prop := ∀ c ∈ ws, isSpace c = true

mutual
/-- A text of a tree, without blanks in front. -/
inductive Written : Tree → List Char → Prop
  | null : Written .null (print .null)
  | bool (b : Bool) : Written (.bool b) (print (.bool b))
  | int (n : Int) : Written (.num (literalOf n)) (Binary64.intText n)
  | str (s : String) : Written (.str (piecesOf s)) (printString s)
  | noItems : Written (.arr []) ['[', ']']
  | items {items : List Tree} {cs : List Char} : WrittenItems items cs →
      Written (.arr items) ('[' :: cs)
  | noFields : Written (.obj []) ['{', '}']
  | fields {fields : List (List Piece × Tree)} {cs : List Char} : WrittenFields fields cs →
      Written (.obj fields) ('{' :: cs)
inductive WrittenItems : List Tree → List Char → Prop
  | last {item : Tree} (before cs after : List Char) : Blank before → Written item cs →
      Blank after → WrittenItems [item] (before ++ cs ++ (after ++ [']']))
  | cons {item : Tree} {rest : List Tree} (before cs ds : List Char) : Blank before →
      Written item cs → WrittenItems rest ds →
      WrittenItems (item :: rest) (before ++ cs ++ (',' :: ds))
inductive WrittenFields : List (List Piece × Tree) → List Char → Prop
  | last {value : Tree} (name : String) (before gap cs after : List Char) : Blank before →
      Blank gap → Written value cs → Blank after →
      WrittenFields [(piecesOf name, value)]
        (before ++ printString name ++ (':' :: gap ++ cs ++ (after ++ ['\x7d'])))
  | cons {value : Tree} {rest : List (List Piece × Tree)} (name : String)
      (before gap cs ds : List Char) : Blank before → Blank gap → Written value cs →
      WrittenFields rest ds →
      WrittenFields ((piecesOf name, value) :: rest)
        (before ++ printString name ++ (':' :: gap ++ cs ++ (',' :: ds)))
end

variable {tree : Tree} {items : List Tree} {fields : List (List Piece × Tree)}
  {cs ws before after : List Char} {c : Char} {rest : Content} {fuel : Nat}

-- ---------------------------------------------------------------------------
-- Blanks
-- ---------------------------------------------------------------------------

theorem skipSpace_blank (h : Blank ws) (rest : Content) :
    skipSpace (ofChars ws ++ rest) = skipSpace rest := by
  induction ws with
  | nil => rfl
  | cons c ws ih =>
    obtain ⟨hc, hws⟩ := List.forall_mem_cons.mp h
    change skipSpace (some c :: (ofChars ws ++ rest)) = _
    rw [skipSpace, if_pos hc, ih hws]

theorem skipSpace_cons (h : isSpace c = false) (rest : Content) :
    skipSpace (some c :: rest) = some c :: rest := by
  rw [skipSpace, if_neg (by simp [h])]

theorem skipSpace_skipSpace (cs : Content) : skipSpace (skipSpace cs) = skipSpace cs := by
  induction cs with
  | nil => rfl
  | cons first rest ih =>
    cases first with
    | none => rfl
    | some c =>
      by_cases hc : isSpace c = true
      · rw [skipSpace, if_pos hc, ih]
      · have hc' : isSpace c = false := by simpa using hc
        rw [skipSpace_cons hc', skipSpace_cons hc']

theorem readTree_skipSpace (fuel : Nat) (cs : Content) :
    readTree fuel (skipSpace cs) = readTree fuel cs := by
  cases fuel with
  | zero => rfl
  | succ fuel => rw [readTree, readTree, skipSpace_skipSpace]

theorem readItems_skipSpace (fuel : Nat) (cs : Content) :
    readItems fuel (skipSpace cs) = readItems fuel cs := by
  cases fuel with
  | zero => rfl
  | succ fuel => rw [readItems, readItems, readTree_skipSpace]

theorem readFields_skipSpace (fuel : Nat) (cs : Content) :
    readFields fuel (skipSpace cs) = readFields fuel cs := by
  cases fuel with
  | zero => rfl
  | succ fuel => rw [readFields, readFields, skipSpace_skipSpace]

theorem endsNumber_blank (h : Blank ws) (hc : c = ',' ∨ c = ']' ∨ c = '\x7d') (rest : Content) :
    EndsNumber (ofChars ws ++ some c :: rest) := by
  intro d hd
  cases ws with
  | nil =>
    cases Option.some.inj (Option.some.inj hd)
    rcases hc with rfl | rfl | rfl <;> decide
  | cons w ws =>
    cases Option.some.inj (Option.some.inj hd)
    have hw := h d (List.mem_cons_self ..)
    simp only [isSpace, Bool.or_eq_true, decide_eq_true_eq] at hw
    rcases hw with ((rfl | rfl) | rfl) | rfl <;> decide

theorem endsNumber_comma (rest : Content) : EndsNumber (some ',' :: rest) := by
  have hnone : Blank [] := by simp [Blank]
  exact endsNumber_blank hnone (.inl rfl) rest

-- ---------------------------------------------------------------------------
-- Values
-- ---------------------------------------------------------------------------

theorem readTree_digit {d : Nat} (hd : d < 10) (fuel : Nat) (rest : Content) :
    readTree (fuel + 1) (some d.digitChar :: rest) =
      (readLiteral false (some d.digitChar :: rest)).map fun r => (.num r.1, r.2) := by
  interval_cases d <;> simp [readTree, skipSpace, isSpace, Nat.digitChar]

theorem exists_digits_eq_cons (n : Nat) :
    ∃ d < 10, ∃ ds, Text.Natural.digits n = d.digitChar :: ds := by
  have hdigits : Text.Natural.digits n = Text.Natural.chars (Text.Natural.valuesOf 10 n) :=
    Text.Natural.toDigits_eq_chars (by decide) (by decide) n
  cases hv : Text.Natural.valuesOf 10 n with
  | nil => exact absurd hv (Text.Natural.valuesOf_ne_nil (by decide) (by decide) n)
  | cons d ds =>
    have hd : d < 10 :=
      Text.Natural.lt_of_mem_valuesOf (by decide) (by decide) (hv ▸ List.mem_cons_self ..)
    exact ⟨d, hd, Text.Natural.chars ds, by rw [hdigits, hv]; rfl⟩

theorem readTree_int (n : Int) (hrest : EndsNumber rest) :
    readTree (fuel + 1) (ofChars (Binary64.intText n) ++ rest) = some (.num (literalOf n), rest) := by
  unfold Binary64.intText
  split
  · rename_i hn
    have hread := readLiteral_digits true n.natAbs hrest
    change readTree (fuel + 1) (some '-' :: (ofChars (Text.Natural.digits n.natAbs) ++ rest)) = _
    simp [readTree, skipSpace, isSpace, hread, literalOf, hn]
  · rename_i hn
    have hread := readLiteral_digits false n.natAbs hrest
    obtain ⟨d, hd, ds, hds⟩ := exists_digits_eq_cons n.natAbs
    rw [hds] at hread
    change readTree (fuel + 1) (ofChars (Text.Natural.digits n.natAbs) ++ rest) = _
    rw [hds]
    refine (readTree_digit hd fuel _).trans ?_
    change (readLiteral false (ofChars (d.digitChar :: ds) ++ rest)).map _ = _
    simp [hread, literalOf, hn]

/-- A written value starts with a character that is no blank and closes nothing. -/
theorem Written.exists_eq_cons (h : Written tree cs) :
    ∃ c ds, cs = c :: ds ∧ isSpace c = false ∧ c ≠ ']' ∧ c ≠ '\x7d' := by
  cases h with
  | null => exact ⟨_, _, rfl, by decide, by decide, by decide⟩
  | bool b => cases b <;> exact ⟨_, _, rfl, by decide, by decide, by decide⟩
  | int n =>
    unfold Binary64.intText
    split
    · exact ⟨_, _, rfl, by decide, by decide, by decide⟩
    · obtain ⟨d, hd, ds, hds⟩ := exists_digits_eq_cons n.natAbs
      refine ⟨_, _, hds, ?_, ?_, ?_⟩ <;> interval_cases d <;> decide
  | str s => exact ⟨_, _, rfl, by decide, by decide, by decide⟩
  | noItems => exact ⟨_, _, rfl, by decide, by decide, by decide⟩
  | items _ => exact ⟨_, _, rfl, by decide, by decide, by decide⟩
  | noFields => exact ⟨_, _, rfl, by decide, by decide, by decide⟩
  | fields _ => exact ⟨_, _, rfl, by decide, by decide, by decide⟩

theorem skipSpace_before {ds es : List Char} (hws : Blank ws) (hc : isSpace c = false)
    (rest : Content) :
    skipSpace (ofChars (ws ++ (c :: ds) ++ es) ++ rest) = some c :: (ofChars (ds ++ es) ++ rest) := by
  rw [List.append_assoc, Content.ofChars_append, List.append_assoc, skipSpace_blank hws]
  exact skipSpace_cons hc _

theorem WrittenItems.skipSpace_eq (h : WrittenItems items cs) (rest : Content) :
    ∃ c more, skipSpace (ofChars cs ++ rest) = some c :: more ∧ c ≠ ']' := by
  cases h with
  | last _ _ _ hbefore hitem _ =>
    obtain ⟨c, ds, rfl, hc, hne, -⟩ := hitem.exists_eq_cons
    exact ⟨c, _, skipSpace_before hbefore hc rest, hne⟩
  | cons _ _ _ hbefore hitem _ =>
    obtain ⟨c, ds, rfl, hc, hne, -⟩ := hitem.exists_eq_cons
    exact ⟨c, _, skipSpace_before hbefore hc rest, hne⟩

theorem WrittenFields.skipSpace_eq (h : WrittenFields fields cs) (rest : Content) :
    ∃ more, skipSpace (ofChars cs ++ rest) = some '"' :: more := by
  cases h with
  | last _ _ _ _ _ hbefore _ _ _ => exact ⟨_, skipSpace_before hbefore (by decide) rest⟩
  | cons _ _ _ _ _ hbefore _ _ _ => exact ⟨_, skipSpace_before hbefore (by decide) rest⟩

-- ---------------------------------------------------------------------------
-- Arrays and objects
-- ---------------------------------------------------------------------------

theorem readTree_blank (h : Blank ws) (fuel : Nat) (rest : Content) :
    readTree fuel (ofChars ws ++ rest) = readTree fuel rest := by
  rw [← readTree_skipSpace, skipSpace_blank h, readTree_skipSpace]

theorem readItems_before (hbefore : Blank before) (fuel : Nat) (rest : Content) :
    readItems (fuel + 1) (ofChars before ++ rest) = readItems (fuel + 1) rest := by
  simp only [readItems, readTree_blank hbefore]

theorem readFields_name (name : String) (hbefore : Blank before) (fuel : Nat) (rest : Content) :
    readFields (fuel + 1) (ofChars (before ++ printString name) ++ some ':' :: rest) =
      match readTree fuel rest with
      | none => none
      | some (value, rest) =>
        match skipSpace rest with
        | some '\x7d' :: rest => some ([(piecesOf name, value)], rest)
        | some ',' :: rest =>
          (readFields fuel rest).map fun (fields, rest) => ((piecesOf name, value) :: fields, rest)
        | _ => none := by
  have hskip : skipSpace (ofChars (before ++ printString name) ++ some ':' :: rest) =
      some '"' :: (ofChars (name.toList.flatMap printChar) ++ some '"' :: some ':' :: rest) := by
    rw [Content.ofChars_append, List.append_assoc, skipSpace_blank hbefore]
    simp [printString, ofChars, skipSpace_cons (show isSpace '"' = false by decide)]
  have hcolon : skipSpace (some ':' :: rest) = some ':' :: rest := skipSpace_cons (by decide) rest
  simp only [readFields, hskip, readPieces_printChars, hcolon]
  rfl

-- The three texts are parts of each other, so they are read together; two steps of fuel for each
-- character are enough at every place.
mutual
theorem readTree_written : {tree : Tree} → {cs : List Char} → Written tree cs →
    (fuel : Nat) → (rest : Content) → 2 * cs.length ≤ fuel → EndsNumber rest →
    readTree fuel (ofChars cs ++ rest) = some (tree, rest)
  | _, _, .null, fuel + 1, rest, _, _ => by
    simp [readTree, print, ofChars, skipSpace, isSpace]
  | _, _, .bool b, fuel + 1, rest, _, _ => by
    cases b <;> simp [readTree, print, ofChars, skipSpace, isSpace]
  | _, _, .int n, fuel + 1, rest, _, hrest => readTree_int n hrest
  | _, _, .str s, fuel + 1, rest, _, _ => by
    have hread := readPieces_printChars s.toList rest
    have htext : ofChars (printString s) ++ rest =
        some '"' :: (ofChars (s.toList.flatMap printChar) ++ some '"' :: rest) := by
      simp [printString, ofChars]
    simp [htext, readTree, skipSpace, isSpace, hread, piecesOf]
  | _, _, .noItems, fuel + 1, rest, _, _ => by
    simp [readTree, ofChars, skipSpace, isSpace]
  | _, _, .items h, fuel + 1, rest, hfuel, _ => by
    obtain ⟨c, more, hskip, hne⟩ := h.skipSpace_eq rest
    have hread := readItems_written h fuel rest (by simp only [List.length_cons] at hfuel; omega)
    rw [← readItems_skipSpace, hskip] at hread
    change readTree (fuel + 1) (some '[' :: (ofChars _ ++ rest)) = _
    simp [readTree, skipSpace_cons (show isSpace '[' = false by decide), hskip, hread, hne]
  | _, _, .noFields, fuel + 1, rest, _, _ => by
    simp [readTree, ofChars, skipSpace, isSpace]
  | _, _, .fields h, fuel + 1, rest, hfuel, _ => by
    obtain ⟨more, hskip⟩ := h.skipSpace_eq rest
    have hread := readFields_written h fuel rest (by simp only [List.length_cons] at hfuel; omega)
    rw [← readFields_skipSpace, hskip] at hread
    change readTree (fuel + 1) (some '\x7b' :: (ofChars _ ++ rest)) = _
    simp [readTree, skipSpace_cons (show isSpace '\x7b' = false by decide), hskip, hread]
  | _, _, h, 0, _, hfuel, _ => by
    obtain ⟨c, ds, rfl, -⟩ := h.exists_eq_cons
    simp at hfuel
theorem readItems_written : {items : List Tree} → {cs : List Char} → WrittenItems items cs →
    (fuel : Nat) → (rest : Content) → 2 * cs.length ≤ fuel →
    readItems fuel (ofChars cs ++ rest) = some (items, rest)
  | _, _, .last before cs after hbefore hitem hafter, fuel + 1, rest, hfuel => by
    simp only [List.length_append, List.length_cons] at hfuel
    have hread := readTree_written hitem fuel (ofChars after ++ some ']' :: rest) (by omega)
      (endsNumber_blank hafter (by simp) rest)
    have hclose : skipSpace (ofChars after ++ some ']' :: rest) = some ']' :: rest :=
      (skipSpace_blank hafter _).trans (skipSpace_cons (by decide) rest)
    have htext : ofChars (before ++ cs ++ (after ++ [']'])) ++ rest =
        ofChars before ++ (ofChars cs ++ (ofChars after ++ some ']' :: rest)) := by simp [ofChars]
    rw [htext, readItems_before hbefore, readItems, hread]
    simp only [hclose]
  | _, _, .cons before cs ds hbefore hitem hrest, fuel + 1, rest, hfuel => by
    simp only [List.length_append, List.length_cons] at hfuel
    have hread := readTree_written hitem fuel (some ',' :: (ofChars ds ++ rest)) (by omega)
      (endsNumber_comma _)
    have hcomma : skipSpace (some ',' :: (ofChars ds ++ rest)) = some ',' :: (ofChars ds ++ rest) :=
      skipSpace_cons (by decide) _
    have hitems := readItems_written hrest fuel rest (by omega)
    have htext : ofChars (before ++ cs ++ (',' :: ds)) ++ rest =
        ofChars before ++ (ofChars cs ++ (some ',' :: (ofChars ds ++ rest))) := by simp [ofChars]
    rw [htext, readItems_before hbefore, readItems, hread]
    simp only [hcomma, hitems, Option.map_some]
  | _, _, h, 0, _, hfuel => by
    cases h <;> simp at hfuel
theorem readFields_written : {fields : List (List Piece × Tree)} → {cs : List Char} →
    WrittenFields fields cs → (fuel : Nat) → (rest : Content) → 2 * cs.length ≤ fuel →
    readFields fuel (ofChars cs ++ rest) = some (fields, rest)
  | _, _, .last name before gap cs after hbefore hgap hvalue hafter, fuel + 1, rest, hfuel => by
    simp only [List.length_append, List.length_cons] at hfuel
    have hread := readTree_written hvalue fuel (ofChars after ++ some '\x7d' :: rest) (by omega)
      (endsNumber_blank hafter (by simp) rest)
    have hclose : skipSpace (ofChars after ++ some '\x7d' :: rest) = some '\x7d' :: rest :=
      (skipSpace_blank hafter _).trans (skipSpace_cons (by decide) rest)
    have htext :
        ofChars (before ++ printString name ++ (':' :: gap ++ cs ++ (after ++ ['\x7d']))) ++
        rest = ofChars (before ++ printString name) ++ some ':' :: (ofChars gap ++
          (ofChars cs ++ (ofChars after ++ some '\x7d' :: rest))) := by simp [ofChars]
    rw [htext, readFields_name name hbefore, readTree_blank hgap, hread]
    simp only [hclose]
  | _, _, .cons name before gap cs ds hbefore hgap hvalue hrest, fuel + 1, rest, hfuel => by
    simp only [List.length_append, List.length_cons] at hfuel
    have hread := readTree_written hvalue fuel (some ',' :: (ofChars ds ++ rest)) (by omega)
      (endsNumber_comma _)
    have hcomma : skipSpace (some ',' :: (ofChars ds ++ rest)) = some ',' :: (ofChars ds ++ rest) :=
      skipSpace_cons (by decide) _
    have hfields := readFields_written hrest fuel rest (by omega)
    have htext : ofChars (before ++ printString name ++ (':' :: gap ++ cs ++ (',' :: ds))) ++ rest =
        ofChars (before ++ printString name) ++ some ':' :: (ofChars gap ++
          (ofChars cs ++ (some ',' :: (ofChars ds ++ rest)))) := by simp [ofChars]
    rw [htext, readFields_name name hbefore, readTree_blank hgap, hread]
    simp only [hcomma, hfields, Option.map_some]
  | _, _, h, 0, _, hfuel => by
    cases h <;> simp at hfuel
end

theorem tree?_written (h : Written tree cs) (hbefore : Blank before) (hafter : Blank after) :
    tree? (ofChars (before ++ cs ++ after)) = some tree := by
  have hlength : (ofChars (before ++ cs ++ after)).length =
      before.length + cs.length + after.length := by simp [ofChars, Nat.add_assoc]
  have hends : EndsNumber (ofChars after) := by
    intro c hc
    cases after with
    | nil => cases hc
    | cons w ws => exact endsNumber_blank hafter (.inl rfl) [] c hc
  have hread := readTree_written h (2 * (ofChars (before ++ cs ++ after)).length + 2) (ofChars after)
    (by omega) hends
  have hskip : skipSpace (ofChars after) = [] := by
    simpa [skipSpace] using skipSpace_blank hafter []
  rw [tree?]
  generalize 2 * (ofChars (before ++ cs ++ after)).length + 2 = fuel at hread
  rw [List.append_assoc, Content.ofChars_append, readTree_blank hbefore, Content.ofChars_append, hread]
  simp only [hskip]
  rfl

end FlowTally.Json
