import FlowTally.Proofs.Key.Text

/-!
# Texts that come back from their key

Of the many texts of a key only one is written. `parse_ok_iff` says which texts
have a key, and that a text is the written one of its key exactly when it is
*canonical*: it stands on one line and escapes nothing without need. A text of
the grammar is compared with the written one part by part, each in front of any
rest.
-/

namespace FlowTally.FlowKey

open Content (OneLine oneLine_cons oneLine_nil)

def escaped : List Char → List Char
  | '\\' :: c :: rest => c :: escaped rest
  | _ :: rest => escaped rest
  | [] => []

def escapable : List Char := marks ++ ['n', 'r', '0']

structure Canonical (cs : List Char) : Prop where
  oneLine : OneLine cs
  escapes : ∀ c ∈ escaped cs, c ∈ escapable

variable {c : Char} {cs rest text : List Char} {items : List String} {item : String} {key : FlowKey}

theorem canonical_nil : Canonical [] := ⟨oneLine_nil, by simp [escaped]⟩

theorem canonical_cons (h : c ≠ '\\') :
    Canonical (c :: rest) ↔ (c ≠ '\n' ∧ c ≠ '\r') ∧ Canonical rest := by
  have hescaped : escaped (c :: rest) = escaped rest := by
    rw [escaped]
    exact fun _ _ hslash => (h hslash).elim
  constructor
  · rintro ⟨hline, hescapes⟩
    obtain ⟨hc, hrest⟩ := oneLine_cons.mp hline
    exact ⟨hc, hrest, hescaped ▸ hescapes⟩
  · rintro ⟨hc, hrest, hescapes⟩
    exact ⟨oneLine_cons.mpr ⟨hc, hrest⟩, hescaped ▸ hescapes⟩

theorem canonical_escape :
    Canonical ('\\' :: c :: rest) ↔ c ∈ escapable ∧ Canonical rest := by
  constructor
  · rintro ⟨hline, hescapes⟩
    obtain ⟨hc, hescapes⟩ := List.forall_mem_cons.mp hescapes
    exact ⟨hc, (oneLine_cons.mp (oneLine_cons.mp hline).2).2, hescapes⟩
  · rintro ⟨hc, hrest, hescapes⟩
    -- No line break may be escaped.
    have hbreak : c ≠ '\n' ∧ c ≠ '\r' := by
      constructor <;>
        · rintro rfl
          revert hc
          decide
    exact ⟨oneLine_cons.mpr ⟨by decide, oneLine_cons.mpr ⟨hbreak, hrest⟩⟩,
      List.forall_mem_cons.mpr ⟨hc, hescapes⟩⟩

-- ---------------------------------------------------------------------------
-- What is written is canonical
-- ---------------------------------------------------------------------------

theorem canonical_encodeChar (c : Char) (h : Canonical rest) : Canonical (encodeChar c ++ rest) := by
  unfold encodeChar
  split
  · exact canonical_escape.mpr ⟨by decide, h⟩
  · split
    · exact canonical_escape.mpr ⟨by decide, h⟩
    · rename_i hn hr
      split
      · rename_i hc
        exact canonical_escape.mpr ⟨List.mem_append_left _ (isReserved_iff.mp hc), h⟩
      · rename_i hc
        have hslash : c ≠ '\\' := by
          rintro rfl
          exact hc rfl
        exact (canonical_cons hslash).mpr ⟨⟨hn, hr⟩, h⟩

theorem canonical_encodeElement (cs : List Char) (h : Canonical rest) :
    Canonical (encodeElement cs ++ rest) := by
  have hchars (cs : List Char) : Canonical (cs.flatMap encodeChar ++ rest) := by
    induction cs with
    | nil => exact h
    | cons c cs ih =>
      rw [List.flatMap_cons, List.append_assoc]
      exact canonical_encodeChar c ih
  cases cs with
  | nil => exact canonical_escape.mpr ⟨by decide, h⟩
  | cons c cs => exact hchars (c :: cs)

theorem canonical_encodeList (items : List String) (h : Canonical rest) :
    Canonical (encodeList items ++ rest) := by
  induction items with
  | nil => exact h
  | cons item items ih =>
    cases items with
    | nil => exact canonical_encodeElement _ h
    | cons next items =>
      rw [encodeList, List.append_assoc]
      exact canonical_encodeElement _ ((canonical_cons (by decide)).mpr ⟨by decide, ih⟩)

theorem canonical_encode (key : FlowKey) : Canonical key.encode := by
  have hmark {c : Char} {rest : List Char} (hc : c ∈ ['-', '[', ']', '>']) (h : Canonical rest) :
      Canonical (c :: rest) := by
    refine (canonical_cons ?_).mpr ⟨⟨?_, ?_⟩, h⟩ <;>
      · rintro rfl
        revert hc
        decide
  have hsink : Canonical (encodeList key.sink) := by
    rw [← List.append_nil (encodeList key.sink)]
    exact canonical_encodeList key.sink canonical_nil
  have hflow := canonical_encodeList key.flow
    (hmark (c := ']') (by decide) (hmark (c := '-') (by decide) (hmark (c := '>') (by decide) hsink)))
  rw [encode, List.append_assoc]
  exact canonical_encodeList key.source
    (hmark (c := '-') (by decide) (hmark (c := '[') (by decide) (by simpa using hflow)))

-- ---------------------------------------------------------------------------
-- What is canonical is written
-- ---------------------------------------------------------------------------

theorem ItemText.eq_encodeChar (h : ItemText text c) (hcanonical : Canonical (text ++ rest)) :
    text = encodeChar c ∧ Canonical rest := by
  cases h with
  | plain hc =>
    have hslash : c ≠ '\\' := by
      rintro rfl
      exact hc (by decide)
    obtain ⟨⟨hn, hr⟩, hrest⟩ := (canonical_cons hslash).mp hcanonical
    exact ⟨by simp [encodeChar, hn, hr, isReserved_iff, hc], hrest⟩
  | lineFeed => exact ⟨rfl, (canonical_escape.mp hcanonical).2⟩
  | carriageReturn => exact ⟨rfl, (canonical_escape.mp hcanonical).2⟩
  | escaped hzero hn hr =>
    obtain ⟨hescapable, hrest⟩ := canonical_escape.mp hcanonical
    have hmark : c ∈ marks := by simpa [escapable, hzero, hn, hr] using hescapable
    have hbreak : c ≠ '\n' ∧ c ≠ '\r' := by
      constructor <;>
        · rintro rfl
          revert hmark
          decide
    exact ⟨by simp [encodeChar, hbreak, isReserved_iff, hmark], hrest⟩

theorem ItemsText.eq_encodeChars (h : ItemsText text cs) (hcanonical : Canonical (text ++ rest)) :
    text = cs.flatMap encodeChar ∧ Canonical rest := by
  induction h with
  | nil => exact ⟨rfl, hcanonical⟩
  | cons hitem _ ih =>
    rw [List.append_assoc] at hcanonical
    obtain ⟨hfirst, hbehind⟩ := hitem.eq_encodeChar hcanonical
    obtain ⟨hmore, hrest⟩ := ih hbehind
    exact ⟨by rw [hfirst, hmore, List.flatMap_cons], hrest⟩

theorem ElementText.eq_encodeElement (h : ElementText text item)
    (hcanonical : Canonical (text ++ rest)) :
    text = encodeElement item.toList ∧ Canonical rest := by
  cases h with
  | empty => exact ⟨rfl, (canonical_escape.mp hcanonical).2⟩
  | items hitems hne =>
    obtain ⟨htext, hrest⟩ := hitems.eq_encodeChars hcanonical
    obtain ⟨c, cs, rfl⟩ := List.exists_cons_of_ne_nil hne
    exact ⟨by rw [htext, String.toList_ofList, encodeElement], hrest⟩

theorem ElementsText.eq_encodeList (h : ElementsText text items)
    (hcanonical : Canonical (text ++ rest)) : text = encodeList items ∧ Canonical rest := by
  induction h with
  | one hitem => exact hitem.eq_encodeElement hcanonical
  | @more _ _ _ items hitem helements ih =>
    rw [List.append_assoc, List.cons_append] at hcanonical
    obtain ⟨hfirst, hbehind⟩ := hitem.eq_encodeElement hcanonical
    obtain ⟨hmore, hrest⟩ := ih ((canonical_cons (by decide)).mp hbehind).2
    have hlist : items ≠ [] := by cases helements <;> exact List.cons_ne_nil _ _
    obtain ⟨next, items, rfl⟩ := List.exists_cons_of_ne_nil hlist
    exact ⟨by rw [hfirst, hmore, encodeList], hrest⟩

theorem ListText.eq_encodeList (h : ListText text items) (hcanonical : Canonical (text ++ rest)) :
    text = encodeList items ∧ Canonical rest := by
  cases h with
  | empty => exact ⟨rfl, hcanonical⟩
  | elements helements => exact helements.eq_encodeList hcanonical

theorem KeyText.eq_encode (h : KeyText cs key) (hcanonical : Canonical cs) : cs = key.encode := by
  obtain ⟨source, flow, sink, hsource, hflow, hsink, rfl⟩ := h
  rw [List.append_assoc] at hcanonical
  obtain ⟨hsource, hbehind⟩ := hsource.eq_encodeList hcanonical
  have hbehind := ((canonical_cons (by decide)).mp hbehind).2
  have hbehind := ((canonical_cons (by decide)).mp hbehind).2
  obtain ⟨hflow, hbehind⟩ := hflow.eq_encodeList hbehind
  have hbehind := ((canonical_cons (by decide)).mp hbehind).2
  have hbehind := ((canonical_cons (by decide)).mp hbehind).2
  have hbehind := ((canonical_cons (by decide)).mp hbehind).2
  rw [← List.append_nil sink] at hbehind
  obtain ⟨hsink, -⟩ := hsink.eq_encodeList hbehind
  simp [encode, hsource, hflow, hsink]

/-- A text has a key when the grammar says so, and it is the text of its key when it is canonical. -/
theorem parse_ok_iff (text : String) (key : FlowKey) :
    (parse text = .ok key ↔ KeyText text.toList key) ∧
      (parse text = .ok key → (key.render = text ↔ Canonical text.toList)) := by
  refine ⟨decode_ok, fun h => ?_⟩
  constructor
  · rintro rfl
    rw [render, String.toList_ofList]
    exact canonical_encode key
  · intro hcanonical
    rw [render, ← (decode_ok.mp h).eq_encode hcanonical, String.ofList_toList]

theorem parse_ok_iff_looseText :
    parse "\\a-[x\ny]->\\0" = .ok ⟨["a"], ["x\ny"], [""]⟩ ∧
      render ⟨["a"], ["x\ny"], [""]⟩ ≠ "\\a-[x\ny]->\\0" ∧
      render ⟨[":"], [], ["\n"]⟩ = "\\:-[]->\\n" := by
  have hloose : parse "\\a-[x\ny]->\\0" = .ok ⟨["a"], ["x\ny"], [""]⟩ := by cbv
  have hclose : parse "\\:-[]->\\n" = .ok ⟨[":"], [], ["\n"]⟩ := by cbv
  refine ⟨hloose, fun h => ?_, ((parse_ok_iff _ _).2 hclose).mpr ⟨by decide, ?_⟩⟩
  · have hcanonical := ((parse_ok_iff _ _).2 hloose).mp h
    exact absurd hcanonical.oneLine.1 (by decide)
  · simp [escaped, escapable, marks]

end FlowTally.FlowKey
