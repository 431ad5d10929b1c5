import FlowTally.Key.Lines
import FlowTally.Proofs.Key.Grammar
import FlowTally.Proofs.Text.Lines

/-!
# Keys read back from their text

`parse_render`: reading the text of a key gives that key, because what is
written is a text of the key in the sense of the grammar (`keyText_encode`). No
written text has a line end in it, so a file of keys splits into the texts of
its keys (`readLines_writeLines`).
-/

namespace FlowTally.FlowKey

open Content (OneLine ofChars oneLine_append oneLine_cons)

-- ---------------------------------------------------------------------------
-- Written texts in the grammar
-- ---------------------------------------------------------------------------

theorem itemText_encodeChar (c : Char) : ItemText (encodeChar c) c := by
  unfold encodeChar
  split
  · rename_i h
    subst h
    exact .lineFeed
  · split
    · rename_i h
      subst h
      exact .carriageReturn
    · split
      · rename_i h
        have hmark := isReserved_iff.mp h
        -- None of the three letters with a meaning behind a backslash is a mark.
        refine .escaped ?_ ?_ ?_ <;>
          · rintro rfl
            revert hmark
            decide
      · rename_i h
        exact .plain (mt isReserved_iff.mpr h)

theorem itemsText_encodeChars (cs : List Char) : ItemsText (cs.flatMap encodeChar) cs := by
  induction cs with
  | nil => exact .nil
  | cons c cs ih => exact .cons (itemText_encodeChar c) ih

theorem elementText_encodeElement (item : String) : ElementText (encodeElement item.toList) item := by
  cases hitem : item.toList with
  | nil =>
    obtain rfl : item = "" := String.toList_eq_nil_iff.mp hitem
    exact .empty
  | cons c cs =>
    have htext := ElementText.items (itemsText_encodeChars (c :: cs)) (List.cons_ne_nil c cs)
    rwa [← hitem, String.ofList_toList, hitem] at htext

theorem elementsText_encodeList (item : String) (items : List String) :
    ElementsText (encodeList (item :: items)) (item :: items) := by
  induction items generalizing item with
  | nil => exact .one (elementText_encodeElement item)
  | cons next items ih => exact .more (elementText_encodeElement item) (ih next)

theorem listText_encodeList (items : List String) : ListText (encodeList items) items := by
  cases items with
  | nil => exact .empty
  | cons item items => exact .elements (elementsText_encodeList item items)

theorem keyText_encode (key : FlowKey) : KeyText key.encode key :=
  ⟨_, _, _, listText_encodeList key.source, listText_encodeList key.flow,
    listText_encodeList key.sink, by simp [encode]⟩

-- ---------------------------------------------------------------------------
-- Keys
-- ---------------------------------------------------------------------------

theorem decode_encode (key : FlowKey) : decode key.encode = .ok key :=
  decode_ok.mpr (keyText_encode key)

theorem parse_render (key : FlowKey) : parse key.render = .ok key := by
  rw [parse, render, String.toList_ofList, decode_encode]

theorem oneLine_encodeChar (c : Char) : OneLine (encodeChar c) := by
  unfold encodeChar
  split
  · decide
  · split
    · decide
    · rename_i hn hr
      have hc : OneLine [c] := oneLine_cons.mpr ⟨⟨hn, hr⟩, Content.oneLine_nil⟩
      split
      · exact oneLine_cons.mpr ⟨by decide, hc⟩
      · exact hc

theorem oneLine_encodeList (items : List String) : OneLine (encodeList items) := by
  have hchars (cs : List Char) : OneLine (cs.flatMap encodeChar) := by
    induction cs with
    | nil => exact Content.oneLine_nil
    | cons c cs ih => exact oneLine_append.mpr ⟨oneLine_encodeChar c, ih⟩
  have helement (cs : List Char) : OneLine (encodeElement cs) := by
    cases cs with
    | nil => decide
    | cons c cs => exact hchars (c :: cs)
  induction items with
  | nil => exact Content.oneLine_nil
  | cons item items ih =>
    cases items with
    | nil => exact helement _
    | cons next items =>
      rw [encodeList]
      exact oneLine_append.mpr ⟨helement _, oneLine_cons.mpr ⟨by decide, ih⟩⟩

theorem oneLine_encode (key : FlowKey) : OneLine key.encode := by
  have hsource := oneLine_encodeList key.source
  have hflow := oneLine_encodeList key.flow
  have hsink := oneLine_encodeList key.sink
  simp [encode, oneLine_append, oneLine_cons, hsource, hflow, hsink]

-- ---------------------------------------------------------------------------
-- Files of keys
-- ---------------------------------------------------------------------------

theorem readLine_encode (key : FlowKey) : readLine (ofChars key.encode) = .ok key := by
  simp [readLine, Content.text?, parse, decode_encode]

theorem readLines_writeLines (number : Nat) (keys : List FlowKey) :
    readLines number (Content.lines (ofChars (writeLines keys))) = .ok keys := by
  rw [writeLines, Content.lines_flatMap encode fun key _ => oneLine_encode key]
  induction keys generalizing number with
  | nil => rfl
  | cons key keys ih => simp [readLines, readLine_encode, ih, Except.map]

theorem render_inj {a b : FlowKey} : a.render = b.render ↔ a = b := by
  constructor
  · intro h
    have hparse : parse a.render = parse b.render := congrArg parse h
    rw [parse_render, parse_render] at hparse
    exact Except.ok.inj hparse
  · rintro rfl
    rfl

theorem lines_writeLines (keys : List FlowKey) :
    Content.lines (ofChars (writeLines keys)) = keys.map fun key => Content.ofString key.render := by
  rw [writeLines, Content.lines_flatMap encode fun key _ => oneLine_encode key]
  simp [Content.ofString, render]

/-- Text and key determine each other, the text stands on one line, and the file of a list of keys
has the text of each key on the line of its column. -/
theorem render_faithful :
    (∀ key : FlowKey, parse key.render = .ok key ∧ '\n' ∉ key.render.toList ∧
        '\r' ∉ key.render.toList) ∧
      (∀ a b : FlowKey, a.render = b.render ↔ a = b) ∧
      ∀ keys : List FlowKey,
        (writeLines keys = keys.flatMap fun key => key.render.toList ++ ['\n']) ∧
        (Content.lines (ofChars (writeLines keys)) =
          keys.map fun key => Content.ofString key.render) ∧
        readLines 1 (Content.lines (ofChars (writeLines keys))) = .ok keys := by
  refine ⟨fun key => ?_, fun a b => render_inj, fun keys => ?_⟩
  · have hline : OneLine key.render.toList := by
      rw [render, String.toList_ofList]
      exact oneLine_encode key
    exact ⟨parse_render key, hline.1, hline.2⟩
  · refine ⟨?_, lines_writeLines keys, readLines_writeLines 1 keys⟩
    simp only [writeLines, render, String.toList_ofList]

end FlowTally.FlowKey
