import FlowTally.Key.Text
import FlowTally.Proofs.Except

/-!
# The texts of a key

`KeyText cs key` says what the reader takes for a text of a key, by a grammar:

    key      ::=  list "-[" list "]->" list
    list     ::=  nothing  |  element (":" element)*
    element  ::=  "\0"  |  item item*
    item     ::=  a character without a meaning  |  "\" and any character but "0"

`decode_ok` says that the reader gives a key for exactly its texts. One
direction follows the derivation: behind each part of a text the reader has in
hand what the part stands for. The other follows the reader: what it has in
hand is always what the text so far stands for (`Begun`).
-/

namespace FlowTally.FlowKey

def marks : List Char := ['\\', ':', '-', '[', ']', '>']

inductive ItemText : List Char → Char → Prop
  | plain : c ∉ marks → ItemText [c] c
  | lineFeed : ItemText ['\\', 'n'] '\n'
  | carriageReturn : ItemText ['\\', 'r'] '\r'
  | escaped : c ≠ '0' → c ≠ 'n' → c ≠ 'r' → ItemText ['\\', c] c

inductive ItemsText : List Char → List Char → Prop
  | nil : ItemsText [] []
  | cons : ItemText text c → ItemsText rest cs → ItemsText (text ++ rest) (c :: cs)

inductive ElementText : List Char → String → Prop
  | empty : ElementText ['\\', '0'] ""
  | items : ItemsText text cs → cs ≠ [] → ElementText text (String.ofList cs)

inductive ElementsText : List Char → List String → Prop
  | one : ElementText text item → ElementsText text [item]
  | more : ElementText text item → ElementsText rest items →
      ElementsText (text ++ ':' :: rest) (item :: items)

inductive ListText : List Char → List String → Prop
  | empty : ListText [] []
  | elements : ElementsText text items → ListText text items

def KeyText (cs : List Char) (key : FlowKey) : Prop :=
  ∃ source flow sink, ListText source key.source ∧ ListText flow key.flow ∧
    ListText sink key.sink ∧ cs = source ++ '-' :: '[' :: flow ++ ']' :: '-' :: '>' :: sink

inductive CurrentText : List Char → Option (List Char) → Prop
  | empty : CurrentText ['\\', '0'] none
  | items : ItemsText text cs → CurrentText text (some cs)

/-- A text after which the reader has this in hand, in a list. -/
inductive Begun : List Char → Partial → Prop
  | first : CurrentText text current → Begun text ⟨[], current⟩
  | later : ElementsText text items → CurrentText more current →
      Begun (text ++ ':' :: more) ⟨items, current⟩

variable {at' : Section} {p q : Partial} {c : Char} {cs ds rest text more : List Char}
  {elements items : List String} {item : String} {key : FlowKey}

theorem isReserved_iff : isReserved c = true ↔ c ∈ marks := by
  simp [isReserved, marks, or_assoc]

theorem ItemText.escape (h : c ≠ '0') : ItemText ['\\', c] (unescape c) := by
  unfold unescape
  split
  · rename_i hn
    subst hn
    exact .lineFeed
  · split
    · rename_i hr
      subst hr
      exact .carriageReturn
    · exact .escaped h ‹_› ‹_›

theorem ItemsText.concat (h : ItemsText text cs) (hitem : ItemText more c) :
    ItemsText (text ++ more) (cs ++ [c]) := by
  induction h with
  | nil => simpa using ItemsText.cons hitem .nil
  | cons hfirst _ ih =>
    rw [List.append_assoc]
    exact .cons hfirst ih

theorem ElementsText.concat (h : ElementsText text items) (hitem : ElementText more item) :
    ElementsText (text ++ ':' :: more) (items ++ [item]) := by
  induction h with
  | one hfirst => exact .more hfirst (.one hitem)
  | more hfirst _ ih =>
    rw [List.append_assoc]
    exact .more hfirst ih

-- ---------------------------------------------------------------------------
-- Every text of the grammar is read
-- ---------------------------------------------------------------------------

theorem decodeFrom_plain (h : c ∉ marks) :
    decodeFrom at' p (c :: rest) = (p.push c).bind (decodeFrom at' · rest) := by
  have hreserved : isReserved c = false := Bool.eq_false_iff.mpr (mt isReserved_iff.mp h)
  simp only [marks, List.mem_cons, List.not_mem_nil, or_false, not_or] at h
  obtain ⟨hslash, hcolon, hminus, hopen, hclose, hgreater⟩ := h
  rw [decodeFrom.eq_def]
  split <;> simp_all

theorem decodeFrom_escape (h : c ≠ '0') :
    decodeFrom at' p ('\\' :: c :: rest) = (p.push (unescape c)).bind (decodeFrom at' · rest) := by
  cases at' <;> simp [decodeFrom, h]

theorem decodeFrom_empty :
    decodeFrom at' p ('\\' :: '0' :: rest) = p.markEmpty.bind (decodeFrom at' · rest) := by
  cases at' <;> simp [decodeFrom]

theorem decodeFrom_colon :
    decodeFrom at' p (':' :: rest) = p.endElement.bind (decodeFrom at' · rest) := by
  cases at' <;> simp [decodeFrom]

theorem decodeFrom_item (h : ItemText text c) (rest : List Char) :
    decodeFrom at' ⟨elements, some cs⟩ (text ++ rest) =
      decodeFrom at' ⟨elements, some (cs ++ [c])⟩ rest := by
  cases h with
  | plain hc => exact decodeFrom_plain hc
  | lineFeed => exact decodeFrom_escape (by decide)
  | carriageReturn => exact decodeFrom_escape (by decide)
  | escaped hzero hn hr =>
    have hsame : unescape c = c := by simp [unescape, hn, hr]
    exact (decodeFrom_escape hzero).trans (by rw [hsame]; rfl)

theorem decodeFrom_items (h : ItemsText text ds) (rest : List Char) :
    decodeFrom at' ⟨elements, some cs⟩ (text ++ rest) =
      decodeFrom at' ⟨elements, some (cs ++ ds)⟩ rest := by
  induction h generalizing cs with
  | nil => simp
  | cons hitem _ ih =>
    rw [List.append_assoc, decodeFrom_item hitem, ih, List.append_assoc, List.singleton_append]

/-- The reader has come to the end of a list from `elements` on: only the last element is still in
hand. -/
structure Arrives (at' : Section) (elements : List String) (text : List Char) (items : List String)
    (p : Partial) : Prop where
  read : ∀ rest, decodeFrom at' ⟨elements, some []⟩ (text ++ rest) = decodeFrom at' p rest
  ends : p.endElement = .ok ⟨elements ++ items, some []⟩
  started : p ≠ .start

theorem arrives_element (h : ElementText text item) (at' : Section) (elements : List String) :
    ∃ p, Arrives at' elements text [item] p := by
  cases h with
  | empty =>
    exact ⟨⟨elements, none⟩, fun rest => decodeFrom_empty, rfl, by simp [Partial.start]⟩
  | @items _ cs htext hne =>
    refine ⟨⟨elements, some cs⟩, fun rest => decodeFrom_items htext rest, ?_, ?_⟩
    · obtain ⟨c, cs, rfl⟩ := List.exists_cons_of_ne_nil hne
      rfl
    · simp [Partial.start, hne]

theorem arrives_elements (h : ElementsText text items) (at' : Section) (elements : List String) :
    ∃ p, Arrives at' elements text items p := by
  induction h generalizing elements with
  | one hitem => exact arrives_element hitem at' elements
  | @more _ item _ _ hitem _ ih =>
    obtain ⟨p, hp⟩ := arrives_element hitem at' elements
    obtain ⟨q, hq⟩ := ih (elements ++ [item])
    refine ⟨q, fun rest => ?_, by simpa using hq.ends, hq.started⟩
    rw [List.append_assoc, hp.read, List.cons_append, decodeFrom_colon, hp.ends]
    exact hq.read rest

theorem decodeFrom_list (h : ListText text items) (at' : Section) :
    ∃ p : Partial, (∀ rest, decodeFrom at' .start (text ++ rest) = decodeFrom at' p rest) ∧
      p.endList = .ok items := by
  cases h with
  | empty => exact ⟨.start, fun rest => rfl, rfl⟩
  | elements htext =>
    obtain ⟨p, hp⟩ := arrives_elements htext at' []
    exact ⟨p, hp.read, by simp [Partial.endList, hp.started, hp.ends, Except.map]⟩

theorem decode_keyText (h : KeyText cs key) : decode cs = .ok key := by
  obtain ⟨source, flow, sink, hsource, hflow, hsink, rfl⟩ := h
  obtain ⟨p, hp, hsource⟩ := decodeFrom_list hsource .source
  obtain ⟨q, hq, hflow⟩ := decodeFrom_list hflow (.flow key.source)
  obtain ⟨r, hr, hsink⟩ := decodeFrom_list hsink (.sink key.source key.flow)
  rw [decode, List.append_assoc, hp]
  simp only [List.cons_append, decodeFrom, hsource, Except.bind]
  rw [hq]
  simp only [decodeFrom, hflow, Except.bind]
  rw [← List.append_nil sink, hr]
  simp only [decodeFrom, hsink, Except.map]

-- ---------------------------------------------------------------------------
-- What is read is a text of the grammar
-- ---------------------------------------------------------------------------

theorem begun_start : Begun [] .start := .first (.items .nil)

theorem Begun.current (h : Begun text p) :
    ∃ before last, text = before ++ last ∧ CurrentText last p.current ∧
      ∀ more current, CurrentText more current → Begun (before ++ more) ⟨p.elements, current⟩ := by
  cases h with
  | first hcurrent => exact ⟨[], _, rfl, hcurrent, fun _ _ => .first⟩
  | @later before _ last _ helements hcurrent =>
    refine ⟨before ++ [':'], last, by simp, hcurrent, fun more current hmore => ?_⟩
    simpa using Begun.later helements hmore

theorem Begun.push (h : Begun text p) (hitem : ItemText more c) (hpush : p.push c = .ok q) :
    Begun (text ++ more) q := by
  obtain ⟨before, last, rfl, hlast, hchange⟩ := h.current
  unfold Partial.push at hpush
  split at hpush
  · rename_i cs hcs
    cases hpush
    rw [hcs] at hlast
    obtain _ | hitems := hlast
    rw [List.append_assoc]
    exact hchange _ _ (.items (hitems.concat hitem))
  · cases hpush

theorem Begun.markEmpty (h : Begun text p) (hmark : p.markEmpty = .ok q) :
    Begun (text ++ ['\\', '0']) q := by
  obtain ⟨before, last, rfl, hlast, hchange⟩ := h.current
  unfold Partial.markEmpty at hmark
  split at hmark
  · rename_i hcs
    cases hmark
    rw [hcs] at hlast
    obtain _ | hitems := hlast
    cases hitems
    rw [List.append_nil]
    exact hchange _ _ .empty
  · cases hmark

theorem endElement_text (h : CurrentText text p.current) (hend : p.endElement = .ok q) :
    ∃ item, ElementText text item ∧ q = ⟨p.elements ++ [item], some []⟩ := by
  unfold Partial.endElement at hend
  split at hend
  · rename_i hnone
    cases hend
    rw [hnone] at h
    cases h
    exact ⟨"", .empty, rfl⟩
  · cases hend
  · rename_i c cs hcs
    cases hend
    rw [hcs] at h
    obtain _ | hitems := h
    exact ⟨_, .items hitems (List.cons_ne_nil c cs), rfl⟩

theorem Begun.endElement (h : Begun text p) (hend : p.endElement = .ok q) :
    ElementsText text q.elements ∧ q.current = some [] := by
  cases h with
  | first hcurrent =>
    obtain ⟨item, hitem, rfl⟩ := endElement_text hcurrent hend
    exact ⟨.one hitem, rfl⟩
  | later helements hcurrent =>
    obtain ⟨item, hitem, rfl⟩ := endElement_text hcurrent hend
    exact ⟨helements.concat hitem, rfl⟩

theorem Begun.colon (h : Begun text p) (hend : p.endElement = .ok q) : Begun (text ++ [':']) q := by
  obtain ⟨helements, hcurrent⟩ := h.endElement hend
  have hlater := Begun.later helements (.items .nil)
  rwa [← hcurrent] at hlater

theorem Begun.endList (h : Begun text p) (hend : p.endList = .ok items) : ListText text items := by
  unfold Partial.endList at hend
  split at hend
  · rename_i hstart
    cases hend
    subst hstart
    cases h with
    | first hcurrent =>
      obtain _ | hitems := hcurrent
      cases hitems
      exact .empty
    | later helements => cases helements
  · obtain ⟨q, hq, rfl⟩ := map_ok.mp hend
    exact .elements (h.endElement hq).1

/-- From the list at hand on, the text stands for the rest of the key. -/
def RestText : Section → List Char → FlowKey → Prop
  | .source, cs, key => KeyText cs key
  | .flow source, cs, key => key.source = source ∧ ∃ flow sink, ListText flow key.flow ∧
      ListText sink key.sink ∧ cs = flow ++ ']' :: '-' :: '>' :: sink
  | .sink source flow, cs, key => key.source = source ∧ key.flow = flow ∧ ListText cs key.sink

theorem restText_of_decodeFrom (hp : Begun text p) (h : decodeFrom at' p cs = .ok key) :
    RestText at' (text ++ cs) key := by
  revert h
  fun_induction decodeFrom at' p cs generalizing text with
  | case1 p source flow =>
    intro h
    obtain ⟨sink, hsink, rfl⟩ := map_ok.mp h
    exact ⟨rfl, rfl, by simpa using hp.endList hsink⟩
  | case2 => simp
  | case3 => simp
  | case4 at' p rest ih =>
    intro h
    obtain ⟨q, hq, h⟩ := bind_ok.mp h
    simpa using ih q (hp.markEmpty hq) h
  | case5 at' p c rest hzero ih =>
    intro h
    obtain ⟨q, hq, h⟩ := bind_ok.mp h
    simpa using ih q (hp.push (.escape hzero) hq) h
  | case6 p rest ih =>
    intro h
    obtain ⟨source, hsource, h⟩ := bind_ok.mp h
    obtain ⟨rfl, flow, sink, hflow, hsink, heq⟩ := ih source begun_start h
    refine ⟨text, flow, sink, hp.endList hsource, hflow, hsink, ?_⟩
    rw [← List.nil_append rest, heq]
    simp
  | case7 source p rest ih =>
    intro h
    obtain ⟨flow, hflow, h⟩ := bind_ok.mp h
    obtain ⟨hsource, rfl, hsink⟩ := ih flow begun_start h
    exact ⟨hsource, text, rest, hp.endList hflow, hsink, rfl⟩
  | case8 at' p rest _ _ _ _ ih =>
    intro h
    obtain ⟨q, hq, h⟩ := bind_ok.mp h
    simpa using ih q (hp.colon hq) h
  | case9 => simp
  | case10 at' p c rest _ _ _ _ _ hplain ih =>
    intro h
    obtain ⟨q, hq, h⟩ := bind_ok.mp h
    simpa using ih q (hp.push (.plain (mt isReserved_iff.mpr hplain)) hq) h

/-- The reader gives a key for the texts of the grammar, and for no others. -/
theorem decode_ok : decode cs = .ok key ↔ KeyText cs key :=
  ⟨fun h => restText_of_decodeFrom begun_start h, decode_keyText⟩

end FlowTally.FlowKey
