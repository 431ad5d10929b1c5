import FlowTally.Config.Printer
import FlowTally.Proofs.Yaml.Line
import FlowTally.Proofs.Yaml.Tree

/-!
# Printed configurations as tokens

Every line of a printed configuration is a key with one scalar, an item, or a
key alone, and the lines under a key are indented. So the tokens of a text
follow its lines: `Value.tokens`, `Section.tokens` and `tokens` are those of a
value, a section and a whole configuration, whatever characters the texts in it
are made of, as long as they stand on one line (`scan_print`).
-/

namespace FlowTally.Config

open Text.Natural (digits)
open Yaml
open Yaml.Scanner

variable {tail : List Char} {blocks : List Nat} {m : Mark}

-- ---------------------------------------------------------------------------
-- Tokens
-- ---------------------------------------------------------------------------

def Inline (text : String) : Prop := ∀ c ∈ text.toList, isInline c = true

instance (text : String) : Decidable (Inline text) :=
  decidable_of_iff (text.toList.all isInline = true) List.all_eq_true

/-- A printed text as a token; it is plain if it could be taken for nothing else. -/
def textToken (text : String) : Token := .scalar text.toList (printsPlain text.toList)

namespace Value

def Writable : Value → Prop
  | .string text => Inline text
  | .strings items => ∀ item ∈ items, Inline item
  | .number _ | .truth _ | .null => True

def tokens : Value → List Token
  | .string text => [textToken text]
  | .strings [] => [.flowSequence, .flowSequenceEnd]
  | .strings items => items.flatMap fun item => [.entry, textToken item]
  | .number n => [.scalar (digits n) true]
  | .truth value => [.scalar (toString value).toList true]
  | .null => [.scalar "null".toList true]

end Value

def fieldTokens (field : String × Value) : List Token := keyTokens field.1.toList ++ field.2.tokens

def Section.tokens (s : Section) : List Token :=
  keyTokens s.name.toList ++ .blockMapping :: s.fields.flatMap fieldTokens ++ [.blockEnd]

def tokens (c : Config) : List Token :=
  .blockMapping :: keyTokens "version".toList ++ .scalar ['1'] true ::
    c.sections.flatMap Section.tokens ++ [.blockEnd]

-- ---------------------------------------------------------------------------
-- Values
-- ---------------------------------------------------------------------------

def itemLine (item : String) : List Char :=
  indentation ++ '-' :: ' ' :: scalarText item.toList ++ ['\n']

theorem itemLine_append (item : String) (tail : List Char) :
    itemLine item ++ tail =
      List.replicate 2 ' ' ++ '-' :: ' ' :: (scalarText item.toList ++ '\n' :: tail) := by
  simp [itemLine, indentation, List.replicate]

theorem startsLine_dash : StartsLine ('-' :: tail) := by
  rintro _ ⟨⟩
  decide

theorem nextLine_items (items : List String) (hnext : NextLine 3 tail) :
    NextLine 3 (items.flatMap itemLine ++ tail) := by
  cases items with
  | nil => exact hnext
  | cons item items =>
    rw [List.flatMap_cons, List.append_assoc, itemLine_append]
    exact nextLine_indented startsLine_dash (by decide)

theorem scans_item {item : String} (h : Inline item) (hblocks : blocks.headD 0 = 3)
    (hnext : NextLine 3 tail) (n : Nat) (ts : List Token) :
    Scans (atText n (itemLine item ++ tail) ts blocks)
      (atText (n + 1) tail (textToken item :: .entry :: ts) blocks) := by
  rw [itemLine_append, atText_indented startsLine_dash (Nat.le_of_eq hblocks)]
  have hcolumn : blocks.headD 0 ≤ (Mark.skip ⟨n, 2⟩ 2).column := by
    rw [hblocks]
    exact Nat.le_succ 3
  exact (Scans.item hblocks Nat.two_pos (startsLine_scalarText h _)).trans
    (Scans.scalar h (Nat.succ_pos _) hcolumn (hblocks ▸ hnext))

theorem scans_items {items : List String} (h : ∀ item ∈ items, Inline item)
    (hblocks : blocks.headD 0 = 3) (hnext : NextLine 3 tail) (n : Nat) (ts : List Token) :
    ∃ last, Scans (atText n (items.flatMap itemLine ++ tail) ts blocks)
      (atText last tail
        ((items.flatMap fun item => [.entry, textToken item]).reverse ++ ts) blocks) := by
  induction items generalizing n ts with
  | nil => exact ⟨n, .refl _⟩
  | cons item items ih =>
    obtain ⟨hitem, hitems⟩ := List.forall_mem_cons.mp h
    obtain ⟨last, hrest⟩ := ih hitems (n + 1) (textToken item :: .entry :: ts)
    refine ⟨last, ?_⟩
    have hfirst := scans_item hitem hblocks (nextLine_items items hnext) n ts
    rw [List.flatMap_cons, List.append_assoc, List.flatMap_cons, List.reverse_append,
      List.append_assoc]
    exact hfirst.trans hrest

theorem scans_word {cs : List Char} (hne : cs ≠ []) (hword : ∀ c ∈ cs, isWord c = true)
    (m : Mark) (ts : List Token) (hcolumn : blocks.headD 0 ≤ m.column)
    (hnext : NextLine (blocks.headD 0) tail) :
    ∃ t, (standing m (' ' :: (cs ++ '\n' :: tail)) ts blocks false).settle = .ok t ∧
      Scans t (atText (m.line + 1) tail (.scalar cs true :: ts) blocks) := by
  have htext := plainText_of_word hne hword
  refine ⟨_, settle_space (htext.startsLine _) (Nat.le_add_right_of_le hcolumn), ?_⟩
  exact .plain htext (not_atDocumentMark (Nat.succ_pos _)) (Nat.le_succ_of_le hcolumn) hnext

theorem scans_value {value : Value} (h : value.Writable) (hblocks : blocks.headD 0 = 3)
    (hcolumn : 2 < m.column) (hnext : NextLine 3 tail) (ts : List Token) :
    ∃ t n, (standing m (value.lines ++ tail) ts blocks false).settle = .ok t ∧
      Scans t (atText n tail (value.tokens.reverse ++ ts) blocks) := by
  have hfloor : blocks.headD 0 ≤ m.column := hblocks ▸ hcolumn
  have hnext' : NextLine (blocks.headD 0) tail := hblocks ▸ hnext
  have hword (cs : List Char) (hne : cs ≠ []) (hword : ∀ c ∈ cs, isWord c = true) :
      ∃ t n, (standing m (' ' :: cs ++ ['\n'] ++ tail) ts blocks false).settle = .ok t ∧
        Scans t (atText n tail (.scalar cs true :: ts) blocks) := by
    obtain ⟨t, hsettle, hscans⟩ := scans_word hne hword m ts hfloor hnext'
    refine ⟨t, m.line + 1, ?_, hscans⟩
    rw [List.append_assoc]
    exact hsettle
  cases value with
  | string text =>
    have hsettle : (standing m (' ' :: (scalarText text.toList ++ '\n' :: tail)) ts blocks
        false).settle = .ok _ :=
      settle_space (startsLine_scalarText h _) (Nat.le_add_right_of_le hfloor)
    have hscalar : Scans (standing (m.skip 1) _ ts blocks false) _ :=
      .scalar h (Nat.succ_pos _) (Nat.le_succ_of_le hfloor) hnext'
    have hlines : (Value.string text).lines ++ tail =
        ' ' :: (scalarText text.toList ++ '\n' :: tail) := List.append_assoc ..
    exact ⟨_, m.line + 1, hlines ▸ hsettle, hscalar⟩
  | strings items =>
    cases items with
    | nil =>
      have hsettle : (standing m (' ' :: '[' :: ']' :: '\n' :: tail) ts blocks false).settle =
          .ok _ := settle_space (by rintro _ ⟨⟩; decide) (Nat.le_add_right_of_le hfloor)
      exact ⟨_, m.line + 1, hsettle, Scans.empty (Nat.succ_pos _) hnext.body⟩
    | cons item items =>
      obtain ⟨last, hitems⟩ := scans_items h hblocks hnext (m.line + 1) ts
      refine ⟨_, last, ?_, hitems⟩
      exact settle_newline rfl rfl nofun (nextLine_items _ hnext).body
  | number n => exact hword (digits n) (word_digits n).1 (word_digits n).2
  | truth value =>
    cases value
    · exact hword "false".toList (by decide) (List.all_eq_true.mp (by decide))
    · exact hword "true".toList (by decide) (List.all_eq_true.mp (by decide))
  | null => exact hword "null".toList (by decide) (List.all_eq_true.mp (by decide))

-- ---------------------------------------------------------------------------
-- Fields
-- ---------------------------------------------------------------------------

def IsName (name : String) : Prop :=
  name.toList ≠ [] ∧ name.toList.length ≤ 1024 ∧ ∀ c ∈ name.toList, isWord c = true

instance (name : String) : Decidable (IsName name) :=
  decidable_of_iff
    (name.toList ≠ [] ∧ name.toList.length ≤ 1024 ∧ name.toList.all isWord = true)
    (and_congr_right fun _ => and_congr_right fun _ => List.all_eq_true)

def fieldLine (field : String × Value) : List Char :=
  indentation ++ field.1.toList ++ ':' :: field.2.lines

theorem fieldLine_append (field : String × Value) (tail : List Char) :
    fieldLine field ++ tail =
      List.replicate 2 ' ' ++ (field.1.toList ++ ':' :: (field.2.lines ++ tail)) := by
  simp [fieldLine, indentation, List.replicate]

theorem IsName.startsLine {name : String} (h : IsName name) (after : List Char) :
    StartsLine (name.toList ++ after) :=
  (plainText_of_word h.1 h.2.2).startsLine after

theorem nextLine_fields {fields : List (String × Value)} (h : ∀ field ∈ fields, IsName field.1)
    (hnext : NextLine 3 tail) : NextLine 3 (fields.flatMap fieldLine ++ tail) := by
  cases fields with
  | nil => exact hnext
  | cons field fields =>
    rw [List.flatMap_cons, List.append_assoc, fieldLine_append]
    exact nextLine_indented ((h field (.head _)).startsLine _) (by decide)

theorem endsWord_lines (value : Value) (tail : List Char) :
    endsWord (value.lines ++ tail) = true := by
  cases value with
  | string text => rfl
  | strings items => cases items <;> rfl
  | number n => rfl
  | truth value => cases value <;> rfl
  | null => rfl

theorem scans_field {field : String × Value} (blocks : List Nat) (hname : IsName field.1)
    (h : field.2.Writable) (hfloor : blocks.headD 0 ≤ 3) (hopen : (opened 2 blocks).headD 0 = 3)
    (hnext : NextLine 3 tail) (n : Nat) (ts : List Token) :
    ∃ last, Scans (atText n (fieldLine field ++ tail) ts blocks)
      (atText last tail ((fieldTokens field).reverse ++ (opening 2 blocks ++ ts))
        (opened 2 blocks)) := by
  have ⟨hne, hlength, hword⟩ := hname
  obtain ⟨t, last, hsettle, hvalue⟩ := scans_value (m := ⟨n, 2 + (field.1.toList.length + 1)⟩)
    h hopen (by simp) hnext ((keyTokens field.1.toList).reverse ++ (opening 2 blocks ++ ts))
  refine ⟨last, ?_⟩
  rw [fieldLine_append, atText_indented (hname.startsLine _) hfloor, fieldTokens,
    List.reverse_append, List.append_assoc]
  exact (Scans.key (m := ⟨n, 2⟩) hne hword hlength (endsWord_lines ..) hfloor hsettle).trans hvalue

theorem scans_fields {fields : List (String × Value)}
    (h : ∀ field ∈ fields, IsName field.1 ∧ field.2.Writable) (hnext : NextLine 3 tail) (n : Nat)
    (ts : List Token) :
    ∃ last, Scans (atText n (fields.flatMap fieldLine ++ tail) ts [3, 1])
      (atText last tail ((fields.flatMap fieldTokens).reverse ++ ts) [3, 1]) := by
  -- The mapping stays open from one field to the next, and only the line and the tokens grow.
  induction fields generalizing n ts with
  | nil => exact ⟨n, .refl _⟩
  | cons field fields ih =>
    obtain ⟨⟨hname, hvalue⟩, hfields⟩ := List.forall_mem_cons.mp h
    have hnext' : NextLine 3 (fields.flatMap fieldLine ++ tail) :=
      nextLine_fields (fun field hf => (hfields field hf).1) hnext
    obtain ⟨line, hfirst⟩ :=
      scans_field [3, 1] hname hvalue (Nat.le_refl 3) rfl hnext' n ts
    obtain ⟨last, hrest⟩ := ih hfields line ((fieldTokens field).reverse ++ ts)
    refine ⟨last, ?_⟩
    rw [List.flatMap_cons, List.append_assoc, List.flatMap_cons, List.reverse_append,
      List.append_assoc]
    exact hfirst.trans hrest

theorem scans_mapping {fields : List (String × Value)} (hne : fields ≠ [])
    (h : ∀ field ∈ fields, IsName field.1 ∧ field.2.Writable) (hnext : NextLine 3 tail) (n : Nat)
    (ts : List Token) :
    ∃ last, Scans (atText n (fields.flatMap fieldLine ++ tail) ts [1])
      (atText last tail ((fields.flatMap fieldTokens).reverse ++ .blockMapping :: ts) [3, 1]) := by
  cases fields with
  | nil => exact absurd rfl hne
  | cons field fields =>
    obtain ⟨⟨hname, hvalue⟩, hfields⟩ := List.forall_mem_cons.mp h
    have hnext' : NextLine 3 (fields.flatMap fieldLine ++ tail) :=
      nextLine_fields (fun field hf => (hfields field hf).1) hnext
    obtain ⟨line, hfirst⟩ := scans_field [1] hname hvalue (by decide) rfl hnext' n ts
    obtain ⟨last, hrest⟩ :=
      scans_fields hfields hnext line ((fieldTokens field).reverse ++ .blockMapping :: ts)
    refine ⟨last, ?_⟩
    rw [List.flatMap_cons, List.append_assoc, List.flatMap_cons, List.reverse_append,
      List.append_assoc]
    exact hfirst.trans hrest

-- ---------------------------------------------------------------------------
-- Sections
-- ---------------------------------------------------------------------------

structure Section.Writable (s : Section) : Prop where
  name : IsName s.name
  nonempty : s.fields ≠ []
  fields : ∀ field ∈ s.fields, IsName field.1 ∧ field.2.Writable

theorem Section.lines_append (s : Section) (tail : List Char) :
    s.lines ++ tail = s.name.toList ++ ':' :: '\n' :: (s.fields.flatMap fieldLine ++ tail) := by
  have hlines : s.lines = s.name.toList ++ ':' :: '\n' :: s.fields.flatMap fieldLine := rfl
  simp [hlines]

theorem startsLine_sections {sections : List Section} (h : ∀ s ∈ sections, s.Writable) :
    StartsLine (sections.flatMap Section.lines) := by
  cases sections with
  | nil => exact nofun
  | cons s sections =>
    rw [List.flatMap_cons, Section.lines_append]
    exact (h s (.head _)).name.startsLine _

/-- The fields of a section end where the text goes back to the left. -/
theorem atText_section (h : StartsLine tail) (n : Nat) (ts : List Token) :
    atText n tail ts [3, 1] = atText n tail (.blockEnd :: ts) [1] := by
  obtain ⟨hindent, hbody⟩ := indented h 0
  rw [List.replicate_zero, List.nil_append] at hindent hbody
  rw [atText, atText, hindent, hbody]
  rfl

theorem scans_heading {name : String} (h : IsName name) (hnext : StartsLine (bodyOf tail))
    (n : Nat) (ts : List Token) :
    Scans (atText n (name.toList ++ ':' :: '\n' :: tail) ts [1])
      (atText (n + 1) tail ((keyTokens name.toList).reverse ++ ts) [1]) := by
  have ⟨hne, hlength, hword⟩ := h
  have hstart : atText n (List.replicate 0 ' ' ++ (name.toList ++ ':' :: '\n' :: tail)) ts [1] =
      standing ⟨n, 0⟩ (name.toList ++ ':' :: '\n' :: tail) ts [1] true :=
    atText_indented (h.startsLine _) (Nat.le_refl 1)
  rw [List.replicate_zero, List.nil_append] at hstart
  rw [hstart]
  exact .key hne hword hlength rfl (Nat.le_refl 1) (settle_newline rfl rfl nofun hnext)

theorem scans_section {s : Section} (h : s.Writable) (hnext : StartsLine tail) (n : Nat)
    (ts : List Token) :
    ∃ last, Scans (atText n (s.lines ++ tail) ts [1])
      (atText last tail (s.tokens.reverse ++ ts) [1]) := by
  have hline : NextLine 3 tail := nextLine_indented (k := 0) hnext (by decide)
  have hfields := nextLine_fields (fun field hf => (h.fields field hf).1) hline
  have hheading := scans_heading h.name hfields.body n ts
  obtain ⟨last, hmapping⟩ := scans_mapping h.nonempty h.fields hline (n + 1)
    ((keyTokens s.name.toList).reverse ++ ts)
  rw [atText_section hnext] at hmapping
  refine ⟨last, ?_⟩
  have htokens : s.tokens.reverse ++ ts = .blockEnd :: ((s.fields.flatMap fieldTokens).reverse ++
      .blockMapping :: ((keyTokens s.name.toList).reverse ++ ts)) := by
    simp [Section.tokens]
  rw [Section.lines_append, htokens]
  exact hheading.trans hmapping

theorem scans_sections {sections : List Section} (h : ∀ s ∈ sections, s.Writable) (n : Nat)
    (ts : List Token) :
    ∃ last, Scans (atText n (sections.flatMap Section.lines) ts [1])
      (atText last [] ((sections.flatMap Section.tokens).reverse ++ ts) [1]) := by
  induction sections generalizing n ts with
  | nil => exact ⟨n, .refl _⟩
  | cons s sections ih =>
    obtain ⟨hs, hsections⟩ := List.forall_mem_cons.mp h
    obtain ⟨line, hfirst⟩ := scans_section hs (startsLine_sections hsections) n ts
    obtain ⟨last, hrest⟩ := ih hsections line (s.tokens.reverse ++ ts)
    refine ⟨last, ?_⟩
    rw [List.flatMap_cons, List.flatMap_cons, List.reverse_append, List.append_assoc]
    exact hfirst.trans hrest

-- ---------------------------------------------------------------------------
-- Sections of a configuration
-- ---------------------------------------------------------------------------

def texts (c : Config) : List String :=
  c.traversal.flowKinds ++ [c.traversal.upstreamLabel, c.traversal.downstreamLabel] ++
    [c.samples.pathPattern, c.samples.positiveMarker] ++ c.samples.skipFunctions ++
    c.vocabulary.seed.toList ++ [c.output.directory]

theorem names_sections (c : Config) :
    ∀ s ∈ c.sections, IsName s.name ∧ s.fields ≠ [] ∧ ∀ field ∈ s.fields, IsName field.1 := by
  simp only [sections, traversalFields, sampleFields, parallelFields, vocabularyFields,
    outputFields, List.forall_mem_cons, List.not_mem_nil, false_implies, implies_true, and_true,
    ne_eq, List.cons_ne_nil, not_false_eq_true, true_and]
  decide

theorem values_sections {c : Config} (h : ∀ text ∈ c.texts, Inline text) :
    ∀ s ∈ c.sections, ∀ field ∈ s.fields, field.2.Writable := by
  have hstyle : Inline c.output.labelStyle.name := by
    cases c.output.labelStyle <;> decide
  have hseed : ((c.vocabulary.seed.map Value.string).getD .null).Writable := by
    cases hseed : c.vocabulary.seed with
    | none => trivial
    | some seed => exact h seed (by simp [texts, hseed])
  simp only [texts, List.mem_append, List.mem_cons, List.not_mem_nil, or_false, or_imp, forall_and,
    forall_eq] at h
  simp only [sections, traversalFields, sampleFields, parallelFields, vocabularyFields,
    outputFields, List.forall_mem_cons, List.not_mem_nil, false_implies, implies_true, hseed]
  simp only [Value.Writable, hstyle]
  grind

theorem sections_writable {c : Config} (h : ∀ text ∈ c.texts, Inline text) :
    ∀ s ∈ c.sections, s.Writable := by
  intro s hs
  obtain ⟨hname, hne, hnames⟩ := names_sections c s hs
  exact ⟨hname, hne, fun field hf => ⟨hnames field hf, values_sections h s hs field hf⟩⟩

-- ---------------------------------------------------------------------------
-- Characters
-- ---------------------------------------------------------------------------

theorem IsName.printable {name : String} (h : IsName name) :
    ∀ c ∈ name.toList, isPrintable c = true :=
  fun c hc => printable_of_word (h.2.2 c hc)

theorem printable_indentation : ∀ c ∈ indentation, isPrintable c = true :=
  List.all_eq_true.mp (by decide)

theorem printable_newline : ∀ c ∈ ['\n'], isPrintable c = true :=
  List.all_eq_true.mp (by decide)

theorem printable_item {item : String} (h : Inline item) :
    ∀ c ∈ itemLine item, isPrintable c = true := by
  refine List.forall_mem_append.mpr
    ⟨List.forall_mem_append.mpr ⟨printable_indentation, ?_⟩, printable_newline⟩
  exact List.forall_mem_cons.mpr
    ⟨by decide, List.forall_mem_cons.mpr ⟨by decide, printable_of_mem_scalarText h⟩⟩

theorem printable_lines {value : Value} (h : value.Writable) :
    ∀ c ∈ value.lines, isPrintable c = true := by
  have hends {cs : List Char} (hcs : ∀ c ∈ cs, isPrintable c = true) :
      ∀ c ∈ ' ' :: cs ++ ['\n'], isPrintable c = true :=
    List.forall_mem_append.mpr ⟨List.forall_mem_cons.mpr ⟨by decide, hcs⟩, printable_newline⟩
  cases value with
  | string text => exact hends (printable_of_mem_scalarText h)
  | strings items =>
    cases items with
    | nil => exact List.all_eq_true.mp (by decide)
    | cons item items =>
      exact List.forall_mem_cons.mpr
        ⟨by decide, printable_flatMap fun item hitem => printable_item (h item hitem)⟩
  | number n => exact hends fun c hc => printable_of_word ((word_digits n).2 c hc)
  | truth value => cases value <;> exact List.all_eq_true.mp (by decide)
  | null => exact List.all_eq_true.mp (by decide)

theorem printable_section {s : Section} (h : s.Writable) :
    ∀ c ∈ s.lines, isPrintable c = true := by
  refine List.forall_mem_append.mpr ⟨h.name.printable, ?_⟩
  refine List.forall_mem_cons.mpr ⟨by decide, List.forall_mem_cons.mpr ⟨by decide, ?_⟩⟩
  refine printable_flatMap fun field hf => ?_
  obtain ⟨hname, hvalue⟩ := h.fields field hf
  refine List.forall_mem_append.mpr
    ⟨List.forall_mem_append.mpr ⟨printable_indentation, hname.printable⟩, ?_⟩
  exact List.forall_mem_cons.mpr ⟨by decide, printable_lines hvalue⟩

-- ---------------------------------------------------------------------------
-- Whole configurations
-- ---------------------------------------------------------------------------

theorem toList_print (c : Config) :
    c.print.toList =
      "version".toList ++ ':' :: ' ' :: '1' :: '\n' :: c.sections.flatMap Section.lines := by
  have hversion : "version: 1\n".toList = "version".toList ++ [':', ' ', '1', '\n'] := by decide
  have hprint : c.print.toList = "version: 1\n".toList ++ c.sections.flatMap Section.lines :=
    String.toList_ofList
  rw [hprint, hversion, List.append_assoc]
  simp only [List.cons_append, List.nil_append]

theorem scan_print {c : Config} (h : ∀ text ∈ c.texts, Inline text) :
    Token.scan c.print.toList = .ok c.tokens := by
  have hsections := sections_writable h
  have hversion : IsName "version" := by decide
  have ⟨hne, hlength, hword⟩ := hversion
  have hline : NextLine 1 (c.sections.flatMap Section.lines) :=
    nextLine_indented (k := 0) (startsLine_sections hsections) Nat.one_pos
  have hone : ['1'] ≠ [] ∧ ∀ d ∈ ['1'], isWord d = true :=
    ⟨by decide, List.all_eq_true.mp (by decide)⟩
  have hcolumn : [1].headD 0 ≤ (Mark.mk 0 8).column := by decide
  obtain ⟨t, hsettle, hvalue⟩ := scans_word hone.1 hone.2 ⟨0, 8⟩
    ((keyTokens "version".toList).reverse ++ [.blockMapping]) hcolumn hline
  obtain ⟨last, hrest⟩ := scans_sections hsections 1
    (.scalar ['1'] true :: ((keyTokens "version".toList).reverse ++ [.blockMapping]))
  have hprintable : ∀ d ∈ c.print.toList, isPrintable d = true := by
    rw [toList_print]
    refine List.forall_mem_append.mpr ⟨hversion.printable, ?_⟩
    have hvalue : ∀ d ∈ [':', ' ', '1', '\n'], isPrintable d = true :=
      List.all_eq_true.mp (by decide)
    have hbody : ∀ d ∈ c.sections.flatMap Section.lines, isPrintable d = true :=
      printable_flatMap fun s hs => printable_section (hsections s hs)
    exact List.forall_mem_append.mpr ⟨hvalue, hbody⟩
  -- The key of the first line opens the mapping of the document.
  have hkey : Scans (standing ⟨0, 0⟩ c.print.toList [] [] true) t := by
    rw [toList_print]
    exact .key hne hword hlength rfl (Nat.zero_le _) hsettle
  have hstart : StartsLine c.print.toList := by
    rw [toList_print]
    exact hversion.startsLine _
  rw [scan_eq hprintable hstart ((hkey.trans hvalue).trans hrest)]
  simp [tokens, keyTokens]

end FlowTally.Config
