import FlowTally.Json.Record
import FlowTally.Proofs.Except
import FlowTally.Proofs.Json.Written

/-!
# Printed values read back

Both texts of a value without binary64 numbers, the compact and the indented
one, are written texts of its tree (`written_print`, `written_printIndented`),
and from the tree of a record with distinct field names the reader of records
finds the tree of each field (`record?_treeOf`).
-/

namespace FlowTally.Json

mutual
/-- The tree of a value. Binary64 numbers are left out. -/
def treeOf : Json → Tree
  | .null => .null
  | .bool b => .bool b
  | .int n => .num (literalOf n)
  | .real _ => .null
  | .str s => .str (piecesOf s)
  | .arr items => .arr (treesOf items)
  | .obj fields => .obj (fieldsOf fields)
def treesOf : List Json → List Tree
  | [] => []
  | item :: rest => treeOf item :: treesOf rest
def fieldsOf : List (String × Json) → List (List Piece × Tree)
  | [] => []
  | (name, value) :: rest => (piecesOf name, treeOf value) :: fieldsOf rest
end

mutual
def NoReal : Json → Prop
  | .real _ => False
  | .arr items => NoRealItems items
  | .obj fields => NoRealFields fields
  | _ => True
def NoRealItems : List Json → Prop
  | [] => True
  | item :: rest => item.NoReal ∧ NoRealItems rest
def NoRealFields : List (String × Json) → Prop
  | [] => True
  | (_, value) :: rest => value.NoReal ∧ NoRealFields rest
end

theorem blank_indent (depth : Nat) : Blank (indent depth) := by
  intro c hc
  rcases List.mem_cons.mp hc with rfl | hc
  · decide
  · rw [(List.mem_replicate.mp hc).2]
    decide

theorem blank_nil : Blank [] := by simp [Blank]

theorem blank_space : Blank [' '] := by
  intro c hc
  cases List.mem_singleton.mp hc
  decide

mutual
theorem written_printIndented : (value : Json) → (depth : Nat) → value.NoReal →
    Written (treeOf value) (value.printIndented depth)
  | .null, _, _ => .null
  | .bool b, _, _ => .bool b
  | .int n, _, _ => .int n
  | .str s, _, _ => .str s
  | .arr [], _, _ => .noItems
  | .arr (item :: rest), depth, h => by
    have hitem := written_printIndented item (depth + 1) h.1
    have hitems := written_printIndentedItems rest (depth + 1) h.2 (indent (depth + 1)) _ (treeOf item)
      (indent depth) (blank_indent _) hitem (blank_indent _)
    have htext : (Json.arr (item :: rest)).printIndented depth =
        '[' :: (indent (depth + 1) ++ item.printIndented (depth + 1) ++
          (printIndentedItems (depth + 1) rest ++ (indent depth ++ [']']))) := by
      simp [printIndented]
    rw [htext]
    exact .items hitems
  | .obj [], _, _ => .noFields
  | .obj ((name, value) :: rest), depth, h => by
    have hvalue := written_printIndented value (depth + 1) h.1
    have hfields := written_printIndentedFields rest (depth + 1) h.2 name (indent (depth + 1)) _
      (treeOf value) (indent depth) (blank_indent _) hvalue (blank_indent _)
    have htext : (Json.obj ((name, value) :: rest)).printIndented depth =
        '\x7b' :: (indent (depth + 1) ++ printString name ++
          (':' :: [' '] ++ value.printIndented (depth + 1) ++
            (printIndentedFields (depth + 1) rest ++ (indent depth ++ ['\x7d'])))) := by
      simp [printIndented]
    rw [htext]
    exact .fields hfields
theorem written_printIndentedItems : (rest : List Json) → (depth : Nat) → NoRealItems rest →
    (before cs : List Char) → (item : Tree) → (after : List Char) → Blank before → Written item cs →
    Blank after →
    WrittenItems (item :: treesOf rest)
      (before ++ cs ++ (printIndentedItems depth rest ++ (after ++ [']'])))
  | [], _, _, before, cs, _, after, hbefore, hitem, hafter => .last before cs after hbefore hitem hafter
  | next :: rest, depth, h, before, cs, _, after, hbefore, hitem, hafter => by
    have hnext := written_printIndented next depth h.1
    have hrest := written_printIndentedItems rest depth h.2 (indent depth) _ (treeOf next) after
      (blank_indent depth) hnext hafter
    have htext : printIndentedItems depth (next :: rest) ++ (after ++ [']']) =
        ',' :: (indent depth ++ next.printIndented depth ++
          (printIndentedItems depth rest ++ (after ++ [']']))) := by
      simp [printIndentedItems]
    rw [htext]
    exact .cons before cs _ hbefore hitem hrest
theorem written_printIndentedFields : (rest : List (String × Json)) → (depth : Nat) →
    NoRealFields rest → (name : String) → (before cs : List Char) → (value : Tree) →
    (after : List Char) → Blank before → Written value cs → Blank after →
    WrittenFields ((piecesOf name, value) :: fieldsOf rest)
      (before ++ printString name ++
        (':' :: [' '] ++ cs ++ (printIndentedFields depth rest ++ (after ++ ['\x7d']))))
  | [], _, _, name, before, cs, _, after, hbefore, hvalue, hafter =>
    .last name before [' '] cs after hbefore blank_space hvalue hafter
  | (next, value) :: rest, depth, h, name, before, cs, _, after, hbefore, hvalue, hafter => by
    have hnext := written_printIndented value depth h.1
    have hrest := written_printIndentedFields rest depth h.2 next (indent depth) _ (treeOf value)
      after (blank_indent depth) hnext hafter
    have htext : printIndentedFields depth ((next, value) :: rest) ++ (after ++ ['\x7d']) =
        ',' :: (indent depth ++ printString next ++ (':' :: [' '] ++ value.printIndented depth ++
          (printIndentedFields depth rest ++ (after ++ ['\x7d'])))) := by
      simp [printIndentedFields]
    rw [htext]
    exact .cons name before [' '] cs _ hbefore blank_space hvalue hrest
end

theorem tree?_printIndented {value : Json} {before after : List Char} (h : value.NoReal)
    (hbefore : Blank before) (hafter : Blank after) :
    tree? (Content.ofChars (before ++ value.printIndented 0 ++ after)) = some (treeOf value) :=
  tree?_written (written_printIndented value 0 h) hbefore hafter

-- Nothing stands between the parts of a compact text.
mutual
theorem written_print : (value : Json) → value.NoReal → Written (treeOf value) value.print
  | .null, _ => .null
  | .bool b, _ => .bool b
  | .int n, _ => .int n
  | .str s, _ => .str s
  | .arr [], _ => .noItems
  | .arr (item :: rest), h => .items (written_printItems (item :: rest) h (List.cons_ne_nil item rest))
  | .obj [], _ => .noFields
  | .obj (field :: rest), h =>
    .fields (written_printFields (field :: rest) h (List.cons_ne_nil field rest))
theorem written_printItems : (items : List Json) → NoRealItems items → items ≠ [] →
    WrittenItems (treesOf items) (printItems items ++ [']'])
  | [item], h, _ => .last [] _ [] blank_nil (written_print item h.1) blank_nil
  | item :: next :: rest, h, _ => by
    have hitems := written_printItems (next :: rest) h.2 (List.cons_ne_nil next rest)
    rw [printItems, List.append_assoc, List.cons_append]
    exact .cons [] _ _ blank_nil (written_print item h.1) hitems
theorem written_printFields : (fields : List (String × Json)) → NoRealFields fields → fields ≠ [] →
    WrittenFields (fieldsOf fields) (printFields fields ++ ['\x7d'])
  | [(name, value)], h, _ => by
    have hvalue := WrittenFields.last name [] [] _ [] blank_nil blank_nil (written_print value h.1)
      blank_nil
    simpa [printFields, fieldsOf] using hvalue
  | (name, value) :: next :: rest, h, _ => by
    have hfields := WrittenFields.cons name [] [] _ _ blank_nil blank_nil (written_print value h.1)
      (written_printFields (next :: rest) h.2 (List.cons_ne_nil next rest))
    simpa [printFields, fieldsOf] using hfields
end

theorem tree?_compact {value : Json} (h : value.NoReal) :
    tree? (.ofString value.compact) = some (treeOf value) := by
  have hread := tree?_written (written_print value h) blank_nil blank_nil
  simpa [Content.ofString, compact] using hread

-- ---------------------------------------------------------------------------
-- Records
-- ---------------------------------------------------------------------------

theorem fieldsOf_eq_map (fields : List (String × Json)) :
    fieldsOf fields = fields.map fun field => (piecesOf field.1, treeOf field.2) := by
  induction fields with
  | nil => rfl
  | cons field rest ih => rw [fieldsOf, List.map_cons, ih]

theorem mapM_names (fields : List (String × Json)) :
    (fieldsOf fields).mapM (fun (name, value) => (text?OfPieces name).map (·, value)) =
      some (fields.map fun field => (field.1, treeOf field.2)) := by
  rw [fieldsOf_eq_map, List.mapM_map]
  exact mapM_eq_pure fun field _ => by simp [text?OfPieces_piecesOf]

theorem filter_name {fields : List (String × α)} (hn : (fields.map (·.1)).Nodup) (name : String) :
    (fields.filter fun field => field.1 == name) =
      ((lookup? name fields).map fun value => (name, value)).toList := by
  unfold lookup?
  induction fields with
  | nil => rfl
  | cons field rest ih =>
    obtain ⟨hfield, hrest⟩ := List.nodup_cons.mp hn
    by_cases h : field.1 = name
    · subst h
      have hnone : rest.filter (fun other => other.1 == field.1) = [] := by
        refine List.filter_eq_nil_iff.mpr fun other ho heq => hfield ?_
        exact List.mem_map.mpr ⟨other, ho, eq_of_beq heq⟩
      simp [hnone]
    · simp [h, ih hrest]

theorem record?_treeOf {fields : List (String × Json)} (hn : (fields.map (·.1)).Nodup)
    (names : List String) :
    (treeOf (.obj fields)).record? names =
      some (names.map fun name => (lookup? name fields).map treeOf) := by
  simp only [treeOf, Tree.record?, mapM_names, Option.bind_eq_bind, Option.bind_some]
  refine mapM_eq_pure fun name _ => ?_
  have hn' : ((fields.map fun field => (field.1, treeOf field.2)).map (·.1)).Nodup := by
    rwa [List.map_map]
  have hlookup : lookup? name (fields.map fun field => (field.1, treeOf field.2)) =
      (lookup? name fields).map treeOf := by
    simp [lookup?, List.find?_map, Function.comp_def]
  rw [filter_name hn', hlookup]
  cases lookup? name fields <;> rfl

-- ---------------------------------------------------------------------------
-- Parts of a record
-- ---------------------------------------------------------------------------

theorem text?_treeOf (s : String) : (treeOf (.str s)).text? = some s := text?OfPieces_piecesOf s

theorem choice?_treeOf (s : String) : (treeOf (.str s)).choice? = some s := text?OfPieces_piecesOf s

theorem count?_treeOf {n : Nat} (h : n < Text.Natural.bound64) :
    (treeOf (.int n)).count? = some n := by
  have hsign : 0 ≤ (n : Int) := Int.natCast_nonneg n
  rw [show Text.Natural.bound64 = 18446744073709551616 from rfl] at h
  have hwhole : IsWhole n := ⟨by omega, by omega⟩
  simp [treeOf, Tree.count?, value?_literalOf hwhole]

end FlowTally.Json
