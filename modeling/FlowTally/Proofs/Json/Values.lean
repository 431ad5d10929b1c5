import FlowTally.Proofs.Json.Printer

/-!
# Values read back from their text

A value that is `Storable depth` comes back from its tree as it is, for a
reader that goes `depth` levels deep (`value?_treeOf`). With the readers of
properties and lists this gives back everything that is kept of a node.
-/

namespace FlowTally.Json

def Ascending (fields : List (String × α)) : Prop := (fields.map (·.1)).Pairwise (· < ·)

mutual
/-- No binary64 numbers, and arrays and objects nested at most `depth` levels deep. Whole numbers of 64
bits and ascending names are what values are made with anyway. -/
def Storable (depth : Nat) : Json → Prop
  | .int n => IsWhole n
  | .real _ => False
  | .arr items => 0 < depth ∧ StorableItems (depth - 1) items
  | .obj fields => 0 < depth ∧ Ascending fields ∧ StorableFields (depth - 1) fields
  | _ => True
def StorableItems (depth : Nat) : List Json → Prop
  | [] => True
  | item :: rest => item.Storable depth ∧ StorableItems depth rest
def StorableFields (depth : Nat) : List (String × Json) → Prop
  | [] => True
  | (_, value) :: rest => value.Storable depth ∧ StorableFields depth rest
end

mutual
theorem Storable.noReal : {depth : Nat} → {value : Json} → value.Storable depth → value.NoReal
  | _, .null, _ | _, .bool _, _ | _, .int _, _ | _, .str _, _ => trivial
  | _, .arr _, h => StorableItems.noReal h.2
  | _, .obj _, h => StorableFields.noReal h.2.2
theorem StorableItems.noReal : {depth : Nat} → {items : List Json} → StorableItems depth items →
    NoRealItems items
  | _, [], _ => trivial
  | _, _ :: _, h => ⟨h.1.noReal, StorableItems.noReal h.2⟩
theorem StorableFields.noReal : {depth : Nat} → {fields : List (String × Json)} →
    StorableFields depth fields → NoRealFields fields
  | _, [], _ => trivial
  | _, _ :: _, h => ⟨h.1.noReal, StorableFields.noReal h.2⟩
end

theorem noReal_arr {items : List Json} (h : ∀ item ∈ items, item.NoReal) : (Json.arr items).NoReal := by
  induction items with
  | nil => trivial
  | cons item rest ih =>
    obtain ⟨hitem, hrest⟩ := List.forall_mem_cons.mp h
    exact ⟨hitem, ih hrest⟩

mutual
theorem Storable.mono : {depth more : Nat} → {value : Json} → depth ≤ more → value.Storable depth →
    value.Storable more
  | _, _, .null, _, _ | _, _, .bool _, _, _ | _, _, .str _, _, _ => trivial
  | _, _, .int _, _, h => h
  | _, _, .arr _, hle, h => ⟨by have := h.1; omega, StorableItems.mono (by omega) h.2⟩
  | _, _, .obj _, hle, h => ⟨by have := h.1; omega, h.2.1, StorableFields.mono (by omega) h.2.2⟩
theorem StorableItems.mono : {depth more : Nat} → {items : List Json} → depth ≤ more →
    StorableItems depth items → StorableItems more items
  | _, _, [], _, _ => trivial
  | _, _, _ :: _, hle, h => ⟨h.1.mono hle, StorableItems.mono hle h.2⟩
theorem StorableFields.mono : {depth more : Nat} → {fields : List (String × Json)} → depth ≤ more →
    StorableFields depth fields → StorableFields more fields
  | _, _, [], _, _ => trivial
  | _, _, _ :: _, hle, h => ⟨h.1.mono hle, StorableFields.mono hle h.2⟩
end

-- ---------------------------------------------------------------------------
-- Names in order
-- ---------------------------------------------------------------------------

theorem insertField_of_forall_lt {name : String} {value : α} {fields : List (String × α)}
    (h : ∀ field ∈ fields, field.1 < name) :
    insertField name value fields = fields ++ [(name, value)] := by
  induction fields with
  | nil => rfl
  | cons field rest ih =>
    obtain ⟨hfield, hrest⟩ := List.forall_mem_cons.mp h
    have hne : name ≠ field.1 := by
      rintro rfl
      exact String.lt_irrefl _ hfield
    rw [insertField, if_neg (String.lt_asymm hfield), if_neg hne, ih hrest]
    rfl

theorem sortFields_of_ascending {fields : List (String × α)} (h : Ascending fields) :
    sortFields fields = fields := by
  -- Each field goes behind those before it.
  have hfold (rest : List (String × α)) : ∀ sorted : List (String × α), Ascending (sorted ++ rest) →
      rest.foldl (fun sorted field => insertField field.1 field.2 sorted) sorted = sorted ++ rest := by
    induction rest with
    | nil => simp
    | cons field rest ih =>
      intro sorted hsorted
      have hlt : ∀ other ∈ sorted, other.1 < field.1 := by
        intro other ho
        rw [Ascending, List.map_append, List.pairwise_append] at hsorted
        exact hsorted.2.2 _ (List.mem_map_of_mem ho) _ (by simp)
      rw [List.foldl_cons, insertField_of_forall_lt hlt, ih _ (by simpa using hsorted)]
      simp
  exact hfold fields [] h

-- ---------------------------------------------------------------------------
-- Values
-- ---------------------------------------------------------------------------

mutual
theorem value?_treeOf : {depth : Nat} → {value : Json} → value.Storable depth →
    (treeOf value).value? depth = some value
  | _, .null, _ => rfl
  | _, .bool _, _ => rfl
  | _, .int n, h => by rw [treeOf, Tree.value?, value?_literalOf h]
  | _, .str s, _ => by rw [treeOf, Tree.value?, text?OfPieces_piecesOf]; rfl
  | depth, .arr items, h => by
    rw [treeOf, Tree.value?, if_neg (Nat.ne_of_gt h.1), values?_treesOf h.2]
    rfl
  | depth, .obj fields, h => by
    rw [treeOf, Tree.value?, if_neg (Nat.ne_of_gt h.1), fieldValues?_fieldsOf h.2.2, Option.map_some,
      sortFields_of_ascending h.2.1]
theorem values?_treesOf : {depth : Nat} → {items : List Json} → StorableItems depth items →
    Tree.values? depth (treesOf items) = some items
  | _, [], _ => rfl
  | _, _ :: _, h => by simp [treesOf, Tree.values?, value?_treeOf h.1, values?_treesOf h.2]
theorem fieldValues?_fieldsOf : {depth : Nat} → {fields : List (String × Json)} →
    StorableFields depth fields → Tree.fieldValues? depth (fieldsOf fields) = some fields
  | _, [], _ => rfl
  | _, (name, value) :: rest, h => by
    simp [fieldsOf, Tree.fieldValues?, text?OfPieces_piecesOf, value?_treeOf h.1,
      fieldValues?_fieldsOf h.2]
end

theorem properties?_treeOf {depth : Nat} {fields : List (String × Json)}
    (h : (Json.obj fields).Storable depth) : (treeOf (.obj fields)).properties? depth = some fields := by
  rw [treeOf, Tree.properties?, fieldValues?_fieldsOf h.2.2, Option.map_some,
    sortFields_of_ascending h.2.1]

theorem int64?_treeOf {n : Int} (h : -9223372036854775808 ≤ n ∧ n < 9223372036854775808) :
    (treeOf (.int n)).int64? = some n := by
  have hwhole : IsWhole n := ⟨h.1, by omega⟩
  simp [treeOf, Tree.int64?, value?_literalOf hwhole, h]

theorem list?_treeOf_eq (item? : Tree → Option β) (write : α → Json) (items : List α) :
    (treeOf (.arr (items.map write))).list? item? = items.mapM fun item => item? (treeOf (write item)) := by
  have htrees (items : List α) : treesOf (items.map write) = items.map fun item => treeOf (write item) := by
    induction items with
    | nil => rfl
    | cons item rest ih => rw [List.map_cons, treesOf, ih, List.map_cons]
  rw [treeOf, Tree.list?, htrees, List.mapM_map]
  rfl

theorem list?_treeOf {item? : Tree → Option β} {write : α → Json} {f : α → β} {items : List α}
    (h : ∀ item ∈ items, item? (treeOf (write item)) = some (f item)) :
    (treeOf (.arr (items.map write))).list? item? = some (items.map f) := by
  rw [list?_treeOf_eq]
  exact mapM_eq_pure h

theorem texts?_treeOf (texts : List String) :
    (treeOf (.arr (texts.map .str))).list? Tree.text? = some texts := by
  rw [list?_treeOf (f := id) fun text _ => text?_treeOf text, List.map_id]

end FlowTally.Json
