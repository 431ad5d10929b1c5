import FlowTally.Proofs.Json.Values

/-!
# How deep values nest

`Storable` says three things at once: what the types of values promise
(`WellMade`), that no binary64 numbers occur, and a bound on the nesting
(`storable_iff`). A reader that goes less deep than a value refuses its tree
(`depth_le_of_value?`). However deep they nest, the tree tells values without
binary64 numbers apart (`treeOf_inj`).
-/

namespace FlowTally.Json

mutual
def depth : Json → Nat
  | .arr items => depthItems items + 1
  | .obj fields => depthFields fields + 1
  | _ => 0
def depthItems : List Json → Nat
  | [] => 0
  | item :: rest => max item.depth (depthItems rest)
def depthFields : List (String × Json) → Nat
  | [] => 0
  | (_, value) :: rest => max value.depth (depthFields rest)
end

mutual
/-- Numbers of 64 bits, signed or unsigned, and each name of an object once, in ascending order. -/
def WellMade : Json → Prop
  | .int n => IsWhole n
  | .arr items => WellMadeItems items
  | .obj fields => Ascending fields ∧ WellMadeFields fields
  | _ => True
def WellMadeItems : List Json → Prop
  | [] => True
  | item :: rest => item.WellMade ∧ WellMadeItems rest
def WellMadeFields : List (String × Json) → Prop
  | [] => True
  | (_, value) :: rest => value.WellMade ∧ WellMadeFields rest
end

variable {limit : Nat}

@[simp] theorem depth_int (n : Int) : (Json.int n).depth = 0 := rfl

@[simp] theorem depth_str (s : String) : (Json.str s).depth = 0 := rfl

theorem depth_arr_le {items : List Json} :
    (Json.arr items).depth ≤ limit + 1 ↔ ∀ item ∈ items, item.depth ≤ limit := by
  rw [depth, Nat.add_le_add_iff_right]
  induction items with
  | nil => simp [depthItems]
  | cons item rest ih => simp [depthItems, ih]

theorem depth_obj_le {fields : List (String × Json)} :
    (Json.obj fields).depth ≤ limit + 1 ↔ ∀ field ∈ fields, field.2.depth ≤ limit := by
  rw [depth, Nat.add_le_add_iff_right]
  induction fields with
  | nil => simp [depthFields]
  | cons field rest ih => simp [depthFields, ih]

mutual
theorem storable_iff : {limit : Nat} → (value : Json) →
    (value.Storable limit ↔ value.WellMade ∧ value.NoReal ∧ value.depth ≤ limit)
  | _, .null | _, .bool _ | _, .int _ | _, .real _ | _, .str _ => by
    simp [Storable, WellMade, NoReal, depth]
  | limit, .arr items => by
    rw [Storable, WellMade, NoReal, depth, storableItems_iff items]
    constructor
    · rintro ⟨hpos, hmade, hreal, hdepth⟩
      exact ⟨hmade, hreal, by omega⟩
    · rintro ⟨hmade, hreal, hdepth⟩
      exact ⟨by omega, hmade, hreal, by omega⟩
  | limit, .obj fields => by
    rw [Storable, WellMade, NoReal, depth, storableFields_iff fields]
    constructor
    · rintro ⟨hpos, hnames, hmade, hreal, hdepth⟩
      exact ⟨⟨hnames, hmade⟩, hreal, by omega⟩
    · rintro ⟨⟨hnames, hmade⟩, hreal, hdepth⟩
      exact ⟨by omega, hnames, hmade, hreal, by omega⟩
theorem storableItems_iff : {limit : Nat} → (items : List Json) →
    (StorableItems limit items ↔ WellMadeItems items ∧ NoRealItems items ∧ depthItems items ≤ limit)
  | _, [] => by simp [StorableItems, WellMadeItems, NoRealItems, depthItems]
  | _, item :: rest => by
    rw [StorableItems, WellMadeItems, NoRealItems, depthItems, storable_iff item,
      storableItems_iff rest, Nat.max_le]
    tauto
theorem storableFields_iff : {limit : Nat} → (fields : List (String × Json)) →
    (StorableFields limit fields ↔
      WellMadeFields fields ∧ NoRealFields fields ∧ depthFields fields ≤ limit)
  | _, [] => by simp [StorableFields, WellMadeFields, NoRealFields, depthFields]
  | _, (name, value) :: rest => by
    rw [StorableFields, WellMadeFields, NoRealFields, depthFields, storable_iff value,
      storableFields_iff rest, Nat.max_le]
    tauto
end

-- ---------------------------------------------------------------------------
-- What readers answer for
-- ---------------------------------------------------------------------------

mutual
theorem depth_le_of_value? : {limit : Nat} → (value : Json) → {other : Json} →
    (treeOf value).value? limit = some other → value.depth ≤ limit
  | limit, .null, _, _ | limit, .bool _, _, _ | limit, .int _, _, _ | limit, .real _, _, _
  | limit, .str _, _, _ => Nat.zero_le limit
  | limit, .arr items, _, h => by
    rw [treeOf, Tree.value?] at h
    split at h
    · cases h
    · obtain ⟨others, hitems, -⟩ := Option.map_eq_some_iff.mp h
      have := depthItems_le_of_values? items hitems
      rw [depth]
      omega
  | limit, .obj fields, _, h => by
    rw [treeOf, Tree.value?] at h
    split at h
    · cases h
    · obtain ⟨others, hfields, -⟩ := Option.map_eq_some_iff.mp h
      have := depthFields_le_of_fieldValues? fields hfields
      rw [depth]
      omega
theorem depthItems_le_of_values? : {limit : Nat} → (items : List Json) → {others : List Json} →
    Tree.values? limit (treesOf items) = some others → depthItems items ≤ limit
  | limit, [], _, _ => Nat.zero_le limit
  | _, item :: rest, _, h => by
    rw [treesOf, Tree.values?] at h
    split at h
    · rename_i hitem hrest
      exact Nat.max_le.mpr ⟨depth_le_of_value? item hitem, depthItems_le_of_values? rest hrest⟩
    · cases h
theorem depthFields_le_of_fieldValues? : {limit : Nat} → (fields : List (String × Json)) →
    {others : List (String × Json)} →
    Tree.fieldValues? limit (fieldsOf fields) = some others → depthFields fields ≤ limit
  | limit, [], _, _ => Nat.zero_le limit
  | _, (name, value) :: rest, _, h => by
    rw [fieldsOf, Tree.fieldValues?] at h
    split at h
    · rename_i hvalue hrest
      exact Nat.max_le.mpr
        ⟨depth_le_of_value? value hvalue, depthFields_le_of_fieldValues? rest hrest⟩
    · cases h
end

theorem depth_le_of_properties? {fields others : List (String × Json)} (hlimit : 0 < limit)
    (h : (treeOf (.obj fields)).properties? limit = some others) :
    (Json.obj fields).depth ≤ limit := by
  rw [treeOf, Tree.properties?] at h
  obtain ⟨found, hfields, -⟩ := Option.map_eq_some_iff.mp h
  have := depthFields_le_of_fieldValues? fields hfields
  rw [depth]
  omega

-- ---------------------------------------------------------------------------
-- Trees tell values apart
-- ---------------------------------------------------------------------------

theorem piecesOf_inj {s s' : String} (h : piecesOf s = piecesOf s') : s = s' :=
  Option.some.inj (by rw [← text?OfPieces_piecesOf s, h, text?OfPieces_piecesOf])

theorem literalOf_inj {n m : Int} (h : literalOf n = literalOf m) : n = m := by
  simp only [literalOf, Literal.mk.injEq, decide_eq_decide, and_true] at h
  obtain ⟨hsign, hdigits⟩ := h
  have habs : n.natAbs = m.natAbs := by
    rw [← Text.Natural.fold_valuesOf (by decide : 1 < 10) (by decide) n.natAbs, hdigits,
      Text.Natural.fold_valuesOf (by decide) (by decide)]
  omega

mutual
theorem treeOf_inj : (a b : Json) → a.NoReal → b.NoReal → treeOf a = treeOf b → a = b
  | .null, b, _, hb, h => by cases b <;> simp_all [treeOf, NoReal]
  | .bool _, b, _, hb, h => by cases b <;> simp_all [treeOf, NoReal]
  | .int n, b, _, hb, h => by
    cases b with
    | int m => exact congrArg Json.int (literalOf_inj (Tree.num.inj h))
    | _ => simp_all [treeOf, NoReal]
  | .real _, _, ha, _, _ => ha.elim
  | .str s, b, _, hb, h => by
    cases b with
    | str s' => exact congrArg Json.str (piecesOf_inj (Tree.str.inj h))
    | _ => simp_all [treeOf, NoReal]
  | .arr items, b, ha, hb, h => by
    cases b with
    | arr items' => exact congrArg Json.arr (treesOf_inj items items' ha hb (Tree.arr.inj h))
    | _ => simp_all [treeOf, NoReal]
  | .obj fields, b, ha, hb, h => by
    cases b with
    | obj fields' => exact congrArg Json.obj (fieldsOf_inj fields fields' ha hb (Tree.obj.inj h))
    | _ => simp_all [treeOf, NoReal]
theorem treesOf_inj : (as bs : List Json) → NoRealItems as → NoRealItems bs →
    treesOf as = treesOf bs → as = bs
  | [], bs, _, _, h => by cases bs <;> simp_all [treesOf]
  | a :: as, bs, ha, hb, h => by
    cases bs with
    | nil => simp [treesOf] at h
    | cons b bs =>
      obtain ⟨hhead, htail⟩ := List.cons.inj h
      rw [treeOf_inj a b ha.1 hb.1 hhead, treesOf_inj as bs ha.2 hb.2 htail]
theorem fieldsOf_inj : (as bs : List (String × Json)) → NoRealFields as → NoRealFields bs →
    fieldsOf as = fieldsOf bs → as = bs
  | [], bs, _, _, h => by cases bs <;> simp_all [fieldsOf]
  | (name, a) :: as, bs, ha, hb, h => by
    cases bs with
    | nil => simp [fieldsOf] at h
    | cons field bs =>
      obtain ⟨hhead, htail⟩ := List.cons.inj h
      obtain ⟨hname, hvalue⟩ := Prod.mk.inj hhead
      rw [piecesOf_inj hname, treeOf_inj a field.2 ha.1 hb.1 hvalue,
        fieldsOf_inj as bs ha.2 hb.2 htail]
end

end FlowTally.Json
