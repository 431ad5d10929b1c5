import FlowTally.Graph.File
import FlowTally.Proofs.Files.Operations
import FlowTally.Proofs.Graph.Export
import FlowTally.Proofs.Json.Depth

/-!
# Export files of snapshots

What is read back from a saved file is what the text of the snapshot says. For
kinds that come from names and properties without binary64 numbers that is the
whole snapshot, as long as its properties nest no deeper in the document than
the reader goes (`read_write_of_plain`, `depth_toJson_le`), and no other
snapshot has the same text (`eq_of_write_eq`). `saved_exactly` puts both
together for files.
-/

namespace FlowTally

open Json (treeOf)

theorem Node.toJson_injective : Function.Injective Node.toJson := by
  intro a b h
  have hstr : Function.Injective Json.str := fun _ _ => Json.str.inj
  cases a
  cases b
  simp only [toJson, Json.obj.injEq, List.cons.injEq, Prod.mk.injEq, Json.int.injEq, Json.str.injEq,
    Json.arr.injEq, true_and, and_true] at h
  obtain ⟨rfl, rfl, hlabels, rfl⟩ := h
  rw [hstr.list_map hlabels]

theorem Edge.reread_eq_of_toJson_eq {a b : Edge} (h : a.toJson = b.toJson) : a.reread = b.reread := by
  simp only [toJson, Json.obj.injEq, List.cons.injEq, Prod.mk.injEq, Json.int.injEq, Json.str.injEq,
    true_and, and_true] at h
  obtain ⟨hsource, htarget, hname⟩ := h
  rw [reread, reread, hsource, htarget, hname]

namespace Snapshot

structure WellMade (s : Snapshot) : Prop extends s.Bounded where
  properties : ∀ node ∈ s.nodes, (Json.obj node.properties).WellMade

/-- Kinds come from names, and no property holds a binary64 number. -/
structure Plain (s : Snapshot) : Prop where
  kind : ∀ edge ∈ s.edges, ∃ name, edge.kind = .ofName name
  noReal : ∀ node ∈ s.nodes, (Json.obj node.properties).NoReal

variable {s s' : Snapshot} {files exported : FileTree} {path : String} {limit : Nat}

-- ---------------------------------------------------------------------------
-- The document of a snapshot
-- ---------------------------------------------------------------------------

theorem Plain.reread_eq (h : s.Plain) : s.reread = s := by
  have hkind : ∀ edge ∈ s.edges, edge.reread = edge := by
    intro edge he
    obtain ⟨name, hname⟩ := h.kind edge he
    rw [Edge.reread, hname, EdgeKind.name_ofName, ← hname]
  rw [reread, List.map_congr_left hkind, List.map_id']

theorem reread_eq_of_toJson_eq (h : s.toJson = s'.toJson) : s.reread = s'.reread := by
  simp only [toJson, Json.obj.injEq, List.cons.injEq, Prod.mk.injEq, Json.arr.injEq, true_and,
    and_true] at h
  obtain ⟨hnodes, hedges⟩ := h
  have hreread : s.edges.map Edge.reread = s'.edges.map Edge.reread := by
    rw [← List.forall₂_eq_eq_eq, List.forall₂_map_left_iff, List.forall₂_map_right_iff] at hedges ⊢
    exact hedges.imp fun a b => Edge.reread_eq_of_toJson_eq
  rw [reread, reread, Node.toJson_injective.list_map hnodes, hreread]

theorem eq_of_write_eq (h : s.Plain) (h' : s'.Plain)
    (hwrite : Content.ofString s.write = .ofString s'.write) : s = s' := by
  have htree : treeOf s.toJson = treeOf s'.toJson := by
    have hread := congrArg Json.tree? hwrite
    rw [write, write, Json.tree?_compact (noReal_toJson h.noReal),
      Json.tree?_compact (noReal_toJson h'.noReal)] at hread
    exact Option.some.inj hread
  have hjson : s.toJson = s'.toJson :=
    Json.treeOf_inj _ _ (noReal_toJson h.noReal) (noReal_toJson h'.noReal) htree
  rw [← h.reread_eq, reread_eq_of_toJson_eq hjson, h'.reread_eq]

/-- Around its properties a node adds three levels to the document. -/
theorem depth_toJson_le (hlimit : 0 < limit) :
    s.toJson.depth ≤ limit + propertyLevel ↔
      ∀ node ∈ s.nodes, (Json.obj node.properties).depth ≤ limit := by
  have hnode (node : Node) :
      node.toJson.depth ≤ limit + 1 ↔ (Json.obj node.properties).depth ≤ limit := by
    have hlabels : (Json.arr (node.labels.map .str)).depth ≤ limit := by
      obtain ⟨less, rfl⟩ := Nat.exists_eq_succ_of_ne_zero (Nat.ne_of_gt hlimit)
      exact Json.depth_arr_le.mpr (List.forall_mem_map.mpr fun _ _ => Nat.zero_le less)
    simp [Node.toJson, Json.depth_obj_le, hlabels]
  have hedge (edge : Edge) : edge.toJson.depth ≤ limit + 1 := by
    simp [Edge.toJson, Json.depth_obj_le]
  simp [toJson, propertyLevel, Json.depth_obj_le, Json.depth_arr_le, hnode, hedge]

theorem storable_iff (hmade : s.WellMade) (hplain : s.Plain) (hlimit : 0 < limit) :
    s.Storable limit ↔ s.toJson.depth ≤ limit + propertyLevel := by
  rw [depth_toJson_le hlimit]
  refine forall₂_congr fun node hn => ?_
  rw [Json.storable_iff]
  exact ⟨fun h => h.2.2, fun h => ⟨hmade.properties node hn, hplain.noReal node hn, h⟩⟩

theorem depth_le_of_ofTree? (hbounded : s.Bounded) (h : ofTree? (treeOf s.toJson) = some s') :
    s.toJson.depth ≤ Json.maxDepth := by
  rw [ofTree?_toJson_eq hbounded] at h
  obtain ⟨nodes, hnodes, -⟩ := Option.map_eq_some_iff.mp h
  have hlimit : 0 < Json.maxDepth - propertyLevel := by decide
  refine (depth_toJson_le hlimit).mpr fun node hn => ?_
  obtain ⟨other, hnode⟩ := exists_of_mapM_eq_some hnodes node hn
  rw [Node.ofTree?_toJson_eq (hbounded.node node hn)] at hnode
  obtain ⟨properties, hproperties, -⟩ := Option.map_eq_some_iff.mp hnode
  exact Json.depth_le_of_properties? hlimit hproperties

theorem read_write_of_plain (hmade : s.WellMade) (hplain : s.Plain) :
    read (.ofString s.write) =
      if s.toJson.depth ≤ Json.maxDepth then .ok s
      else .error (.serialization "not a graph snapshot") := by
  by_cases hdepth : s.toJson.depth ≤ Json.maxDepth
  · have hstorable : s.Storable (Json.maxDepth - propertyLevel) :=
      (storable_iff hmade hplain (by decide)).mpr hdepth
    rw [if_pos hdepth, read_write hmade.toBounded hstorable, hplain.reread_eq]
  · have hnone : ofTree? (treeOf s.toJson) = none := by
      refine Option.eq_none_iff_forall_ne_some.mpr fun other hother => ?_
      exact hdepth (depth_le_of_ofTree? hmade.toBounded hother)
    rw [if_neg hdepth, read, bind_tree?_write hplain.noReal, hnone]

-- ---------------------------------------------------------------------------
-- Files
-- ---------------------------------------------------------------------------

theorem read_of_save (h : save files path s = .ok exported) :
    exported.read path = .ok (.ofString s.write) ∧ load exported path = read (.ofString s.write) := by
  cases hwrite : files.write path (.ofString s.write) with
  | error fault =>
    rw [save, hwrite] at h
    cases h
  | ok written =>
    rw [save, hwrite] at h
    cases h
    obtain ⟨place, hplace, hentry⟩ := FileTree.entry_of_put hwrite
    have hread := FileTree.read_of_entry hplace hentry
    refine ⟨hread, ?_⟩
    simp only [load, FileTree.find_of_entry hplace hentry, hread]

theorem load_save (h : save files path s = .ok exported) (hbounded : s.Bounded)
    (hstorable : s.Storable (Json.maxDepth - propertyLevel)) : load exported path = .ok s.reread := by
  rw [(read_of_save h).2, read_write hbounded hstorable]

/-- A snapshot is saved wherever a file can be written, and what its file is read as is the snapshot
itself, unless the document nests too deep to be read at all. Another snapshot has another file. -/
theorem saved_exactly (hmade : s.WellMade) (hplain : s.Plain) :
    (∀ files path content written, FileTree.write files path content = .ok written →
      ∃ exported, save files path s = .ok exported) ∧
    (∀ files path exported, save files path s = .ok exported →
      load exported path =
        if s.toJson.depth ≤ Json.maxDepth then .ok s
        else .error (.serialization "not a graph snapshot")) ∧
    ∀ s' : Snapshot, s'.Plain → s ≠ s' → ∀ files path exported files' path' exported',
      save files path s = .ok exported → save files' path' s' = .ok exported' →
      exported.read path ≠ exported'.read path' := by
  refine ⟨?_, ?_, ?_⟩
  · intro files path content written hwrite
    obtain ⟨exported, hsave⟩ := FileTree.exists_put_of_put hwrite (.file (.ofString s.write))
    exact ⟨exported, congrArg (Except.mapError StoreError.io) hsave⟩
  · intro files path exported hsave
    rw [(read_of_save hsave).2, read_write_of_plain hmade hplain]
  · intro s' hplain' hne files path exported files' path' exported' hsave hsave' hread
    rw [(read_of_save hsave).1, (read_of_save hsave').1] at hread
    exact hne (eq_of_write_eq hplain hplain' (Except.ok.inj hread))

def oddities : Snapshot :=
  ⟨[⟨7, "say \"no\" \\ yes", ["\x00\x1f\n", "é𝄞"],
        [("", .null), ("line", .arr [.int 18446744073709551615, .int (-9223372036854775808), .obj []]),
          ("ключ", .str "\t\x7f/")]⟩,
      ⟨7, "", [], []⟩],
    [⟨-9223372036854775808, 9223372036854775807, .other "POST_DOM"⟩, ⟨7, 1, .reaches⟩]⟩

def nested : Nat → Json
  | 0 => .null
  | levels + 1 => .arr [nested levels]

def buried (levels : Nat) : Snapshot := ⟨[⟨1, "Condition", [], [("code", nested levels)]⟩], []⟩

theorem nested_spec (levels : Nat) :
    (nested levels).WellMade ∧ (nested levels).NoReal ∧ (nested levels).depth = levels := by
  induction levels with
  | zero => exact ⟨trivial, trivial, rfl⟩
  | succ levels ih =>
    obtain ⟨hmade, hreal, hdepth⟩ := ih
    exact ⟨⟨hmade, trivial⟩, ⟨hreal, trivial⟩, by simp [nested, Json.depth, Json.depthItems, hdepth]⟩

theorem buried_wellMade (levels : Nat) : (buried levels).WellMade where
  node := by simp [buried, IsId]
  source := by simp [buried]
  target := by simp [buried]
  properties := by
    simp [buried, Json.WellMade, Json.WellMadeFields, Json.Ascending, (nested_spec levels).1]

theorem buried_plain (levels : Nat) : (buried levels).Plain where
  kind := by simp [buried]
  noReal := by simp [buried, Json.NoReal, Json.NoRealFields, (nested_spec levels).2.1]

theorem depth_buried (levels : Nat) :
    (buried levels).toJson.depth ≤ Json.maxDepth ↔ levels < 124 := by
  have hlimit : 0 < Json.maxDepth - propertyLevel := by decide
  have hdepth : (Json.obj [("code", nested levels)]).depth = levels + 1 := by
    simp [Json.depth, Json.depthFields, (nested_spec levels).2.2]
  calc (buried levels).toJson.depth ≤ Json.maxDepth
      ↔ (Json.obj [("code", nested levels)]).depth ≤ 124 :=
        (depth_toJson_le hlimit).trans (by simp [buried, Json.maxDepth, propertyLevel])
    _ ↔ levels < 124 := by rw [hdepth, Nat.succ_le_iff]

theorem oddities_wellMade : oddities.WellMade where
  node := by simp [oddities, IsId]
  source := by simp [oddities, IsId]
  target := by simp [oddities, IsId]
  properties := by
    have hnames : Json.Ascending oddities.nodes[0].properties := by
      unfold Json.Ascending
      decide
    simp only [oddities, List.forall_mem_cons, List.not_mem_nil, false_implies, implies_true, and_true]
    exact ⟨⟨hnames, by simp [Json.WellMade, Json.WellMadeFields, Json.WellMadeItems, Json.IsWhole,
      Json.Ascending]⟩, List.Pairwise.nil, trivial⟩

theorem oddities_plain : oddities.Plain where
  kind := by
    simp only [oddities, List.forall_mem_cons, List.not_mem_nil, false_implies, implies_true, and_true]
    exact ⟨⟨"POST_DOM", by decide⟩, "REACHES", by decide⟩
  noReal := by simp [oddities, Json.NoReal, Json.NoRealFields, Json.NoRealItems]

theorem saved_exactly_oddities :
    ∃ exported full tooDeep, save {} "g.json" oddities = .ok exported ∧
      load exported "g.json" = .ok oddities ∧
      save {} "g.json" (buried 123) = .ok full ∧ load full "g.json" = .ok (buried 123) ∧
      save {} "g.json" (buried 124) = .ok tooDeep ∧
      load tooDeep "g.json" = .error (.serialization "not a graph snapshot") ∧
      exported.read "g.json" ≠ full.read "g.json" := by
  have hwrite : FileTree.write {} "g.json" [] = .ok ⟨[(["g.json"], .file [])]⟩ := rfl
  have hne : oddities ≠ buried 123 := by simp [oddities, buried]
  obtain ⟨hsaves, hloads, hdiffers⟩ := saved_exactly oddities_wellMade oddities_plain
  obtain ⟨hsavesFull, hloadsFull, -⟩ := saved_exactly (buried_wellMade 123) (buried_plain 123)
  obtain ⟨hsavesDeep, hloadsDeep, -⟩ := saved_exactly (buried_wellMade 124) (buried_plain 124)
  obtain ⟨exported, hexported⟩ := hsaves _ _ _ _ hwrite
  obtain ⟨full, hfull⟩ := hsavesFull _ _ _ _ hwrite
  obtain ⟨tooDeep, htooDeep⟩ := hsavesDeep _ _ _ _ hwrite
  refine ⟨exported, full, tooDeep, hexported, ?_, hfull, ?_, htooDeep, ?_,
    hdiffers _ (buried_plain 123) hne _ _ _ _ _ _ hexported hfull⟩
  · rw [hloads _ _ _ hexported, if_pos (by decide)]
  · rw [hloadsFull _ _ _ hfull, if_pos ((depth_buried 123).mpr (by decide))]
  · rw [hloadsDeep _ _ _ htooDeep, if_neg ((depth_buried 124).not.mpr (by decide))]

end Snapshot

end FlowTally
