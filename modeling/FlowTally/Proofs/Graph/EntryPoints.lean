import FlowTally.Proofs.Graph.Built
import Mathlib.Data.List.Permutation

/-!
# Sample directories and their entry points

What `directories` and `entryPoints` list, said of nodes and edges instead of
searches: `mem_directories` and `entryPoints_ok`. A node of the graph is never
refused, and an entry that several functions lead to is listed once.
-/

namespace FlowTally.Graph

structure IsSampleDirectory (g : Graph) (selects : String → Bool) (node : Node) (path : String) :
    Prop where
  present : node ∈ g.nodes
  directory : node.type = directoryType
  named : node.text? pathProperty = some path
  selected : selects path = true

/-- The entry of a function in a file of the directory; the code of the function is not listed. -/
def IsEntryPoint (g : Graph) (directory : Int) (skipped : List String) (entry : Int) : Prop :=
  ∃ file ∈ g.nodes, ∃ function ∈ g.nodes, ∃ node ∈ g.nodes,
    file.type = fileType ∧ ⟨directory, file.id, .isParentDirOf⟩ ∈ g.edges ∧
    function.type = functionType ∧ ⟨file.id, function.id, .isFileOf⟩ ∈ g.edges ∧
    (∀ code, function.text? codeProperty = some code → code ∉ skipped) ∧
    node.type = entryType ∧ ⟨function.id, node.id, .isFunctionOfCfg⟩ ∈ g.edges ∧ node.id = entry

variable {g : Graph} {selects : String → Bool} {skipped : List String} {node : Node}
  {directory id entry t : Int} {path type : String} {kind : EdgeKind}

-- ---------------------------------------------------------------------------
-- Directories
-- ---------------------------------------------------------------------------

def selected? (selects : String → Bool) (node : Node) : Option (String × Int) :=
  if node.type == directoryType then
    match node.text? pathProperty with
    | some path => if selects path then some (path, node.id) else none
    | none => none
  else none

theorem directories_eq :
    g.directories selects = (g.nodes.filterMap (selected? selects)).mergeSort directoryLe :=
  rfl

theorem selected?_eq_some :
    selected? selects node = some (path, id) ↔
      (node.type = directoryType ∧ node.text? pathProperty = some path ∧ selects path = true) ∧
        node.id = id := by
  unfold selected?
  constructor
  · intro h
    split at h
    · rename_i htype
      split at h
      · rename_i found hpath
        split at h
        · rename_i hselects
          cases h
          exact ⟨⟨by simpa using htype, hpath, hselects⟩, rfl⟩
        · cases h
      · cases h
    · cases h
  · rintro ⟨⟨htype, hpath, hselects⟩, rfl⟩
    simp [htype, hpath, hselects]

theorem mem_directories :
    (path, id) ∈ g.directories selects ↔
      ∃ node, g.IsSampleDirectory selects node path ∧ node.id = id := by
  simp only [directories_eq, List.mem_mergeSort, List.mem_filterMap, selected?_eq_some]
  constructor
  · rintro ⟨node, hm, ⟨htype, hpath, hselects⟩, hid⟩
    exact ⟨node, ⟨hm, htype, hpath, hselects⟩, hid⟩
  · rintro ⟨node, ⟨hm, htype, hpath, hselects⟩, hid⟩
    exact ⟨node, hm, ⟨htype, hpath, hselects⟩, hid⟩

theorem nodup_directories (hg : g.WellFormed) (selects : String → Bool) :
    (g.directories selects).Nodup := by
  rw [directories_eq, (List.mergeSort_perm ..).nodup_iff]
  refine List.pairwise_filterMap.mpr ((List.pairwise_map.mp hg.distinct).imp ?_)
  rintro a b hne ⟨path, id⟩ ha ⟨path', id'⟩ hb hab
  cases hab
  exact hne ((selected?_eq_some.mp ha).2.trans (selected?_eq_some.mp hb).2.symm)

-- ---------------------------------------------------------------------------
-- Entry points
-- ---------------------------------------------------------------------------

theorem mem_successors_edge : t ∈ g.successors id kind ↔ ⟨id, t, kind⟩ ∈ g.edges := by
  rw [mem_successors]
  constructor
  · rintro ⟨edge, he, rfl, rfl, rfl⟩
    exact he
  · intro he
    exact ⟨_, he, rfl, rfl, rfl⟩

theorem hasType_iff (hg : g.WellFormed) :
    g.hasType type id = true ↔ ∃ node ∈ g.nodes, node.id = id ∧ node.type = type := by
  simp only [hasType, Option.any_eq_true, node?_eq_some hg, beq_iff_eq, and_assoc]

theorem isSkipped_eq_false (hg : g.WellFormed) (hm : node ∈ g.nodes) :
    g.isSkipped skipped node.id = false ↔
      ∀ code, node.text? codeProperty = some code → code ∉ skipped := by
  have hnode : g.node? node.id = some node := (node?_eq_some hg).mpr ⟨hm, rfl⟩
  simp only [isSkipped, hnode, Option.bind_some, Option.any_eq_false, List.contains_eq_mem,
    decide_eq_false_iff_not]

theorem entryPoints_ok (hg : g.WellFormed) (hnode : g.hasNode directory = true)
    (skipped : List String) :
    ∃ ids, g.entryPoints directory skipped = .ok ids ∧ ids.Pairwise (· < ·) ∧
      ∀ entry, entry ∈ ids ↔ g.IsEntryPoint directory skipped entry := by
  rw [entryPoints, require, if_pos hnode]
  refine ⟨_, rfl, pairwise_sortIds _, fun entry => ?_⟩
  simp only [mem_sortIds, List.mem_filter, List.mem_flatMap, mem_successors_edge, hasType_iff hg,
    Bool.and_eq_true, Bool.not_eq_true']
  constructor
  · rintro ⟨⟨_, ⟨⟨_, ⟨hfile, file, hf, rfl, hft⟩, hfunction⟩, ⟨function, hm, rfl, hmt⟩, hskip⟩,
      hentry⟩, node, hn, rfl, hnt⟩
    exact ⟨file, hf, function, hm, node, hn, hft, hfile, hmt, hfunction,
      (isSkipped_eq_false hg hm).mp hskip, hnt, hentry, rfl⟩
  · rintro ⟨file, hf, function, hm, node, hn, hft, hfile, hmt, hfunction, hskip, hnt, hentry, rfl⟩
    exact ⟨⟨function.id, ⟨⟨file.id, ⟨hfile, file, hf, rfl, hft⟩, hfunction⟩,
      ⟨function, hm, rfl, hmt⟩, (isSkipped_eq_false hg hm).mpr hskip⟩, hentry⟩, node, hn, rfl, hnt⟩

/-- A question about what is no node fails. The answer for a node are the entries of the functions in
its files, listed functions left out, each once and in ascending order. -/
theorem entryPoints_answers (hg : g.Built) (directory : Int) (skipped : List String) :
    ((∃ e, g.entryPoints directory skipped = .error e) ↔ ∀ node ∈ g.nodes, node.id ≠ directory) ∧
      ∀ ids, g.entryPoints directory skipped = .ok ids ↔
        (∃ node ∈ g.nodes, node.id = directory) ∧ ids.Pairwise (· < ·) ∧
          ∀ entry, entry ∈ ids ↔ g.IsEntryPoint directory skipped entry := by
  refine ⟨require_map_error, fun ids => ⟨fun h => ?_, ?_⟩⟩
  · obtain ⟨hnode, -⟩ := require_map_ok.mp h
    obtain ⟨ids', hids, hsorted, hmem⟩ := entryPoints_ok hg.wellFormed (exists_node.mp hnode) skipped
    obtain rfl : ids' = ids := Except.ok.inj (hids.symm.trans h)
    exact ⟨hnode, hsorted, hmem⟩
  · rintro ⟨hnode, hsorted, hmem⟩
    obtain ⟨ids', hids, hsorted', hmem'⟩ :=
      entryPoints_ok hg.wellFormed (exists_node.mp hnode) skipped
    rw [hids, hsorted.eq_of_mem_iff hsorted' fun entry => (hmem entry).trans (hmem' entry).symm]

def sharedEntries : Graph where
  nodes := [{ id := 1, type := "Directory" }, { id := 2, type := "File" }, { id := 3, type := "File" },
    { id := 4, type := "Function", properties := [("code", .str "main")] },
    { id := 5, type := "Function", properties := [("code", .str "good1")] },
    { id := 6, type := "Function", properties := [("code", .int 7)] },
    { id := 9, type := "CFGEntryNode" }, { id := 8, type := "CFGEntryNode" },
    { id := 7, type := "CFGEntryNode" }]
  edges := [⟨1, 2, .isParentDirOf⟩, ⟨1, 3, .isParentDirOf⟩, ⟨2, 4, .isFileOf⟩, ⟨2, 5, .isFileOf⟩,
    ⟨3, 5, .isFileOf⟩, ⟨3, 6, .isFileOf⟩, ⟨4, 9, .isFunctionOfCfg⟩, ⟨5, 9, .isFunctionOfCfg⟩,
    ⟨6, 8, .isFunctionOfCfg⟩, ⟨4, 7, .isFunctionOfCfg⟩]

theorem entryPoints_answers_sharedEntries :
    sharedEntries.Built ∧ (∃ e, sharedEntries.entryPoints 404 ["main"] = .error e) ∧
      sharedEntries.entryPoints 1 ["main"] = .ok [8, 9] ∧
      sharedEntries.IsEntryPoint 1 ["main"] 9 ∧ ¬ sharedEntries.IsEntryPoint 1 ["main"] 7 := by
  have hb : sharedEntries.Built :=
    built_of_ofSnapshot (s := ⟨sharedEntries.nodes, sharedEntries.edges⟩) rfl
  have hids : sharedEntries.entryPoints 1 ["main"] = .ok [8, 9] := by cbv
  have hmem := (((entryPoints_answers hb 1 ["main"]).2 _).mp hids).2.2
  exact ⟨hb, (entryPoints_answers hb 404 ["main"]).1.mpr (by decide), hids, (hmem 9).mp (by decide),
    fun h => absurd ((hmem 7).mpr h) (by decide)⟩

end FlowTally.Graph
