import FlowTally.Graph.Store
import FlowTally.Proofs.Files.Operations
import FlowTally.Proofs.Graph.Database
import Mathlib

/-!
# Histories of a store

A history saves snapshots in one store that may be closed and opened again in
between. Whatever is saved, the store holds (`Holds`) the rows of the last
snapshot that fitted together: a step keeps this (`Holds.step`), and so does
every history (`Holds.run`). `history_faithful` says what can be seen of it.
-/

namespace FlowTally.Store

inductive Step where
  | save (s : Snapshot)
  | reopen

/-- The store and the files around it after a step. A refused save is rolled back; a store in memory
is never closed. -/
def step (now : Store × FileTree) : Step → Except StoreError (Store × FileTree)
  | .save s =>
    match now.1.save now.2 s with
    | .ok next => .ok next
    | .error _ => .ok now
  | .reopen =>
    match now.1 with
    | .file path _ => openFile now.2 path
    | .memory _ => .ok now

def run (now : Store × FileTree) : List Step → Except StoreError (Store × FileTree)
  | [] => .ok now
  | what :: rest => (step now what).bind (run · rest)

inductive Fresh : Store × FileTree → Prop
  | memory (files : FileTree) : Fresh (openMemory, files)
  | file (hempty : ∀ entry db, files.find path = .ok entry → database? entry = some db →
      db.withTables = .empty) (hopen : openFile files path = .ok now) : Fresh now

/-- The last snapshot of a history that fits together, or an earlier one. -/
def lastFitting (earlier : Snapshot) : List Step → Snapshot
  | [] => earlier
  | .save s :: rest => lastFitting (if s.Fits then s else earlier) rest
  | .reopen :: rest => lastFitting earlier rest

/-- The store can be written, and this database is behind it. -/
inductive Holds : Store × FileTree → Database → Prop
  | memory (db : Database) (files : FileTree) : Holds (.memory db, files) db
  | file (hplace : files.place path = .ok place)
      (hentry : files.entry? place = some (.database db)) : Holds (.file path false, files) db

variable {files files' : FileTree} {path : String} {place : Place} {now first next : Store × FileTree}
  {s s' : Snapshot} {db db' : Database} {steps : List Step}

-- ---------------------------------------------------------------------------
-- Files
-- ---------------------------------------------------------------------------

theorem holds_of_put (h : files.put path (.database db) = .ok files') :
    Holds (.file path false, files') db := by
  obtain ⟨place, hplace, hentry⟩ := FileTree.entry_of_put h
  exact .file hplace hentry

/-- A file that is opened holds what was in it, with both tables. -/
theorem openFile_ok (h : openFile files path = .ok now) :
    ∃ files' db, now = (.file path false, files') ∧ Holds now db.withTables ∧
      (db = {} ∨ ∃ entry, files.find path = .ok entry ∧ database? entry = some db) := by
  simp only [openFile] at h
  split at h
  · split at h
    · rename_i files' hput
      cases h
      exact ⟨files', {}, rfl, holds_of_put hput, .inl rfl⟩
    · cases h
  · cases h
  · rename_i entry _ hfind
    split at h
    · rename_i db hdb
      split at h
      · rename_i files' hput
        cases h
        exact ⟨files', db, rfl, holds_of_put hput, .inr ⟨entry, hfind, hdb⟩⟩
      · cases h
    · cases h

theorem Fresh.holds (h : Fresh now) : Holds now (.ofSnapshot {}) := by
  cases h with
  | memory files => exact .memory .empty files
  | file hempty hopen =>
    obtain ⟨files', db, -, hholds, rfl | ⟨entry, hfind, hdb⟩⟩ := openFile_ok hopen
    · exact hholds
    · rwa [hempty entry db hfind hdb] at hholds

-- ---------------------------------------------------------------------------
-- Steps
-- ---------------------------------------------------------------------------

theorem Holds.database (h : Holds now db) : now.1.database now.2 = .ok db := by
  cases h with
  | memory => rfl
  | file hplace hentry => simp [Store.database, FileTree.find_of_entry hplace hentry, database?]

theorem Holds.saveFile (h : Holds (.file path false, files) db) (htables : db.withTables = db)
    (hfits : s.Fits) :
    ∃ files', save files (.file path false) s = .ok (.file path false, files') ∧
      Holds (.file path false, files') (.ofSnapshot s) := by
  have hsave : db.save s = .ok (.ofSnapshot s) := (Database.save_ok htables).mpr ⟨hfits, rfl⟩
  have hdatabase : Store.database files (.file path false) = .ok db := h.database
  obtain ⟨files', hput⟩ : ∃ files', files.put path (.database (.ofSnapshot s)) = .ok files' := by
    cases h with
    | file hplace hentry => exact FileTree.exists_put hplace hentry nofun _
  exact ⟨files', by simp [Store.save, hdatabase, hsave, hput, Except.bind], holds_of_put hput⟩

theorem Holds.save (h : Holds now db) (htables : db.withTables = db) (hfits : s.Fits) :
    ∃ next, now.1.save now.2 s = .ok next ∧ Holds next (.ofSnapshot s) := by
  cases h with
  | memory db files =>
    have hsave : db.save s = .ok (.ofSnapshot s) := (Database.save_ok htables).mpr ⟨hfits, rfl⟩
    exact ⟨_, by simp [Store.save, Store.database, hsave, Except.bind, Except.map], .memory _ files⟩
  | file hplace hentry =>
    obtain ⟨files', hsave, hnext⟩ := (Holds.file hplace hentry).saveFile htables hfits
    exact ⟨_, hsave, hnext⟩

theorem Holds.fits_of_save (h : Holds now db) (htables : db.withTables = db)
    (hsave : now.1.save now.2 s = .ok next) : s.Fits := by
  have hdatabase := h.database
  cases h with
  | memory =>
    simp only [Store.save, hdatabase, Except.bind] at hsave
    obtain ⟨db, hdb, -⟩ := map_ok.mp hsave
    exact ((Database.save_ok htables).mp hdb).1
  | file =>
    simp only [Store.save, hdatabase, Except.bind] at hsave
    obtain ⟨db, hdb, -⟩ := bind_ok.mp hsave
    exact ((Database.save_ok htables).mp hdb).1

theorem Holds.save_ok (h : Holds now db) (htables : db.withTables = db) :
    (∃ next, now.1.save now.2 s = .ok next) ↔ s.Fits := by
  constructor
  · rintro ⟨next, hsave⟩
    exact h.fits_of_save htables hsave
  · intro hfits
    obtain ⟨next, hsave, -⟩ := h.save htables hfits
    exact ⟨next, hsave⟩

theorem Holds.step_of_not_fits (h : Holds now db) (htables : db.withTables = db) (hfits : ¬ s.Fits) :
    Store.step now (.save s) = .ok now := by
  rw [Store.step]
  split
  · rename_i next hsave
    exact absurd (h.fits_of_save htables hsave) hfits
  · rfl

theorem Holds.reopen (h : Holds now db) (htables : db.withTables = db) :
    ∃ next, Store.step now .reopen = .ok next ∧ Holds next db := by
  cases h with
  | memory db files => exact ⟨_, rfl, .memory db files⟩
  | file hplace hentry =>
    obtain ⟨files', hput⟩ := FileTree.exists_put hplace hentry nofun (.database db)
    exact ⟨_, by simp [Store.step, openFile, FileTree.find_of_entry hplace hentry, database?, htables, hput],
      holds_of_put hput⟩

theorem Holds.step (h : Holds now (.ofSnapshot s)) (what : Step) :
    ∃ next, Store.step now what = .ok next ∧ Holds next (.ofSnapshot (lastFitting s [what])) := by
  cases what with
  | save s' =>
    rw [lastFitting, lastFitting]
    split
    · rename_i hfits
      obtain ⟨next, hsave, hnext⟩ := h.save rfl hfits
      exact ⟨next, by rw [Store.step, hsave], hnext⟩
    · rename_i hfits
      exact ⟨now, h.step_of_not_fits rfl hfits, h⟩
  | reopen => exact h.reopen rfl

theorem Holds.run (h : Holds first (.ofSnapshot s)) (steps : List Step) :
    ∃ now, Store.run first steps = .ok now ∧ Holds now (.ofSnapshot (lastFitting s steps)) := by
  induction steps generalizing first s with
  | nil => exact ⟨first, rfl, h⟩
  | cons what rest ih =>
    obtain ⟨next, hstep, hnext⟩ := h.step what
    obtain ⟨now, hrun, hnow⟩ := ih hnext
    refine ⟨now, ?_, ?_⟩
    · rw [Store.run, hstep]
      exact hrun
    · cases what <;> exact hnow

theorem run_append (first : Store × FileTree) (steps more : List Step) :
    run first (steps ++ more) = (run first steps).bind (run · more) := by
  induction steps generalizing first with
  | nil => rfl
  | cons what rest ih =>
    rw [List.cons_append, run, run]
    cases Store.step first what with
    | error e => rfl
    | ok next => exact ih next

-- ---------------------------------------------------------------------------
-- What is loaded
-- ---------------------------------------------------------------------------

/-- All stores over one file load the same. -/
theorem load_of_database {store : Store} (h : store.database files = .ok (.ofSnapshot s))
    (hs : s.Storable Json.maxDepth) : store.load files = .ok s.byId := by
  rw [Store.load, h]
  exact Database.load_ofSnapshot hs

theorem loadGraph_of_database {store : Store} (h : store.database files = .ok (.ofSnapshot s))
    (hs : s.Storable Json.maxDepth) (hfits : s.Fits) :
    store.loadGraph files = .ok ⟨s.byId.nodes, s.byId.edges⟩ := by
  rw [Store.loadGraph, load_of_database h hs]
  exact Graph.ofSnapshot_ok.mpr ⟨hfits.byId, rfl⟩

theorem Holds.openExisting (h : Holds (.file path false, files) (.ofSnapshot s)) :
    Store.openExisting files path = .ok (.file path true) := by
  cases h with
  | file hplace hentry =>
    simp [Store.openExisting, FileTree.find_of_entry hplace hentry, database?, Database.ofSnapshot]

theorem fits_lastFitting (h : s.Fits) (steps : List Step) : (lastFitting s steps).Fits := by
  induction steps generalizing s with
  | nil => exact h
  | cons what rest ih =>
    cases what with
    | save s' =>
      rw [lastFitting]
      split
      · exact ih ‹_›
      · exact ih h
    | reopen => exact ih h

/-- Whatever is saved, a save succeeds exactly when the snapshot fits together, which is what
`Graph.ofSnapshot` asks for; one that fails changes nothing; and the last snapshot that succeeded is
what is loaded, by its graph as well. -/
theorem history_faithful (h : Fresh first) (steps : List Step) :
    ∃ now, run first steps = .ok now ∧
      (∀ s, ((∃ next, now.1.save now.2 s = .ok next) ↔
          (s.nodes.map (·.id)).Nodup ∧ ∀ edge ∈ s.edges,
            edge.source ∈ s.nodes.map (·.id) ∧ edge.target ∈ s.nodes.map (·.id)) ∧
        ((∃ next, now.1.save now.2 s = .ok next) ↔ ∃ g, Graph.ofSnapshot s = .ok g) ∧
        ((∃ e, now.1.save now.2 s = .error e) → run first (steps ++ [.save s]) = .ok now)) ∧
      ((lastFitting {} steps).Storable Json.maxDepth →
        now.1.load now.2 = .ok (lastFitting {} steps).byId ∧
        now.1.loadGraph now.2 =
          .ok ⟨(lastFitting {} steps).byId.nodes, (lastFitting {} steps).byId.edges⟩) := by
  have hempty : Snapshot.Fits {} := by decide
  obtain ⟨now, hrun, hnow⟩ := h.holds.run steps
  refine ⟨now, hrun, fun s => ⟨?_, ?_, ?_⟩, fun hs => ⟨load_of_database hnow.database hs, ?_⟩⟩
  · rw [hnow.save_ok rfl]
    constructor
    · intro hfits
      exact ⟨hfits.distinct, fun edge he => ⟨hfits.source edge he, hfits.target edge he⟩⟩
    · rintro ⟨hdistinct, hends⟩
      exact ⟨hdistinct, fun edge he => (hends edge he).1, fun edge he => (hends edge he).2⟩
  · rw [hnow.save_ok rfl]
    simp [Graph.ofSnapshot_ok]
  · rintro ⟨e, hsave⟩
    have hfits : ¬ s.Fits := by
      intro hfits
      obtain ⟨next, hnext⟩ := (hnow.save_ok rfl).mpr hfits
      cases hsave.symm.trans hnext
    have hstep := hnow.step_of_not_fits rfl hfits
    rw [run_append, hrun]
    exact congrArg (Except.bind · (run · [])) hstep
  · exact loadGraph_of_database hnow.database hs (fits_lastFitting hempty steps)

def twoNodes : Snapshot :=
  ⟨[⟨2, "File", ["Source"], [("code", .arr [.int (-1), .str "a"])]⟩, ⟨1, "Directory", [], []⟩],
    [⟨1, 2, .other "REACHES"⟩]⟩

theorem history_faithful_twoNodes :
    ∃ first now, Fresh first ∧
      run first [.save twoNodes, .save ⟨twoNodes.nodes ++ twoNodes.nodes, []⟩, .reopen] = .ok now ∧
      (¬ ∃ next, now.1.save now.2 ⟨[], twoNodes.edges⟩ = .ok next) ∧
      now.1.loadGraph now.2 = .ok ⟨[⟨1, "Directory", [], []⟩,
        ⟨2, "File", ["Source"], [("code", .arr [.int (-1), .str "a"])]⟩], [⟨1, 2, .reaches⟩]⟩ := by
  have hopen : openFile {} "g.db" =
      .ok (.file "g.db" false, ⟨[(["g.db"], .database .empty)]⟩) := rfl
  have hempty : ∀ entry db, FileTree.find {} "g.db" = .ok entry → database? entry = some db →
      db.withTables = .empty := by
    intro entry db hfind
    cases hfind
  have hstorable : twoNodes.Storable Json.maxDepth := by
    simp [twoNodes, Snapshot.Storable, Json.Storable, Json.StorableFields, Json.StorableItems,
      Json.Ascending, Json.maxDepth, Json.IsWhole]
  obtain ⟨now, hrun, hsaves, hloads⟩ := history_faithful (.file hempty hopen)
    [.save twoNodes, .save ⟨twoNodes.nodes ++ twoNodes.nodes, []⟩, .reopen]
  refine ⟨_, now, .file hempty hopen, hrun, ?_, (hloads hstorable).2.trans ?_⟩
  · rw [(hsaves _).1]
    decide
  · cbv

end FlowTally.Store
