import FlowTally.Files
import FlowTally.Graph.Database

/-!
# Graph stores

A store is an open graph database, either in a file or in memory. All stores of
one file see the same content. A store opened for an existing file only reads.
-/

namespace FlowTally

inductive Store where
  | file (path : String) (readOnly : Bool)
  | memory (db : Database)
deriving DecidableEq, Repr, Inhabited

namespace Store

/-- The database in the entry of a path; an empty file is a database without tables. -/
def database? : Entry → Option Database
  | .database db => some db
  | .file [] => some {}
  | _ => none

def cannotOpen (path : String) : StoreError := .connection s!"cannot open graph database {path}"

/-- Opens or creates a file for writing and creates the tables that are missing. -/
def openFile (files : FileTree) (path : String) : Except StoreError (Store × FileTree) :=
  let create (db : Database) : Except StoreError (Store × FileTree) :=
    match files.put path (.database db.withTables) with
    | .ok files => .ok (.file path false, files)
    | .error _ => .error (cannotOpen path)
  match files.find path with
  | .error _ => create {}
  | .ok .directory => .error (cannotOpen path)
  | .ok entry =>
    match database? entry with
    | some db => create db
    | none => .error (.database "file is not a database")

/-- Opens a file with a graph for reading. -/
def openExisting (files : FileTree) (path : String) : Except StoreError Store :=
  match files.find path with
  | .error _ | .ok .directory => .error (cannotOpen path)
  | .ok entry =>
    match (database? entry).bind (·.nodes) with
    | some _ => .ok (.file path true)
    | none => .error (.connection s!"{path} is not a graph database")

def openMemory : Store := .memory .empty

def database (files : FileTree) : Store → Except StoreError Database
  | .memory db => .ok db
  | .file path _ =>
    match files.find path with
    | .error _ => .error (cannotOpen path)
    | .ok entry =>
      match database? entry with
      | some db => .ok db
      | none => .error (.database "file is not a database")

def save (files : FileTree) (store : Store) (s : Snapshot) :
    Except StoreError (Store × FileTree) :=
  (store.database files).bind fun db =>
    match store with
    | .memory _ => (db.save s).map fun db => (.memory db, files)
    | .file _ true =>
      if db.edges.isNone then .error (Database.noTable "edges")
      else .error (.database "attempt to write a readonly database")
    | .file path false =>
      (db.save s).bind fun db =>
        match files.put path (.database db) with
        | .ok files => .ok (store, files)
        | .error _ => .error (cannotOpen path)

def load (files : FileTree) (store : Store) : Except StoreError Snapshot :=
  (store.database files).bind Database.load

def loadGraph (files : FileTree) (store : Store) : Except StoreError Graph :=
  (store.load files).bind Graph.ofSnapshot

end Store

end FlowTally
