import FlowTally.Graph.Database
import FlowTally.Text.Content

/-!
# File trees

A tree maps places, given by the names from the root downwards, to entries. The
root itself is always a directory. Operations take path texts: names separated
by slashes, with `.` and `..` for a directory and its parent. An operation that
fails changes nothing.
-/

namespace FlowTally

inductive Entry where
  | directory
  | file (content : Content)
  | database (db : Database)
deriving DecidableEq, Repr, Inhabited

/-- Names from the root downwards. -/
abbrev Place := List String

structure FileTree where
  entries : List (Place × Entry) := []
deriving DecidableEq, Repr, Inhabited

namespace FileTree

/-- Names of a path. An end in a slash asks for a directory. -/
def names (path : String) : List String :=
  let parts := (path.toList.splitOn '/').map String.ofList
  let inner := parts.filter (· != "")
  if parts.length > 1 ∧ parts.getLast? = some "" then inner ++ ["."] else inner

def join (directory name : String) : String :=
  if name.startsWith "/" then name
  else if directory = "" ∨ directory.endsWith "/" then directory ++ name
  else directory ++ "/" ++ name

def entry? (t : FileTree) (place : Place) : Option Entry :=
  if place = [] then some .directory
  else (t.entries.find? fun entry => entry.1 == place).map (·.2)

def set (t : FileTree) (place : Place) (entry : Entry) : FileTree :=
  ⟨(place, entry) :: t.entries.filter fun other => other.1 != place⟩

def erase (t : FileTree) (place : Place) : FileTree :=
  ⟨t.entries.filter fun other => !place.isPrefixOf other.1⟩

/-- Follows names from a place; every place that is passed has to be a directory. -/
def walk (t : FileTree) (at' : Place) : List String → Except IoFault Place
  | [] => .ok at'
  | name :: rest =>
    match t.entry? at' with
    | none => .error .notFound
    | some .directory =>
      if name = "." then walk t at' rest
      else if name = ".." then walk t at'.dropLast rest
      else walk t (at' ++ [name]) rest
    | some _ => .error .notDirectory

def place (t : FileTree) (path : String) : Except IoFault Place :=
  if path = "" then .error .notFound else t.walk [] (names path)

def find (t : FileTree) (path : String) : Except IoFault Entry :=
  (t.place path).bind fun place =>
    match t.entry? place with
    | some entry => .ok entry
    | none => .error .notFound

def exists? (t : FileTree) (path : String) : Bool := (t.find path).toOption.isSome

def databaseMark : Content := .ofString "SQLite format 3\x00"

def read (t : FileTree) (path : String) : Except IoFault Content :=
  (t.find path).bind fun
    | .file content => .ok content
    | .database _ => .ok databaseMark
    | .directory => .error .isDirectory

/-- Puts an entry that is not a directory in an existing directory. -/
def put (t : FileTree) (path : String) (entry : Entry) : Except IoFault FileTree :=
  (t.place path).bind fun place =>
    match t.entry? place.dropLast, t.entry? place with
    | none, _ => .error .notFound
    | some .directory, some .directory => .error .isDirectory
    | some .directory, _ => .ok (t.set place entry)
    | some _, _ => .error .notDirectory

def write (t : FileTree) (path : String) (content : Content) : Except IoFault FileTree :=
  t.put path (.file content)

def makeDirectory (t : FileTree) (path : String) : Except IoFault FileTree :=
  (t.place path).bind fun place =>
    match t.entry? place.dropLast, t.entry? place with
    | none, _ => .error .notFound
    | some .directory, some _ => .error .alreadyExists
    | some .directory, none => .ok (t.set place .directory)
    | some _, _ => .error .notDirectory

def makeAll (t : FileTree) (at' : Place) : List String → Except IoFault FileTree
  | [] => .ok t
  | name :: rest =>
    if name = "." then makeAll t at' rest
    else if name = ".." then makeAll t at'.dropLast rest
    else
      let next := at' ++ [name]
      match t.entry? next with
      | none => makeAll (t.set next .directory) next rest
      | some .directory => makeAll t next rest
      | some _ => .error (if rest = [] then .alreadyExists else .notDirectory)

def makeDirectories (t : FileTree) (path : String) : Except IoFault FileTree :=
  t.makeAll [] (names path)

def removeFile (t : FileTree) (path : String) : Except IoFault FileTree :=
  (t.place path).bind fun place =>
    match t.entry? place with
    | none => .error .notFound
    | some .directory => .error .isDirectory
    | some _ => .ok (t.erase place)

def removeAll (t : FileTree) (path : String) : Except IoFault FileTree :=
  (t.place path).bind fun place =>
    match t.entry? place with
    | none => .error .notFound
    | some _ => .ok (t.erase place)

/-- Moves a file; a file at the target is replaced. -/
def rename (t : FileTree) (source target : String) : Except IoFault FileTree :=
  (t.place source).bind fun from' =>
    match t.entry? from' with
    | none => .error .notFound
    | some .directory => .error .isDirectory
    | some entry => (t.put target entry).map fun t => t.erase from'

def children (t : FileTree) (place : Place) : List String :=
  let found := t.entries.filterMap fun (other, _) =>
    if other.dropLast = place ∧ other ≠ [] then other.getLast? else none
  found.mergeSort fun a b => decide (a ≤ b)

def listing (t : FileTree) (place : Place) (shown : String) : Nat → List String
  | 0 => []
  | fuel + 1 =>
    (t.children place).flatMap fun name =>
      let next := place ++ [name]
      if t.entry? next = some .directory then
        (shown ++ name ++ "/") :: listing t next (shown ++ name ++ "/") fuel
      else [shown ++ name]

def tree (t : FileTree) (path : String) : List String :=
  match t.place path with
  | .ok place => t.listing place "" (t.entries.length + 1)
  | .error _ => []

end FileTree

end FlowTally
