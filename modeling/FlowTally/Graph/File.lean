import FlowTally.Files
import FlowTally.Graph.Text

/-!
# Graph export files

A file that cannot be opened makes the store unreachable; one that can be
opened but not read as a snapshot is a fault of its content.
-/

namespace FlowTally.Snapshot

def load (files : FileTree) (path : String) : Except StoreError Snapshot :=
  match files.find path with
  | .error _ => .error (.connection s!"cannot open graph export {path}")
  | .ok _ =>
    match files.read path with
    | .error fault => .error (.serialization fault.message)
    | .ok content => read content

def save (files : FileTree) (path : String) (s : Snapshot) : Except StoreError FileTree :=
  (files.write path (.ofString s.write)).mapError .io

end FlowTally.Snapshot

namespace FlowTally.Graph

def load (files : FileTree) (path : String) : Except StoreError Graph :=
  (Snapshot.load files path).bind ofSnapshot

end FlowTally.Graph
