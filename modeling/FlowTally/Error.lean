/-!
# Errors

Every failure of a run is either *recoverable*, when one query failed and
counts as an empty answer, or *fatal*, when the run ends and nothing is
published. Configuration, graph stores and sample sources have errors of their
own, which a run takes over with their text.
-/

namespace FlowTally

inductive IoFault where
  | notFound
  | alreadyExists
  | notDirectory
  | isDirectory
  | notEmpty
  | notText
  | other (text : String)
deriving DecidableEq, Repr, Inhabited

def IoFault.message : IoFault → String
  | .notFound => "No such file or directory (os error 2)"
  | .alreadyExists => "File exists (os error 17)"
  | .notDirectory => "Not a directory (os error 20)"
  | .isDirectory => "Is a directory (os error 21)"
  | .notEmpty => "Directory not empty (os error 39)"
  | .notText => "stream did not contain valid UTF-8"
  | .other text => text

inductive ConfigError where
  | range (field : String) (value least most : Int) (hint : String)
  | badPattern (field pattern reason : String)
  | missingVersion
  | unsupportedVersion (found : Nat) (supported : List Nat)
  | io (fault : IoFault)
  | yaml (reason : String)
  | rule (text : String)
deriving DecidableEq, Repr, Inhabited

def ConfigError.message : ConfigError → String
  | .range field value least most hint =>
    s!"Invalid range for field '{field}': {value} not in {least}..={most}. {hint}"
  | .badPattern field pattern reason =>
    s!"Invalid pattern for field '{field}': '{pattern}' ({reason})"
  | .missingVersion =>
    "Missing 'version' field in configuration file. Add 'version: 1' to the top of your YAML file."
  | .unsupportedVersion found supported =>
    let list := ", ".intercalate (supported.map toString)
    s!"Unsupported configuration version {found}. Supported versions: {list}"
  | .io fault => s!"IO error: {fault.message}"
  | .yaml reason => s!"YAML parsing error: {reason}"
  | .rule text => s!"Validation error: {text}"

inductive StoreErrorKind where
  | connection
  | database
  | serialization
  | nodeNotFound
  | invalidGraph
  | io
deriving DecidableEq, Repr, Inhabited

def StoreErrorKind.name : StoreErrorKind → String
  | .connection => "connection"
  | .database => "database"
  | .serialization => "serialization"
  | .nodeNotFound => "node_not_found"
  | .invalidGraph => "invalid_graph"
  | .io => "io"

structure StoreError where
  kind : StoreErrorKind
  text : String
deriving DecidableEq, Repr, Inhabited

namespace StoreError

def message (e : StoreError) : String := s!"[{e.kind.name}] {e.text}"

/-- The store itself is unusable, as opposed to a single bad query. -/
def isConnection (e : StoreError) : Bool := e.kind == .connection

def connection (text : String) : StoreError := ⟨.connection, text⟩
def database (text : String) : StoreError := ⟨.database, s!"SQLite error: {text}"⟩
def serialization (reason : String) : StoreError := ⟨.serialization, s!"JSON error: {reason}"⟩
def nodeNotFound (id : Int) : StoreError := ⟨.nodeNotFound, s!"Node not found: {id}"⟩
def invalidGraph (text : String) : StoreError := ⟨.invalidGraph, text⟩
def io (fault : IoFault) : StoreError := ⟨.io, s!"IO error: {fault.message}"⟩

end StoreError

inductive SourceError where
  | connection (text : String)
  | query (text : String)
deriving DecidableEq, Repr, Inhabited

def SourceError.message : SourceError → String
  | .connection text => s!"connection failed: {text}"
  | .query text => s!"query failed: {text}"

/-- A store that is out of reach makes its source so; any other failure is one of the question. -/
def SourceError.ofStore (e : StoreError) : SourceError :=
  if e.isConnection then .connection e.message else .query e.message

inductive Severity where
  | recoverable
  | fatal
deriving DecidableEq, Repr, Inhabited

def Severity.name : Severity → String
  | .recoverable => "recoverable"
  | .fatal => "fatal"

inductive RunError where
  | connection (text : String)
  | query (scope text : String)
  | consistency (text : String)
  | publish (text : String)
  | config (error : ConfigError)
  | transition (source target : String)
  | parse (text : String)
  | io (fault : IoFault)
deriving DecidableEq, Repr, Inhabited

namespace RunError

def message : RunError → String
  | .connection text => s!"Connection failure: {text}"
  | .query scope text => s!"Query failure ({scope}): {text}"
  | .consistency text => s!"Consistency violation: {text}"
  | .publish text => s!"Export failure: {text}"
  | .config error => s!"Configuration error: {error.message}"
  | .transition source target => s!"Invalid state transition: {source} -> {target}"
  | .parse text => s!"Parse error: {text}"
  | .io fault => s!"IO error: {fault.message}"

def severity : RunError → Severity
  | .query .. => .recoverable
  | _ => .fatal

def ofSource (scope : String) : SourceError → RunError
  | .connection text => .connection text
  | .query text => .query scope text

end RunError

end FlowTally
