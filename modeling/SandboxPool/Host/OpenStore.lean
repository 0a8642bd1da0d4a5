import SandboxPool.Files
import SandboxPool.Host.TokenStore

/-!
# Opening and closing token stores

A store in memory begins empty. A database is opened at a path: a file that is not there is made,
an empty one becomes a database, and counts that a database holds are there again. An open
database keeps its rows to itself until it is closed.
-/

namespace SandboxPool

/-- Where counts are kept. -/
inductive StoreBackend where
  | memory
  | database
  deriving Repr, DecidableEq, Inhabited

namespace StoreBackend

/-- A backend in configuration. -/
def name : StoreBackend → String
  | memory => "memory"
  | database => "libsql"

/-- A backend in diagnostics. -/
def diagnostic : StoreBackend → String
  | memory => "Memory"
  | database => "Libsql"

end StoreBackend

/-- An open store, and the place of its file if it has one. -/
structure OpenStore where
  store : TokenStore
  place : Option Place
  deriving Inhabited

namespace OpenStore

/-- The path of a database that is never written to a file. -/
def throwaway : String := ":memory:"

/-- The fault of a database that can be neither opened nor made. -/
def unopenable (path : String) : StoreFault :=
  .databaseOpen path
    ("Failed to connect to database: `Unable to open connection to local database " ++ path ++
      ": 14`")

/-- The fault of a file that holds something else. -/
def foreign : StoreFault := .schema "SQLite failure: `file is not a database`"

/-- The rows of the database at the end of a path, and its place. A file of a single byte counts
as empty. -/
def rowsAt (fs : Files) (path : String) : Except StoreFault (ScopeTable × Place) :=
  match fs.resolve path with
  | .error _ => .error (unopenable path)
  | .ok place =>
    match fs.entry? place with
    | none => .ok ([], place)
    | some .directory => .error (unopenable path)
    | some (.file (.database rows)) => .ok (rows, place)
    | some (.file (.bytes data)) =>
      if data.length ≤ 1 then .ok ([], place) else .error foreign

/-- Opens a database. -/
def ofPath (path : String) (policy : TtlPolicy) (fs : Files) :
    Except StoreFault (OpenStore × Files) :=
  if path = throwaway ∨ path.isEmpty then .ok (⟨.database ⟨policy, []⟩, none⟩, fs)
  else
    match rowsAt fs path with
    | .error e => .error e
    | .ok (rows, place) =>
      .ok (⟨.database ⟨policy, rows⟩, some place⟩, fs.put place (.database rows))

/-- Opens a store. -/
def ofBackend (backend : StoreBackend) (path : String) (policy : TtlPolicy) (fs : Files) :
    Except StoreFault (OpenStore × Files) :=
  match backend with
  | .memory => .ok (⟨.inMemory (.empty policy), none⟩, fs)
  | .database => ofPath path policy fs

/-- The events of opening a store. -/
def events (backend : StoreBackend) (path : String) (policy : TtlPolicy) : List Log.Event :=
  match backend with
  | .memory => []
  | .database => [TokenStore.openedEvent path policy]

/-- Closes a store: the rows of a database go to its file. -/
def close (s : OpenStore) (fs : Files) : Files :=
  match s.place, s.store with
  | some place, .database d => fs.put place (.database d.table)
  | _, _ => fs

end OpenStore
end SandboxPool
