import SandboxPool.Config.Schema
import SandboxPool.Host.OpenStore
import SandboxPool.Log.Line
import SandboxPool.Pool.Options

/-!
# Settings of a host

Everything a host can be told: the pool, the token store, the log, and how guests lay out
strings. `HostConfig.ofText` reads settings from a document; what the document leaves out keeps
its default. `HostConfig.validate` names the first setting that is unusable.
-/

namespace SandboxPool

/-- Settings of the pool. -/
structure PoolSection where
  /-- The path of the guest module. -/
  module : Option String
  concurrency : Nat
  timeoutSeconds : Nat
  /-- The most bytes of guest memory. -/
  memoryLimit : Nat
  deriving Repr, DecidableEq

namespace PoolSection

/-- The settings used unless others are given. -/
def standard : PoolSection where
  module := none
  concurrency := PoolOptions.defaultConcurrency
  timeoutSeconds := PoolOptions.defaultTimeout.seconds
  memoryLimit := 64 * 1024 * 1024

/-- The time a call may take. -/
def timeout (p : PoolSection) : Duration := .ofSeconds p.timeoutSeconds

end PoolSection

/-- Settings of the token store. -/
structure StoreSection where
  backend : StoreBackend
  path : String
  policy : TtlPolicy
  deriving Repr, DecidableEq

namespace StoreSection

/-- The settings used unless others are given. -/
def standard : StoreSection := ⟨.database, "plugin-host-tokens.db", .extendOnTake⟩

/-- The event of a store that is ready. -/
def readyEvent (s : StoreSection) : Log.Event :=
  ⟨.info, .configTypes, "Token store ready",
    [("backend", s.backend.diagnostic), ("policy", s.policy.diagnostic)]⟩

/-- Opens the store. -/
def openStore (s : StoreSection) (fs : Files) (j : Journal) :
    Except StoreFault (OpenStore × Files) × Journal :=
  match OpenStore.ofBackend s.backend s.path s.policy fs with
  | .error e => (.error e, j)
  | .ok opened =>
    (.ok opened, (j.logAll (OpenStore.events s.backend s.path s.policy)).log s.readyEvent)

end StoreSection

/-- Settings of a host. -/
structure HostConfig where
  pool : PoolSection
  tokenStore : StoreSection
  logging : Log.Settings
  stringLayout : StringLayout
  deriving Repr

/-- Why a text gives no settings. -/
inductive ConfigProblem where
  /-- It is no document. -/
  | syntaxError
  /-- A value of it does not fit. -/
  | misfit (m : Config.Misfit)
  deriving Repr, DecidableEq

namespace ConfigProblem

/-- The words for a problem. -/
def message : ConfigProblem → String
  | syntaxError => "not a document"
  | misfit m => m.message

/-- A problem as a failure. -/
def toFailure (p : ConfigProblem) : Failure :=
  ⟨.configuration "config" ("invalid TOML: " ++ p.message), [p.message]⟩

end ConfigProblem

namespace HostConfig

open Config (Shape)

/-- The settings used unless others are given. -/
def standard : HostConfig := ⟨.standard, .standard, .standard, .counted⟩

/-- The fields of the pool's section. -/
def poolFields : List (Shape.Field PoolSection) := [
  Shape.field "module" (Shape.text "path string") fun s v => { s with module := some v },
  Shape.field "concurrency" (Shape.count "usize") fun s v => { s with concurrency := v },
  Shape.field "timeout_secs" (Shape.count "u64") fun s v => { s with timeoutSeconds := v },
  Shape.field "memory_limit" (Shape.count "usize") fun s v => { s with memoryLimit := v }]

/-- The backends by name. -/
def backends : List (String × StoreBackend) :=
  [StoreBackend.memory, .database].map fun b => (b.name, b)

/-- The policies by name. -/
def policies : List (String × TtlPolicy) :=
  [TtlPolicy.extendOnTake, .fixedAtFirstTake].map fun p => (p.name, p)

/-- The layouts by name. -/
def layouts : List (String × StringLayout) :=
  [("assemblyscript", .counted), ("c_string", .terminated)]

/-- The levels by name, the most detailed first. -/
def levels : List (String × Log.Level) := Log.Level.all.reverse.map fun l => (l.name, l)

/-- The fields of the token store's section. -/
def storeFields : List (Shape.Field StoreSection) := [
  Shape.field "backend" (Shape.choice backends) fun s v => { s with backend := v },
  Shape.field "path" (Shape.text "a string") fun s v => { s with path := v },
  Shape.field "ttl_policy" (Shape.choice policies) fun s v => { s with policy := v }]

/-- The fields of the log's section. -/
def logFields : List (Shape.Field Log.Settings) := [
  Shape.field "level" (Shape.choice levels) fun s v => { s with level := v },
  Shape.field "ansi" Shape.flag fun s v => { s with ansi := v },
  Shape.field "target" Shape.flag fun s v => { s with target := v }]

/-- All fields. -/
def fields : List (Shape.Field HostConfig) := [
  Shape.field "pool" (Shape.structured "PoolSection" poolFields .standard)
    fun s v => { s with pool := v },
  Shape.field "token_store" (Shape.structured "TokenStoreSection" storeFields .standard)
    fun s v => { s with tokenStore := v },
  Shape.field "logging" (Shape.structured "LoggingConfig" logFields .standard)
    fun s v => { s with logging := v },
  Shape.field "string_encoding" (Shape.choice layouts) fun s v => { s with stringLayout := v }]

/-- The settings of a document. -/
def ofText (text : String) : Except ConfigProblem HostConfig :=
  match Toml.Document.read? text with
  | none => .error .syntaxError
  | some es =>
    match Shape.byName fields standard es with
    | .ok c => .ok c
    | .error m => .error (.misfit m)

/-- Refuses settings a host cannot work with. -/
def validate (c : HostConfig) : Outcome Unit := do
  if c.pool.concurrency = 0 then
    refuse (.configuration "pool.concurrency" "must be at least 1")
  if c.pool.timeoutSeconds = 0 then
    refuse (.configuration "pool.timeout_secs" "must be at least 1")
  if c.pool.memoryLimit = 0 then
    refuse (.configuration "pool.memory_limit" "must be greater than zero")
  if c.tokenStore.backend = .database && Text.isBlank c.tokenStore.path then
    refuse (.configuration "token_store.path" "required for the libsql backend")

end HostConfig
end SandboxPool
