import SandboxPool.Guest.Module

/-!
# What a pool is made from

The module, the number of contexts, the time a call may take, the capabilities and the name of
the memory export. `PoolOptions.validate` names the first of these that is unusable.
-/

namespace SandboxPool

/-- What a pool is made from. -/
structure PoolOptions where
  module : List UInt8
  concurrency : Nat
  timeout : Duration
  capabilities : List Capability
  memoryExport : String

namespace PoolOptions

/-- The number of contexts unless another one is given. -/
def defaultConcurrency : Nat := 4

/-- The time a call may take unless another one is given. -/
def defaultTimeout : Duration := .ofSeconds 30

/-- Options for a module without capabilities. -/
def ofModule (module : List UInt8) : PoolOptions :=
  ⟨module, defaultConcurrency, defaultTimeout, [], GuestInstance.memoryExport⟩

/-- Refuses options a pool cannot be made from. -/
def validate (o : PoolOptions) : Outcome Unit := do
  if o.concurrency = 0 then
    refuse (.configuration "concurrency" "must be greater than zero")
  if o.timeout.nanoseconds = 0 then
    refuse (.configuration "timeout" "must be greater than zero")
  if o.module.isEmpty then
    refuse (.configuration "module" "module bytes are empty")
  if o.memoryExport.isEmpty then
    refuse (.configuration "memory_export" "must not be empty")

/-- A token store in diagnostics; the counts of a store in memory are left out. -/
def storeDiagnostic : TokenStore → String
  | .inMemory s =>
    Text.record "InMemoryTokenStore" [
      ("policy", s.policy.diagnostic),
      ("scopes", Text.record "Mutex" [("data", "\x7b\x7d")])]
  | .database s => s.diagnostic
  | .broken _ => "Failing"

/-- A lock client in diagnostics. -/
def clientDiagnostic : LockClient → String
  | .dryRun _ =>
    Text.record "DryRunLockClient" [("upserts", Text.record "Mutex" [("data", "[]")])]
  | _ => "Client"

/-- Options in diagnostics. -/
def diagnostic (o : PoolOptions) (engine : Engine) (services : Services) : String :=
  let shown := Capability.diagnostic
    (fun s => storeDiagnostic (services.store s)) (fun c => clientDiagnostic (services.client c))
  Text.record "PoolOptions" [
    ("engine", engine.diagnostic),
    ("module_len", toString o.module.length),
    ("concurrency", toString o.concurrency),
    ("timeout", o.timeout.diagnostic),
    ("capabilities", Text.brackets (o.capabilities.map shown)),
    ("memory_export", Text.quote o.memoryExport)]

end PoolOptions
end SandboxPool
