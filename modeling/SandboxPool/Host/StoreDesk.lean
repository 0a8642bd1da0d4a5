import SandboxPool.Host.OpenStore
import SandboxPool.Host.State

/-!
# One token store at a time

A desk has at most one open store. Opening another one closes it first, so that a database finds
the counts that it left behind.
-/

namespace SandboxPool

/-- An open store, the files behind it, and what happened. -/
structure StoreDesk where
  opened : Option OpenStore
  files : Files
  journal : Journal

namespace StoreDesk

/-- A desk without an open store. -/
def ofFiles (files : Files) : StoreDesk := ⟨none, files, .empty⟩

/-- Closes the open store. -/
def closed (d : StoreDesk) : StoreDesk :=
  match d.opened with
  | some s => { d with opened := none, files := s.close d.files }
  | none => d

/-- Opens a store. -/
def openStore (d : StoreDesk) (backend : StoreBackend) (path : String) (policy : TtlPolicy) :
    Except StoreFault Unit × StoreDesk :=
  let d := d.closed
  match OpenStore.ofBackend backend path policy d.files with
  | .error f => (.error f, d)
  | .ok (s, files) =>
    (.ok (), ⟨some s, files, d.journal.logAll (OpenStore.events backend path policy)⟩)

/-- Takes a token from the open store. -/
def take (d : StoreDesk) (s : OpenStore) (scope : ScopeKey) (ttl : Duration) (clock : Clock) :
    TakeResult × StoreDesk :=
  let (result, store) := s.store.take scope ttl clock
  let d := { d with opened := some { s with store } }
  match result with
  | .count n => (result, { d with journal := d.journal.logAll (s.store.takeEvents scope n) })
  | _ => (result, d)

/-- Forgets a scope of the open store. -/
def release (d : StoreDesk) (s : OpenStore) (scope : ScopeKey) :
    Except StoreFault Unit × StoreDesk :=
  let (result, store) := s.store.release scope
  let d := { d with opened := some { s with store } }
  match result with
  | .ok () => (result, { d with journal := d.journal.logAll (s.store.releaseEvents scope) })
  | .error _ => (result, d)

end StoreDesk
end SandboxPool
