import SandboxPool.Token.InMemory
import SandboxPool.Token.Database
import SandboxPool.Log.Event

/-!
# Token stores behind one face

Host functions take and release tokens without knowing where the counts are kept: in memory, in
a database, or nowhere because the store is out of order. Each kind reads its own clock.
-/

namespace SandboxPool

/-- What the clocks show: nanoseconds of the clock that only moves forward, and milliseconds of
the wall clock. -/
structure Clock where
  monotonic : Nat
  wall : Int
  deriving Repr, DecidableEq

/-- One second after the start of the forward clock. -/
instance : Inhabited Clock := ⟨⟨1000000000, 1700000000000⟩⟩

/-- A token store. -/
inductive TokenStore where
  | inMemory (store : InMemoryStore)
  | database (store : DatabaseStore)
  | broken (fault : StoreFault)
  deriving Repr

instance : Inhabited TokenStore := ⟨.inMemory (.empty .extendOnTake)⟩

/-- What a take comes to: a count, a fault of the store, or a panic of its clock. -/
inductive TakeResult where
  | count (n : Nat)
  | fault (f : StoreFault)
  | panic (message : String)
  deriving Repr, DecidableEq

namespace TokenStore

/-- Takes a token. -/
def take (s : TokenStore) (scope : ScopeKey) (ttl : Duration) (clock : Clock) :
    TakeResult × TokenStore :=
  match s with
  | inMemory m =>
    match m.take? scope ttl clock.monotonic with
    | some (n, m) => (.count n, inMemory m)
    | none => (.panic InMemoryStore.overflowPanic, s)
  | database d =>
    let (n, d) := d.take scope ttl clock.wall
    (.count n, database d)
  | broken f => (.fault f, s)

/-- Forgets a scope. -/
def release (s : TokenStore) (scope : ScopeKey) : Except StoreFault Unit × TokenStore :=
  match s with
  | inMemory m => (.ok (), inMemory (m.release scope))
  | database d => (.ok (), database (d.release scope))
  | broken f => (.error f, s)

/-- The event a take leaves in the log. -/
def takeEvents (s : TokenStore) (scope : ScopeKey) (count : Nat) : List Log.Event :=
  match s with
  | database _ =>
    [⟨.trace, .database, "Token taken", [("scope", scope.text), ("count", toString count)]⟩]
  | _ => []

/-- The event a release leaves in the log. -/
def releaseEvents (s : TokenStore) (scope : ScopeKey) : List Log.Event :=
  match s with
  | database _ => [⟨.trace, .database, "Tokens released", [("scope", scope.text)]⟩]
  | _ => []

/-- The event of opening a database. -/
def openedEvent (path : String) (policy : TtlPolicy) : Log.Event :=
  ⟨.debug, .database, "Token store opened",
    [("path", Text.quote path), ("policy", policy.diagnostic)]⟩

end TokenStore
end SandboxPool
