import SandboxPool.Token.Basic

/-!
# Token counts in memory

A store that lives as long as its process and reads a clock that only moves forward. A take first
drops every scope whose deadline has come, so an expired scope starts again at one. Counts stop
at the largest 32-bit number. The clock counts seconds in 63 bits; a deadline beyond it cannot be
represented, and such a take ends in a panic.
-/

namespace SandboxPool

/-- The count of a scope and when it expires, in nanoseconds of the store's clock. -/
structure ScopeEntry where
  count : Nat
  deadline : Nat
  deriving Repr, DecidableEq, Inhabited

/-- Scopes by key, each at most once. -/
structure InMemoryStore where
  policy : TtlPolicy
  scopes : List (ScopeKey × ScopeEntry)
  deriving Repr

namespace InMemoryStore

/-- A store without scopes. -/
def empty (policy : TtlPolicy) : InMemoryStore := ⟨policy, []⟩

/-- The largest count. -/
def countLimit : Nat := 0x7fffffff

/-- The first moment the clock cannot represent. -/
def clockEnd : Nat := 0x8000000000000000 * 1000000000

/-- What ends a take whose deadline the clock cannot represent. -/
def overflowPanic : String := "overflow when adding duration to instant"

/-- The entry of a scope. -/
def get? (s : InMemoryStore) (scope : ScopeKey) : Option ScopeEntry :=
  s.scopes.lookup scope

/-- The store without the scopes whose deadline is `now` or earlier. -/
def sweep (s : InMemoryStore) (now : Nat) : InMemoryStore :=
  { s with scopes := s.scopes.filter fun e => now < e.2.deadline }

/-- The store without a scope. -/
def release (s : InMemoryStore) (scope : ScopeKey) : InMemoryStore :=
  { s with scopes := s.scopes.filter fun e => e.1 ≠ scope }

/-- The store with an entry for a scope in place of an older one. -/
def put (s : InMemoryStore) (scope : ScopeKey) (entry : ScopeEntry) : InMemoryStore :=
  { s with scopes := (scope, entry) :: (s.release scope).scopes }

/-- Takes a token at the moment `now`: the new count and the store after it, or none if the
deadline overflows the clock. -/
def take? (s : InMemoryStore) (scope : ScopeKey) (ttl : Duration) (now : Nat) :
    Option (Nat × InMemoryStore) :=
  let deadline := now + ttl.nanoseconds
  if clockEnd ≤ deadline then none
  else
    -- the sweep covers all scopes, not only the one that takes
    let s := s.sweep now
    let old := (s.get? scope).getD ⟨0, deadline⟩
    let count := min (old.count + 1) countLimit
    let deadline := if s.policy = .extendOnTake then deadline else old.deadline
    some (count, s.put scope ⟨count, deadline⟩)

end InMemoryStore
end SandboxPool
