import SandboxPool.Token.Basic

/-!
# Token counts in a database

A store whose rows outlive it: a table with one row per scope. A take deletes the row of its own
scope if that has expired and then inserts a row or counts up the one there. Moments are
milliseconds of the wall clock, kept in 64 bits; a deadline beyond them becomes the last moment.
-/

namespace SandboxPool

/-- A row of the table. -/
structure ScopeRow where
  scope : String
  count : Nat
  expiresAt : Int
  deriving Repr, DecidableEq, Inhabited

/-- The rows, at most one per scope. -/
abbrev ScopeTable := List ScopeRow

namespace ScopeTable

/-- The row of a scope. -/
def row? (t : ScopeTable) (scope : ScopeKey) : Option ScopeRow :=
  t.find? fun r => r.scope = scope.text

/-- The table without the row of a scope. -/
def delete (t : ScopeTable) (scope : ScopeKey) : ScopeTable :=
  t.filter fun r => r.scope ≠ scope.text

/-- The table without the row of a scope if that expires at `now` or earlier. -/
def deleteExpired (t : ScopeTable) (scope : ScopeKey) (now : Int) : ScopeTable :=
  t.filter fun r => ¬ (r.scope = scope.text ∧ r.expiresAt ≤ now)

/-- Inserts a row with count one, or counts up the row of the scope; `extend` also moves its
deadline. -/
def upsert (t : ScopeTable) (scope : ScopeKey) (expiresAt : Int) (extend : Bool) :
    Nat × ScopeTable :=
  match t.row? scope with
  | none => (1, t ++ [⟨scope.text, 1, expiresAt⟩])
  | some old =>
    let row : ScopeRow :=
      ⟨scope.text, old.count + 1, if extend then expiresAt else old.expiresAt⟩
    (row.count, t.map fun r => if r.scope = scope.text then row else r)

end ScopeTable

/-- A store over a table. -/
structure DatabaseStore where
  policy : TtlPolicy
  table : ScopeTable
  deriving Repr

namespace DatabaseStore

/-- The last moment, in milliseconds. -/
def lastMoment : Int := 0x7fffffffffffffff

/-- The moment `ttl` after `now`, or the last one. -/
def deadline (now : Int) (ttl : Duration) : Int :=
  min (now + min (ttl.millis : Int) lastMoment) lastMoment

/-- Takes a token at the moment `now`: the new count, at most the largest 32-bit number, and the
store after it. -/
def take (s : DatabaseStore) (scope : ScopeKey) (ttl : Duration) (now : Int) :
    Nat × DatabaseStore :=
  -- rows of other scopes stay, expired or not, until their own scope takes or is released
  let live := s.table.deleteExpired scope now
  let (count, table) := live.upsert scope (deadline now ttl) (s.policy = .extendOnTake)
  (min count 0x7fffffff, { s with table })

/-- Forgets a scope. -/
def release (s : DatabaseStore) (scope : ScopeKey) : DatabaseStore :=
  { s with table := s.table.delete scope }

/-- A store in diagnostics. -/
def diagnostic (s : DatabaseStore) : String :=
  Text.openRecord "LibsqlTokenStore" [("policy", s.policy.diagnostic)]

end DatabaseStore
end SandboxPool
