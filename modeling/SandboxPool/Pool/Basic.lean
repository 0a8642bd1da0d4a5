import SandboxPool.Pool.Counters
import SandboxPool.Pool.Permits
import SandboxPool.Failure

/-!
# Lending contexts

A pool lends a fixed set of contexts, each to one caller at a time. Permits and the queue of idle
contexts are two structures that change at different moments: a borrower first gets a permit and
then takes the context at the front of the queue, a context that comes back is first queued and
then gives its permit. Each of these moments is an operation of its own here, so that what holds
between them can be stated.
-/

namespace SandboxPool

/-- A context, by its number among all contexts. -/
abbrev ContextId := Nat

/-- What a pool keeps of its contexts. -/
structure Pool where
  id : Nat
  capacity : Nat
  /-- Contexts nobody has, the one to be lent next first. -/
  idle : List ContextId
  permits : Permits
  closed : Bool
  counters : Counters
  deriving Repr, DecidableEq, Inhabited

namespace Pool

/-- A pool of idle contexts. -/
def ofContexts (id : Nat) (contexts : List ContextId) : Pool :=
  { id
    capacity := contexts.length
    idle := contexts
    permits := .ofNat contexts.length
    closed := false
    counters := .zero }

/-- The accounts of a pool. -/
def metrics (p : Pool) : Metrics := ⟨p.capacity, p.idle.length, p.counters⟩

/-- Changes the counters. -/
def count (p : Pool) (f : Counters → Counters) : Pool := { p with counters := f p.counters }

/-- Asks for a permit, unless the pool is closed. -/
def request (p : Pool) (w : Waiter) : PermitAnswer × Pool :=
  if p.closed then (.closed, p)
  else
    let (answer, permits) := p.permits.request w
    (answer, { p with permits })

/-- Looks again for a permit. -/
def look (p : Pool) (w : Waiter) : PermitAnswer × Pool :=
  let (answer, permits) := p.permits.look w
  (answer, { p with permits })

/-- Gives up waiting for a permit. -/
def giveUp (p : Pool) (w : Waiter) : Pool := { p with permits := p.permits.giveUp w }

/-- Takes the context at the front of the queue for one who holds a permit. The queue may be
empty if the pool was closed in between, and only then. -/
def takeIdle (p : Pool) : Outcome ContextId × Pool :=
  match p.idle with
  | c :: idle => (.ok c, { p with idle })
  | [] =>
    let cause : Cause :=
      if p.closed then .shuttingDown
      else .internal "permit granted but no idle context was queued"
    (refuse cause, p)

/-- What becomes of a context that comes back. -/
inductive Returned where
  | queued
  | disposed
  | overfull
  deriving Repr, DecidableEq

/-- Queues a context that comes back. A closed pool has no use for it. -/
def pushIdle (p : Pool) (c : ContextId) : Returned × Pool :=
  if p.closed then (.disposed, p)
  else if p.capacity ≤ p.idle.length then (.overfull, p)
  else (.queued, { p with idle := p.idle ++ [c] })

/-- Gives the permit of a context that was queued. -/
def addPermit (p : Pool) : Pool := { p with permits := p.permits.add }

/-- Closes a pool and disposes of its idle contexts; none if it was closed before. -/
def close? (p : Pool) : Option (List ContextId × Pool) :=
  if p.closed then none
  else some (p.idle, { p with closed := true, permits := p.permits.close, idle := [] })

/-- A pool in diagnostics, but for its number. -/
def diagnostic (id : String) (p : Pool) : String :=
  Text.openRecord "ExecutionContextPool" [
    ("id", id), ("capacity", toString p.capacity), ("closed", Text.ofBool p.closed)]

end Pool
end SandboxPool
