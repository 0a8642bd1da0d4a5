/-!
# The accounts of a pool

Counters of what a pool lends and of how calls end. Every counter is a 64-bit number: counting
down from zero would wrap around, and it is a property of the pool that this never happens.
-/

namespace SandboxPool

/-- A counter. -/
abbrev Counter := UInt64

/-- What a pool counts. -/
structure Counters where
  /-- Contexts lent out, or released and waiting for an abandoned call. -/
  borrowed : Counter
  /-- Guest calls that ran to their end. -/
  completed : Counter
  /-- Calls that lost to their deadline. -/
  timeouts : Counter
  /-- Calls that lost to their caller's scope. -/
  cancellations : Counter
  /-- Guest calls and callbacks that panicked. -/
  faults : Counter
  /-- Abandoned calls that nobody has joined yet. -/
  settling : Counter
  deriving Repr, DecidableEq, Inhabited

namespace Counters

/-- Nothing counted. -/
def zero : Counters := ⟨0, 0, 0, 0, 0, 0⟩

/-- One more context is lent. -/
def lend (c : Counters) : Counters := { c with borrowed := c.borrowed + 1 }

/-- One context less is lent. -/
def takeBack (c : Counters) : Counters := { c with borrowed := c.borrowed - 1 }

/-- A guest call ran to its end. -/
def complete (c : Counters) : Counters := { c with completed := c.completed + 1 }

/-- A call lost to its deadline. -/
def timeOut (c : Counters) : Counters := { c with timeouts := c.timeouts + 1 }

/-- A call lost to its caller's scope. -/
def cancel (c : Counters) : Counters := { c with cancellations := c.cancellations + 1 }

/-- Something panicked. -/
def fault (c : Counters) : Counters := { c with faults := c.faults + 1 }

/-- A call was abandoned. -/
def abandon (c : Counters) : Counters := { c with settling := c.settling + 1 }

/-- An abandoned call was joined. -/
def settle (c : Counters) : Counters := { c with settling := c.settling - 1 }

end Counters

/-- A pool's accounts at one moment. -/
structure Metrics where
  capacity : Nat
  available : Nat
  counters : Counters
  deriving Repr, DecidableEq

/-- The contexts accounted for, idle or lent. -/
def Metrics.accounted (m : Metrics) : Nat := m.available + m.counters.borrowed.toNat

/-- The accounts by their names. -/
def Metrics.entries (m : Metrics) : List (String × Nat) :=
  let c := m.counters
  [("capacity", m.capacity), ("available", m.available), ("borrowed", c.borrowed.toNat),
    ("completed", c.completed.toNat), ("timeouts", c.timeouts.toNat),
    ("cancellations", c.cancellations.toNat), ("faults", c.faults.toNat),
    ("settling", c.settling.toNat), ("accounted", m.accounted)]

end SandboxPool
