/-!
# Permits

A pool hands out as many permits as it has idle contexts. Those who find none wait in line; a
permit that comes free goes to the first of them, stays theirs until they look, and goes on to
the next one if they give up. Closing ends all waiting, also of those who hold a permit they have
not looked at.
-/

namespace SandboxPool

/-- One who waits for a permit. -/
abbrev Waiter := Nat

/-- Permits, free or given to someone who has not looked yet, and those in line. -/
structure Permits where
  free : Nat
  line : List Waiter
  granted : List Waiter
  closed : Bool
  deriving Repr, DecidableEq, Inhabited

/-- What one who asks for a permit finds. -/
inductive PermitAnswer where
  | given
  | wait
  | closed
  deriving Repr, DecidableEq

namespace Permits

/-- So many free permits. -/
def ofNat (n : Nat) : Permits := ⟨n, [], [], false⟩

/-- Asks for a permit for the first time. -/
def request (p : Permits) (w : Waiter) : PermitAnswer × Permits :=
  if p.closed then (.closed, p)
  else if 0 < p.free then (.given, { p with free := p.free - 1 })
  else (.wait, { p with line := p.line ++ [w] })

/-- Looks again. -/
def look (p : Permits) (w : Waiter) : PermitAnswer × Permits :=
  if p.closed then (.closed, { p with line := p.line.erase w, granted := p.granted.erase w })
  else if p.granted.contains w then (.given, { p with granted := p.granted.erase w })
  else (.wait, p)

/-- A permit comes free. -/
def add (p : Permits) : Permits :=
  match p.line with
  | w :: line => { p with line, granted := p.granted ++ [w] }
  | [] => { p with free := p.free + 1 }

/-- Gives up waiting; a permit that was granted goes on. -/
def giveUp (p : Permits) (w : Waiter) : Permits :=
  if p.granted.contains w then { p with granted := p.granted.erase w }.add
  else { p with line := p.line.erase w }

/-- Ends all waiting. -/
def close (p : Permits) : Permits := { p with closed := true }

end Permits
end SandboxPool
