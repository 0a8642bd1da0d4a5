import SandboxPool.Guest.Module

/-!
# Calling a guest to its end

Outside of a pool nobody opens gates or cancels, so a call is simply carried on until it ends. A
guest that goes on for too long, or waits for something, is given up.
-/

namespace SandboxPool

/-- The number of slices a guest is given. -/
def GuestRun.patience : Nat := 64

/-- Carries a call on for at most so many slices. -/
def GuestRun.finish : (slices : Nat) → GuestRun → GuestInstance → HostState →
    Progress GuestRun × GuestInstance × HostState
  | 0, run, g, h => (.running run, g, h)
  | slices + 1, run, g, h =>
    match run.advance [] g h with
    | (.running run, g, h) => finish slices run g h
    | r => r

/-- Calls an export of a guest. -/
def GuestInstance.call (g : GuestInstance) (function : String) (args : List Value)
    (h : HostState) : Outcome (List Value) × GuestInstance × HostState :=
  match g.start function args with
  | .error e => (.error e, g, h)
  | .ok run =>
    let (progress, g, h) := GuestRun.finish GuestRun.patience run g h
    match progress with
    | .finished result => (result, g, h)
    | .panicked message => (refuse (.fault message), g, h)
    | .atGate .. | .waiting .. | .running _ => (refuse .cancelled, g, h)

end SandboxPool
