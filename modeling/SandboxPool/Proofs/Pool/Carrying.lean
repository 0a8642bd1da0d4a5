import SandboxPool.Proofs.Host.Effects
import SandboxPool.Proofs.Pool.Frames

/-!
# What a guest call that goes on does to the world

A slice of a guest changes the context it runs on, the services and the journal, and it changes
them only as host functions do: whatever law host functions keep (`HostLaw`), the slice keeps.
-/

namespace SandboxPool
namespace World

variable {R : HostState → HostState → Prop} {w w' : World} {id : CallId} {call : Call}
  {c d : ContextId} {x : Context}

/-- The world after a slice of a call that began in the state `hostState`, or the same world. -/
inductive Sliced (R : HostState → HostState → Prop) (w : World) (id : CallId) : World → Prop where
  | idle : Sliced R w id w
  | slice {call x g h state} (hfound : w.calls[id]? = some call)
      (hthere : w.contexts[call.home]? = some x) (hkept : R (w.hostState x) h) :
      Sliced R w id
        { w.absorb call.home g h with calls := w.calls.setIfInBounds id { call with state } }

theorem carry_sliced
    {act : GuestInstance → HostState → Progress GuestRun × GuestInstance × HostState}
    (hfound : w.calls[id]? = some call) (hkept : ∀ g h, R h (act g h).2.2) :
    w.Sliced R id (w.carry id call act) := by
  unfold carry
  cases hthere : w.contexts[call.home]? with
  | none => exact .idle
  | some x => exact .slice hfound hthere (hkept x.guest (w.hostState x))

/-- A call that goes on keeps every law of host functions. -/
theorem carryFor_sliced (hlaw : HostLaw R) (fuel : GuestRun → Nat) (shut : List String)
    (id : CallId) : w.Sliced R id (w.carryFor fuel shut id) := by
  unfold carryFor
  cases hfound : w.calls[id]? with
  | none => exact .idle
  | some call =>
    -- A call at a gate, or one that waits, is carried only when its turn has come.
    cases hstate : call.state with
    | ready run =>
      simp only [hstate]
      exact carry_sliced hfound fun g h => hlaw.slice _ _ run g h
    | atGate gate run =>
      simp only [hstate]
      split
      · exact carry_sliced hfound fun g h => hlaw.slice _ _ run g h
      · exact .idle
    | waiting scope gate run =>
      simp only [hstate]
      split
      · exact carry_sliced hfound fun g h => hlaw.interrupt _ _ run _ g h
      · exact .idle
    | ended r =>
      simp only [hstate]
      exact .idle

/-- What a worker that goes on makes of the services. -/
theorem carryFor_ready {run : GuestRun} (hfound : w.calls[id]? = some call)
    (hstate : call.state = .ready run) (hthere : w.contexts[call.home]? = some x)
    (fuel : GuestRun → Nat) (shut : List String) :
    (w.carryFor fuel shut id).services =
      (run.advanceFor (w.openGates.filter fun g => !shut.contains g) (fuel run) x.guest
        (w.hostState x)).2.2.services := by
  unfold carryFor
  rw [hfound]
  simp only [hstate]
  unfold carry
  rw [hthere]
  rfl

/-- A call on the guest of a context whose scope has fired reaches no store and no client. -/
theorem carryFor_obeys (hsite : w.site? id = some c) (hhere : w.contexts[c]? = some x)
    (hcancelled : (w.hostState x).cancelled = true) (fuel : GuestRun → Nat) (shut : List String) :
    (w.carryFor fuel shut id).services = w.services ∧
      (w.carryFor fuel shut id).journal.sent = w.journal.sent := by
  have hsliced := w.carryFor_sliced HostState.obeys_law fuel shut id
  generalize w.carryFor fuel shut id = w' at hsliced
  cases hsliced with
  | idle => exact ⟨rfl, rfl⟩
  | @slice call y g h state hfound hthere hkept =>
    -- the call is on this guest, so the law starts from its state
    have hsame : call.home = c := by
      unfold site? at hsite
      rw [hfound] at hsite
      exact Option.some.inj hsite
    obtain rfl : y = x := by
      rw [hsame, hhere] at hthere
      exact (Option.some.inj hthere).symm
    exact ⟨hkept.services hcancelled, hkept.sent hcancelled⟩

end World
end SandboxPool
