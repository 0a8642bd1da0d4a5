import SandboxPool.Host.Buffers
import SandboxPool.Message.Lock

/-!
# Storing a lock for a guest

The guest passes the handle of a buffer with a lock. The buffer is consumed first, then the lock
is completed and checked, then the caller's scope; only after all that does the lock go to the
client. A client that never answers leaves the guest waiting.
-/

namespace SandboxPool
namespace Locks

/-- The completed lock under a handle, and the table without the buffer. -/
def request (args : List Value) (t : HandleTable) : Outcome Lock × HandleTable :=
  match i32Arg args 0 "handle" with
  | .error e => (.error e, t)
  | .ok handle =>
    let (received, t) := Buffers.consume Lock t handle
    let completed := received.bind fun lock =>
      let (result, lock) := lock.complete
      result.map fun _ => lock
    (completed, t)

/-- Gives the lock under a handle to a client. -/
def upsert (client : String) (args : List Value) (h : HostState) : HostReply × HostState :=
  let (request, handles) := request args h.handles
  let h := { h with handles }
  match request with
  | .error e => (.failed e, h)
  | .ok lock =>
    if h.cancelled then (.failed Cause.cancelled, h)
    else
      let before := h.services.client client
      let (answer, after) := before.upsert lock
      let h := { h with services := h.services.setClient client after }
      let h := if before.isDryRun then h.log (LockClient.dryRunEvent lock)
        else h.note (.lockSent lock)
      match answer with
      | .done (.ok ()) =>
        let event : Log.Event := ⟨.info, .lockApi, "Lock upserted",
          [("slot", toString h.slot), ("name", Text.quote lock.name)]⟩
        (.done (.ok []), h.log event)
      | .done (.error f) => (.failed f.toFailure, h)
      | .never gate => (.waiting gate, h)

end Locks
end SandboxPool
