import SandboxPool.Pool.Execution

/-!
# Calling the guest's handlers

A guest that handles events takes the handle of a request and returns the handle of a response,
both messages in buffers of the context. The host drops the request as soon as no call that might
still read it is under way, and consumes the response.
-/

namespace SandboxPool
namespace World

/-- The handle in the results of a handler. -/
def responseHandle (function : String) : List Value → Outcome Int32
  | [.i32 handle] => .ok handle
  | _ => refuse (.callFailed function "expected a single i32 response handle")

/-- Drops a request from a context, unless an abandoned call may still read it. -/
def dropRequest (w : World) (c : ContextId) (handle : Int32) : World :=
  w.modifyContext c fun x =>
    if x.inFlight.isSome then x else { x with handles := (x.handles.discard handle).2 }

/-- Sends a request to a handler and reads its response. -/
def roundTrip {Q : Type} [Message Q] (R : Type) [Message R] (w : World) (c : ContextId)
    (function : String) (request : Q) : Outcome R × World :=
  match w.prepare c function [], w.contexts[c]? with
  | .error e, _ => (.error e, w)
  | .ok _, none => (refuse (.internal "no such context"), w)
  | .ok e, some x =>
    match Buffers.send x.handles request with
    | .error e => (.error e, w)
    | .ok (handle, handles) =>
      let w := w.modifyContext c fun x => { x with handles }
      let (results, w) := w.drive { e with args := [.i32 handle] }
      let w := w.dropRequest c handle
      match results.bind (responseHandle function), w.contexts[c]? with
      | .error e, _ => (.error e, w)
      | .ok _, none => (refuse (.internal "no such context"), w)
      | .ok response, some x =>
        let (message, handles) := Buffers.consume R x.handles response
        (message, w.modifyContext c fun x => { x with handles })

/-- Hands an event to the guest; the answer is the event the guest made of it, if any. -/
def handleEvent (w : World) (c : ContextId) (event : Event) : Outcome (Option Event) × World :=
  let function := Capability.handleEventExport
  let (response, w) := w.roundTrip EventResponse c function (⟨some event⟩ : EventRequest)
  (response.bind fun r =>
    if r.success then .ok r.event else refuse (.callFailed function r.error), w)

/-- Hands headers to the guest; a guest without the handler leaves them as they are. -/
def rewriteHeaders (w : World) (c : ContextId) (headers : Wire.TextMap) :
    Outcome Wire.TextMap × World :=
  let function := Capability.rewriteHeadersExport
  match w.contexts[c]? with
  | none => (refuse (.internal "no such context"), w)
  | some x =>
    if !x.guest.hasFunction function then (.ok headers, w)
    else
      let (response, w) := w.roundTrip HeadersResponse c function (⟨headers⟩ : HeadersRequest)
      (response.bind fun r =>
        if r.success then .ok r.headers else refuse (.callFailed function r.error), w)

end World

namespace Context

/-- A context in diagnostics. -/
def diagnostic (c : Context) (services : Services) : String :=
  let bound := Capability.boundDiagnostic (fun s => PoolOptions.storeDiagnostic (services.store s))
    (fun s => PoolOptions.clientDiagnostic (services.client s)) c.slot
  Text.openRecord "ExecutionContext" [
    ("slot", toString c.slot), ("instance", c.guest.diagnostic),
    ("traits", Text.brackets (c.capabilities.map bound)),
    ("timeout", c.timeout.diagnostic), ("in_flight", Text.ofBool c.inFlight.isSome)]

end Context
end SandboxPool
