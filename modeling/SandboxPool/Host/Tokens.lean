import SandboxPool.Host.State

/-!
# Taking and releasing tokens for a guest

A guest names a scope by a string in its memory. The string is read, then the scope and the time
to live are checked, then the caller's scope; only after all that is the store asked.
-/

namespace SandboxPool
namespace Tokens

/-- The scope whose key stands at a guest pointer. -/
def scopeAt (layout : StringLayout) (memory : Memory) (args : List Value) : Outcome ScopeKey := do
  let pointer ← i32Arg args 0 "scope"
  let text ← layout.decode memory pointer
  (ScopeKey.parse text).mapError StoreFault.toFailure

/-- The scope and the time to live a guest asks for. -/
def request (layout : StringLayout) (memory : Memory) (args : List Value) :
    Outcome (ScopeKey × Duration) := do
  let scope ← scopeAt layout memory args
  let seconds ← i32Arg args 1 "ttl"
  let ttl ← (ttlOfSeconds seconds.toInt64).mapError StoreFault.toFailure
  return (scope, ttl)

/-- Takes a token from a store and returns the scope's count. -/
def take (store : String) (layout : StringLayout) (memory : Memory) (args : List Value)
    (h : HostState) : HostReply × HostState :=
  match request layout memory args with
  | .error e => (.failed e, h)
  | .ok (scope, ttl) =>
    if h.cancelled then (.failed Cause.cancelled, h)
    else
      let before := h.services.store store
      let (result, after) := before.take scope ttl h.services.clock
      let h := { h with services := h.services.setStore store after }
      match result with
      | .count n =>
        let event : Log.Event := ⟨.debug, .store, "Token taken",
          [("slot", toString h.slot), ("scope", scope.text),
            ("ttl_secs", toString ttl.seconds), ("count", toString n)]⟩
        (.done (.ok [.i32 (Int32.ofNat n)]), (h.logAll (before.takeEvents scope n)).log event)
      | .fault f => (.failed f.toFailure, h)
      | .panic message => (.panicked message, h)

/-- Forgets a scope of a store. -/
def release (store : String) (layout : StringLayout) (memory : Memory) (args : List Value)
    (h : HostState) : HostReply × HostState :=
  match scopeAt layout memory args with
  | .error e => (.failed e, h)
  | .ok scope =>
    if h.cancelled then (.failed Cause.cancelled, h)
    else
      let before := h.services.store store
      let (result, after) := before.release scope
      let h := { h with services := h.services.setStore store after }
      match result with
      | .ok () =>
        let event : Log.Event := ⟨.debug, .store, "Tokens released",
          [("slot", toString h.slot), ("scope", scope.text)]⟩
        (.done (.ok []), (h.logAll (before.releaseEvents scope)).log event)
      | .error f => (.failed f.toFailure, h)

end Tokens
end SandboxPool
