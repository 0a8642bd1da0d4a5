import SandboxPool.Pool.World

/-!
# Making pools, lending contexts, taking them back

A pool is made with all its contexts. A caller borrows one under a scope of their own, waits for
it if need be, and gives it back. A context that comes back while an abandoned call still runs on
it is deferred: it goes back into the queue only when `World.settleDeferred` finds the call over.
Every context starts a borrow with no handles and leaves it with a scope that nobody can fire.
-/

namespace SandboxPool
namespace World

/-- Builds the contexts of a pool from slot `slot` on. -/
def buildContexts (pool : Nat) (module : GuestModule) (o : PoolOptions) :
    (count slot : Nat) → World → Outcome (List Context) × World
  | 0, _, w => (.ok [], w)
  | count + 1, slot, w =>
    let (built, h) := Building.guest pool slot module w.engine.memoryLimit o
      (Building.freshHost slot w.services w.journal)
    let w := { w with services := h.services, journal := h.journal }
    match built with
    | .error e => (.error e, w)
    | .ok guest =>
      let (scope, w) := w.freshScope
      let c : Context :=
        ⟨pool, slot, o.capabilities, o.timeout, guest, h.handles, scope, none⟩
      let (rest, w) := buildContexts pool module o count (slot + 1) w
      (rest.map (c :: ·), w)

/-- What stands behind the refusal to make a pool where nothing could run its calls. -/
def noRuntime : String :=
  "there is no reactor running, must be called from the context of a Tokio 1.x runtime"

/-- Makes a pool and returns its place; `hosted` tells whether something there can run calls. The
options are checked first, then the module is compiled, then every context is built. -/
def openPool (w : World) (o : PoolOptions) (hosted : Bool) : Outcome Nat × World :=
  match o.validate with
  | .error e => (.error e, w)
  | .ok () =>
    if !hosted then
      (.error ⟨.configuration "runtime" "pool must be created inside a tokio runtime",
        [noRuntime]⟩, w)
    else
      let (compiled, journal) := w.engine.compile o.module w.journal
      let w := { w with journal }
      match compiled with
      | .error e => (.error e, w)
      | .ok module =>
        let id := w.nextPool
        let (built, w) := buildContexts id module o o.concurrency 0 { w with nextPool := id + 1 }
        match built with
        | .error e => (.error e, w)
        | .ok contexts =>
          let numbers := List.range' w.contexts.size contexts.length
          let event : Log.Event := ⟨.info, .pool, "Execution context pool ready",
            [("pool_id", toString id), ("concurrency", toString o.concurrency),
              ("timeout_ms", toString o.timeout.millis),
              ("capabilities", toString o.capabilities.length)]⟩
          (.ok w.pools.size,
            { w with
              pools := w.pools.push (.ofContexts id numbers)
              contexts := w.contexts ++ contexts.toArray }.log event)

/-- An event about a slot of a pool. -/
def slotEvent (level : Log.Level) (message : String) (pool slot : Nat) : Log.Event :=
  ⟨level, .pool, message, [("pool_id", toString pool), ("slot", toString slot)]⟩

/-- Replaces a pool. -/
def setPool (w : World) (place : Nat) (p : Pool) : World :=
  { w with pools := w.pools.setIfInBounds place p }

/-- What one who asks for a context finds: an answer, or a place in line. -/
inductive Borrowed where
  | answered (result : Outcome ContextId)
  | waiting (w : Waiter)

/-- What one who asks for a permit finds: a refusal, the permit, or a place in line. -/
inductive Asked where
  | refused (cause : Cause)
  | permitted
  | inLine (w : Waiter)

/-- What a permit's answer means to one who asks under the name `waiter`. -/
def Asked.ofAnswer (waiter : Waiter) : PermitAnswer → Asked
  | .given => .permitted
  | .wait => .inLine waiter
  | .closed => .refused .shuttingDown

/-- True if the pool at a place is there and takes callers. -/
def isOpen (w : World) (place : Nat) : Bool := (w.pools[place]?).any fun p => !p.closed

/-- Asks a pool for a permit. A scope that has fired gets none. -/
def ask (w : World) (place : Nat) (scope : ScopeId) : Asked × World :=
  match w.pools[place]? with
  | none => (.refused .shuttingDown, w)
  | some p =>
    if w.hasFired scope then (.refused .cancelled, w)
    else
      let waiter := w.nextWaiter
      let (found, p) := p.request waiter
      (.ofAnswer waiter found, { w with nextWaiter := waiter + 1 }.setPool place p)

/-- Gives up waiting. -/
def giveUp (w : World) (place : Nat) (waiter : Waiter) : World :=
  w.modifyPool place (·.giveUp waiter)

/-- Looks again for a permit. -/
def askAgain (w : World) (place : Nat) (scope : ScopeId) (waiter : Waiter) : Asked × World :=
  match w.pools[place]? with
  | none => (.refused .shuttingDown, w)
  | some p =>
    -- a permit that was granted meanwhile is handed on to the next in line
    if w.hasFired scope then (.refused .cancelled, w.giveUp place waiter)
    else
      let (found, p) := p.look waiter
      (.ofAnswer waiter found, w.setPool place p)

/-- Takes the next context out of the queue for one who has a permit. -/
def handOut (w : World) (place : Nat) (scope : ScopeId) : Outcome ContextId × World :=
  match w.pools[place]? with
  | none => (refuse .shuttingDown, w)
  | some p =>
    match p.takeIdle with
    | (.error e, p) => (.error e, w.setPool place p)
    | (.ok c, p) =>
      let slot := (w.contexts[c]?.map Context.slot).getD 0
      (.ok c, ((w.setPool place (p.count Counters.lend)).modifyContext c fun x =>
        { x with scope }).log (slotEvent .trace "Context borrowed" p.id slot))

/-- Goes on with what one who asked for a permit found. -/
def answer (place : Nat) (scope : ScopeId) : Asked × World → Borrowed × World
  | (.permitted, w) =>
    let (result, w) := w.handOut place scope
    (.answered result, w)
  | (.inLine waiter, w) => (.waiting waiter, w)
  | (.refused cause, w) => (.answered (refuse cause), w)

/-- Asks for a context of a pool. A closed pool refuses before the scope is looked at. -/
def acquire (w : World) (place : Nat) (scope : ScopeId) : Borrowed × World :=
  -- a pool that closes while one waits for a permit refuses later, in what is found
  if w.isOpen place then answer place scope (w.ask place scope)
  else (.answered (refuse .shuttingDown), w)

/-- Looks again for a context. -/
def lookAgain (w : World) (place : Nat) (scope : ScopeId) (waiter : Waiter) : Borrowed × World :=
  answer place scope (w.askAgain place scope waiter)

/-- Takes a context's handles, and its caller's scope, away. -/
def clear (w : World) (c : ContextId) : World :=
  let (scope, w) := w.freshScope
  w.modifyContext c fun x => { x with handles := x.handles.reset, scope }

/-- Puts a context into the queue of a pool, or disposes of it if the pool is closed. -/
def enqueue (w : World) (place : Nat) (c : ContextId) : Option Pool.Returned × World :=
  let w := w.clear c
  match w.pools[place]?, w.contexts[c]? with
  | some p, some x =>
    match p.pushIdle c with
    | (.disposed, p) =>
      (some .disposed, (w.setPool place (p.count Counters.takeBack)).log
        (slotEvent .debug "Pool closed; context disposed" p.id x.slot))
    | (returned, p) => (some returned, w.setPool place p)
  | _, _ => (none, w)

/-- Gives the permit of a context that was queued. -/
def announce (w : World) (place : Nat) (c : ContextId) : World :=
  match w.pools[place]?, w.contexts[c]? with
  | some p, some x =>
    (w.setPool place (p.count Counters.takeBack).addPermit).log
      (slotEvent .trace "Context returned" p.id x.slot)
  | _, _ => w

/-- Puts a context back into the queue of its pool, without handles and with a fresh scope. -/
def requeue (w : World) (place : Nat) (c : ContextId) : Outcome Unit × World :=
  match w.enqueue place c with
  -- the context is in the queue before anyone can hold the permit for it
  | (some .queued, w) => (.ok (), w.announce place c)
  | (some .disposed, w) => (.ok (), w)
  | (some .overfull, w) =>
    let capacity := ((w.pools[place]?).map Pool.capacity).getD 0
    (refuse (.internal
      ("release would overfill the pool beyond " ++ toString capacity ++ " contexts")), w)
  | (none, w) => (refuse (.internal "no such context"), w)

/-- Takes its caller's scope away from a context, and the record of an abandoned call. -/
def letGo (w : World) (c : ContextId) : Option CallId × World :=
  let (scope, w) := w.freshScope
  ((w.contexts[c]?).bind Context.inFlight,
    w.modifyContext c fun x => { x with scope, inFlight := none })

/-- Gives a context back to a pool, which must be its own. While an abandoned call runs on it,
the context is deferred. -/
def release (w : World) (place : Nat) (c : ContextId) : Outcome Unit × World :=
  match w.pools[place]?, w.contexts[c]? with
  | some p, some x =>
    if x.pool ≠ p.id then
      (refuse (.internal ("context from pool " ++ toString x.pool ++ " released into pool " ++
        toString p.id)), w)
    else
      -- the borrower's scope is let go even if the context has to wait
      match w.letGo c with
      | (none, w) => w.requeue place c
      | (some call, w) =>
        (.ok (), { w with deferred := w.deferred ++ [(c, call)] }.log
          (slotEvent .debug "Deferring requeue until background call settles" p.id x.slot))
  | _, _ => (refuse (.internal "no such context"), w)

/-- Puts back a deferred context whose call is over. -/
def putBack (w : World) (c : ContextId) : World :=
  let w := w.count c Counters.settle
  match (w.contexts[c]?).bind fun x => w.poolIndex? x.pool with
  | none => w
  | some place =>
    match w.requeue place c with
    | (.ok (), w) => w
    | (.error e, w) =>
      w.log ⟨.error, .pool, "Failed to requeue settled context", [("error", e.message)]⟩

/-- Puts back the deferred contexts whose calls are over. -/
def settleDeferred (w : World) : World :=
  let (ended, still) := w.deferred.partition fun d => (w.ended? d.2).isSome
  ended.foldl (fun w d => w.putBack d.1) { w with deferred := still }

/-- Lets everything go on that can without a caller. -/
def runBackground (w : World) : World := w.carryAll.settleDeferred

/-- Closes a pool: its idle contexts are gone, the others go when they are given back. -/
def close (w : World) (place : Nat) : World :=
  match (w.pools[place]?).bind fun p => p.close? with
  | none => w
  | some (disposed, p) =>
    (w.setPool place p).log ⟨.info, .pool, "Execution context pool closed",
      [("pool_id", toString p.id), ("disposed", toString disposed.length),
        ("still_borrowed", toString (p.capacity - disposed.length))]⟩

/-- Borrows a context and waits for one as long as something may still come back. One who would
wait for ever gives up. -/
def borrow (w : World) (place : Nat) (scope : ScopeId) : Outcome ContextId × World :=
  match w.acquire place scope with
  | (.answered result, w) => (result, w)
  | (.waiting waiter, w) =>
    match w.runBackground.lookAgain place scope waiter with
    | (.answered result, w) => (result, w)
    | (.waiting waiter, w) => (refuse .cancelled, w.giveUp place waiter)

/-- How a callback that was given a context ended; a panic may come without words. -/
inductive CallbackEnd (α : Type) where
  | returned (result : Outcome α)
  | panicked (message : Option String)

/-- Gives a context back after a callback. A panic is counted, and becomes a failure; a refusal
to take the context back comes before the callback's own result. -/
def conclude {α : Type} (w : World) (place : Nat) (c : ContextId) (ended : CallbackEnd α) :
    Outcome α × World :=
  let (released, w) := w.release place c
  let (result, w) : Outcome α × World :=
    match ended with
    | .returned result => (result, w)
    | .panicked message =>
      let words := message.getD "callback panicked"
      (refuse (.fault words),
        (w.modifyPool place (·.count Counters.fault)).log
          ⟨.error, .pool, "Callback panicked while holding a context", [("panic", words)]⟩)
  (released.bind fun _ => result, w)

/-- Borrows a context, runs a callback with it and gives it back however the callback ends. What
the callback reports beside its end is there only if it was run. -/
def withContext {α β : Type} (w : World) (place : Nat) (scope : ScopeId)
    (callback : ContextId → World → α × CallbackEnd β × World) :
    Option α × Outcome β × World :=
  match w.borrow place scope with
  | (.error e, w) => (none, .error e, w)
  | (.ok c, w) =>
    let (report, ended, w) := callback c w
    let (result, w) := w.conclude place c ended
    (some report, result, w)

end World
end SandboxPool
