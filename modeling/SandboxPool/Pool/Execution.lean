import SandboxPool.Pool.Lending

/-!
# Executing guest functions

An execution on a context first waits for a call that an earlier execution abandoned, then begins
its own and waits for that; a fired scope or the deadline ends either wait. `World.poll` looks
once at how an execution stands; the deadline is the same for both waits. An execution that loses
the wait for its own call abandons it: the call stays recorded on the context, because the guest
cannot be interrupted.
-/

namespace SandboxPool

/-- What an execution waits for. -/
inductive Phase where
  /-- It has not looked at anything yet. -/
  | fresh
  /-- An earlier call has to end first. -/
  | behind (earlier : CallId)
  /-- Its own call is under way. -/
  | running (own : CallId)
  deriving Repr, DecidableEq

/-- An execution on a context of a guest function, be it of the context's own guest or of another
one. -/
structure Execution where
  context : ContextId
  function : NativeFunction
  args : List Value
  phase : Phase
  deriving Repr

/-- How an execution stands. -/
inductive Polled where
  | done (result : Outcome (List Value))
  | pending (e : Execution)

namespace World

/-- Ends an execution because its caller's scope has fired. -/
def loseToScope (w : World) (e : Execution) : Polled × World :=
  (.done (refuse .cancelled), w.count e.context Counters.cancel)

/-- Ends an execution because its deadline has passed; the log says so with `message`. -/
def loseToDeadline (w : World) (e : Execution) (x : Context) (message : String) : Polled × World :=
  (.done (refuse (.timedOut e.function.name x.timeout)),
    (w.log ⟨.warn, .context, message,
      [("slot", toString x.slot), ("function", Text.quote e.function.name),
        ("timeout_ms", toString x.timeout.millis)]⟩).count e.context Counters.timeOut)

/-- Leaves a call to itself and records it on its context. -/
def abandon (w : World) (c : ContextId) (call : CallId) : World :=
  (w.count c Counters.abandon).modifyContext c fun x => { x with inFlight := some call }

/-- Hands the call of an execution to a worker, unless its caller's scope has fired; `goOn` is
how far the worker gets at once. -/
def beginOwn (w : World) (e : Execution) (x : Context) (goOn : World → CallId → World) :
    Polled × World :=
  if w.hasFired x.scope then (.done (refuse .cancelled), w)
  else
    match w.begin e.function e.args with
    | .error failure => (.done (.error failure), w)
    | .ok run =>
      let (own, w) := w.spawn e.context e.function run
      (.pending { e with phase := .running own }, goOn w own)

/-- Looks at an execution that waits for an earlier call. -/
def pollBehind (w : World) (e : Execution) (x : Context) (earlier : CallId) (late : Bool)
    (goOn : World → CallId → World) : Polled × World :=
  if (w.ended? earlier).isSome then
    let w := (w.modifyContext e.context fun x => { x with inFlight := none }).count e.context
      Counters.settle
    let w := w.log ⟨.debug, .context, "Background guest call settled",
      [("slot", toString x.slot)]⟩
    -- the scope may have fired while the execution waited
    w.beginOwn e x goOn
  else if w.hasFired x.scope then w.loseToScope e
  else if late then w.loseToDeadline e x "Previous guest call still running at deadline"
  else (.pending { e with phase := .behind earlier }, w)

/-- Looks at an execution whose own call is under way. -/
def pollRunning (w : World) (e : Execution) (x : Context) (own : CallId) (late : Bool) :
    Polled × World :=
  -- an end that is there counts, even if the scope has fired or the deadline has passed
  match w.ended? own with
  | some (.returned result) => (.done result, w.count e.context Counters.complete)
  | some .panicked =>
    (.done (refuse (.fault ("guest function '" ++ e.function.name ++ "' panicked"))),
      w.count e.context Counters.fault)
  | none =>
    if w.hasFired x.scope then
      let w := w.log ⟨.debug, .context, "Guest call cancelled",
        [("slot", toString x.slot), ("function", Text.quote e.function.name)]⟩
      let (ended, w) := w.loseToScope e
      (ended, w.abandon e.context own)
    else if late then
      let (ended, w) := w.loseToDeadline e x "Guest call timed out"
      (ended, w.abandon e.context own)
    else (.pending e, w)

/-- Looks once at an execution; `late` tells that its deadline has passed, `goOn` how far a call
that begins gets before anything else happens. -/
def pollWith (goOn : World → CallId → World) (w : World) (e : Execution) (late : Bool) :
    Polled × World :=
  match w.contexts[e.context]? with
  | none => (.done (refuse (.internal "no such context")), w)
  | some x =>
    match e.phase with
    | .fresh =>
      match x.inFlight with
      | some earlier => w.pollBehind e x earlier late goOn
      | none => w.beginOwn e x goOn
    | .behind earlier => w.pollBehind e x earlier late goOn
    | .running own => w.pollRunning e x own late

/-- Looks once at an execution. A call that begins goes on as far as it can, but not past the
gates in `shut`. -/
def poll (w : World) (e : Execution) (late : Bool) (shut : List String) : Polled × World :=
  w.pollWith (carryOn shut) e late

/-- A function of a context's guest, or the refusal of one that is not there. -/
def function (w : World) (c : ContextId) (name : String) : Outcome NativeFunction :=
  match w.contexts[c]? with
  | none => refuse (.internal "no such context")
  | some x => (x.guest.function name).map fun _ => ⟨c, name⟩

/-- An execution of a function of a context's own guest, or the refusal of one that is not there. -/
def prepare (w : World) (c : ContextId) (function : String) (args : List Value) :
    Outcome Execution :=
  (w.function c function).map fun f => ⟨c, f, args, .fresh⟩

/-- Looks at an execution up to `times` times, with everything else going on in between. -/
def pollFor (shut : List String) : (times : Nat) → World → Execution → Polled × World
  | 0, w, e => (.pending e, w)
  | times + 1, w, e =>
    match w.poll e false shut with
    | (.pending e, w) => pollFor shut times w.runBackground e
    | (.done result, w) => (.done result, w)

/-- The number of looks after which nothing more happens before the deadline: at an earlier call,
at the beginning of the execution's own, at its end. -/
def looks : Nat := 3

/-- Drives an execution to its end. What has not happened when nothing more can happen by itself
does not happen before the deadline. -/
def drive (w : World) (e : Execution) : Outcome (List Value) × World :=
  match pollFor [] looks w e with
  | (.done result, w) => (result, w)
  | (.pending e, w) =>
    match w.poll e true [] with
    | (.done result, w) => (result, w)
    | (.pending _, w) => (refuse .cancelled, w)

/-- Executes a function of a context's guest. -/
def execute (w : World) (c : ContextId) (function : String) (args : List Value) :
    Outcome (List Value) × World :=
  match w.prepare c function args with
  | .error e => (.error e, w)
  | .ok e => w.drive e

/-- True if an execution's own call stands at a gate, or waits for a lock client behind it. -/
def standsAt (w : World) (e : Execution) (gate : String) : Bool :=
  match e.phase with
  | .running own =>
    match (w.calls[own]?).map Call.state with
    | some (.atGate g _) => g = gate
    | some (.waiting _ g _) => g = gate
    | _ => false
  | _ => false

/-- Executes a function and fires a scope as soon as the guest has come to a gate, before it gets
any further. -/
def executeCancelling (w : World) (c : ContextId) (function : String) (args : List Value)
    (gate : String) (scope : ScopeId) : Outcome (List Value) × World :=
  match w.prepare c function args with
  | .error e => (.error e, w)
  | .ok e =>
    match pollFor [gate] looks w e with
    | (.done result, w) => (result, w)
    | (.pending e, w) =>
      let w := if w.standsAt e gate then w.fire scope else w
      match w.poll e false [] with
      -- the abandoned call gets past the gate as soon as nobody waits for it
      | (.done result, w) => (result, w.carryAll)
      | (.pending e, w) => w.carryAll.drive e

end World
end SandboxPool
