import SandboxPool.Pool.Building
import SandboxPool.Pool.Basic

/-!
# Pools, contexts and guest calls together

A `World` holds everything that lives at the same time: pools, their contexts, the guest calls
under way, the services behind the contexts, and what has happened so far. A guest call runs on
its own, at once and as far as it can: until it ends, or stands at a closed gate, or waits for a
lock client. It cannot be interrupted; only a lock client's answer can be given up, when the scope
fires that the context had when the wait began.
-/

namespace SandboxPool

/-- A caller's cancellation scope. -/
abbrev ScopeId := Nat

/-- A guest call, by its number. -/
abbrev CallId := Nat

/-- One instantiated guest, lent to one caller at a time. -/
structure Context where
  pool : Nat
  slot : Nat
  capabilities : List Capability
  timeout : Duration
  guest : GuestInstance
  handles : HandleTable
  /-- The scope of the caller who has the context. -/
  scope : ScopeId
  /-- An abandoned call that nobody has joined yet. -/
  inFlight : Option CallId

/-- How a guest call ended. -/
inductive CallEnd where
  | returned (result : Outcome (List Value))
  | panicked
  deriving Repr

/-- A guest call: where it stands, or how it ended. -/
inductive CallState where
  | ready (run : GuestRun)
  | atGate (gate : String) (run : GuestRun)
  | waiting (scope : ScopeId) (gate : String) (run : GuestRun)
  | ended (result : CallEnd)

/-- A function that a guest exports, with the context whose guest that is. Whoever is handed the
function runs it there. -/
structure NativeFunction where
  home : ContextId
  name : String
  deriving Repr, DecidableEq

/-- A guest call. -/
structure Call where
  /-- The context on which it was begun, and which has to wait for it. -/
  context : ContextId
  function : NativeFunction
  state : CallState

/-- The context whose guest runs a call. -/
def Call.home (call : Call) : ContextId := call.function.home

/-- Everything that lives at the same time. -/
structure World where
  engine : Engine
  pools : Array Pool
  /-- The number the next pool gets. -/
  nextPool : Nat
  contexts : Array Context
  calls : Array Call
  services : Services
  journal : Journal
  fired : List ScopeId
  nextScope : ScopeId
  nextWaiter : Waiter
  openGates : List String
  /-- Contexts that were released while a call was running on them, with that call. -/
  deferred : List (ContextId × CallId)
  deriving Inhabited

namespace World

/-- A world without pools. -/
def ofEngine (engine : Engine) (services : Services) : World :=
  { engine, pools := #[], nextPool := 1, contexts := #[], calls := #[], services,
    journal := .empty, fired := [], nextScope := 0, nextWaiter := 0, openGates := [],
    deferred := [] }

/-- Logs an event. -/
def log (w : World) (e : Log.Event) : World := { w with journal := w.journal.log e }

/-- A scope that nobody else has. -/
def freshScope (w : World) : ScopeId × World :=
  (w.nextScope, { w with nextScope := w.nextScope + 1 })

/-- True if a scope has fired. -/
def hasFired (w : World) (s : ScopeId) : Bool := w.fired.contains s

/-- Changes a context. -/
def modifyContext (w : World) (c : ContextId) (f : Context → Context) : World :=
  { w with contexts := w.contexts.modify c f }

/-- Changes a pool. -/
def modifyPool (w : World) (p : Nat) (f : Pool → Pool) : World :=
  { w with pools := w.pools.modify p f }

/-- The place of the pool with a number. -/
def poolIndex? (w : World) (id : Nat) : Option Nat := w.pools.findIdx? fun p => p.id = id

/-- Changes the counters of the pool that a context belongs to. -/
def count (w : World) (c : ContextId) (f : Counters → Counters) : World :=
  match (w.contexts[c]?).bind fun x => w.poolIndex? x.pool with
  | some p => w.modifyPool p (·.count f)
  | none => w

/-- The context as host functions see it. -/
def hostState (w : World) (c : Context) : HostState :=
  ⟨c.slot, c.handles, w.hasFired c.scope, w.services, w.journal⟩

/-- Takes over what guests and host functions have changed. -/
def absorb (w : World) (c : ContextId) (g : GuestInstance) (h : HostState) : World :=
  { w with services := h.services, journal := h.journal }.modifyContext c fun x =>
    { x with guest := g, handles := h.handles }

/-- Where a call stands after it was carried on. -/
def stateOf (scope : ScopeId) : Progress GuestRun → CallState
  | .finished r => .ended (.returned r)
  | .panicked _ => .ended .panicked
  | .atGate gate run => .atGate gate run
  | .waiting gate run => .waiting scope gate run
  | .running run => .ready run

/-- Carries a call on by one of the ways a guest can be carried on. The guest, its host functions
and the scope that they look at are those of the function's home. -/
def carry (w : World) (id : CallId) (call : Call)
    (act : GuestInstance → HostState → Progress GuestRun × GuestInstance × HostState) : World :=
  match w.contexts[call.home]? with
  | none => w
  | some c =>
    let (progress, g, h) := act c.guest (w.hostState c)
    let w := w.absorb call.home g h
    { w with calls := w.calls.setIfInBounds id { call with state := stateOf c.scope progress } }

/-- Carries a call on if it can go on, by at most the steps that `fuel` gives it; `shut` names
gates that count as closed. -/
def carryFor (fuel : GuestRun → Nat) (shut : List String) (w : World) (id : CallId) : World :=
  let gates := w.openGates.filter fun g => !shut.contains g
  match w.calls[id]? with
  | none => w
  | some call =>
    match call.state with
    | .ready run => w.carry id call (run.advanceFor gates (fuel run))
    | .atGate gate run =>
      if gates.contains gate then w.carry id call (run.advanceFor gates (fuel run)) else w
    | .waiting scope _ run =>
      if w.hasFired scope then
        w.carry id call (run.interruptFor gates (fuel run) ⟨.cancelled, []⟩)
      else w
    | .ended _ => w

/-- Carries a call on if it can go on, as far as it can. -/
def carryOn (shut : List String) (w : World) (id : CallId) : World :=
  w.carryFor GuestRun.budget shut id

/-- Carries all calls on that can go on, the oldest first. -/
def carryAll (w : World) : World :=
  (List.range w.calls.size).foldl (carryOn []) w

/-- What comes of calling a function, before it has done anything. -/
def begin (w : World) (f : NativeFunction) (args : List Value) : Outcome GuestRun :=
  match w.contexts[f.home]? with
  | none => refuse (.internal "no such context")
  | some x => x.guest.start f.name args

/-- Hands a call to a worker, which has not begun it yet. -/
def spawn (w : World) (c : ContextId) (f : NativeFunction) (run : GuestRun) : CallId × World :=
  (w.calls.size, { w with calls := w.calls.push ⟨c, f, .ready run⟩ })

/-- How a call ended, if it has. -/
def ended? (w : World) (id : CallId) : Option CallEnd :=
  match (w.calls[id]?).map Call.state with
  | some (.ended r) => some r
  | _ => none

/-- Opens a gate. -/
def openGate (w : World) (gate : String) : World :=
  { w with openGates := gate :: w.openGates }.carryAll

/-- Fires a scope. Guests that wait for a lock client under it go on once they are carried on. -/
def fire (w : World) (s : ScopeId) : World := { w with fired := s :: w.fired }

end World
end SandboxPool
