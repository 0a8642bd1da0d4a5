import SandboxPool.Pool.Options

/-!
# Building a context

A context is built in phases. Every capability in turn is created and defines its functions; then
the module is instantiated against all of them and its memory is looked up; then every capability
may bind guest exports. The first failure ends it all. An export that a capability misses becomes
a failure to register that capability.
-/

namespace SandboxPool
namespace Building

/-- Carries on with what an outcome holds, or ends with its failure. -/
def andThen {α β σ : Type} (r : Outcome α × σ) (next : α → σ → Outcome β × σ) : Outcome β × σ :=
  match r with
  | (.ok a, s) => next a s
  | (.error e, s) => (.error e, s)

/-- Ends with a failure if there is one. -/
def failing (e : Option Failure) : Outcome Unit :=
  match e with
  | some e => .error e
  | none => .ok ()

/-- What a custom capability notes when it looks at its context before the guest is there. -/
def probeNote (slot : Nat) : Note :=
  .probed (refuse (.internal "context memory requested before instantiation"))
    (Capability.contextDiagnostic slot false)

/-- Creates a capability for a slot. -/
def create (slot : Nat) (c : Capability) (h : HostState) : Outcome Unit × HostState :=
  match c with
  | .custom custom =>
    let h := h.note (.created custom.group slot)
    let h := if custom.probe then h.note (probeNote slot) else h
    (failing (custom.failCreate.report slot), h)
  | _ => (.ok (), h)

/-- Lets a capability define its functions for a slot. -/
def exportFunctions (slot : Nat) (c : Capability) (imports : Imports) (h : HostState) :
    Outcome Imports × HostState :=
  match c with
  | .custom custom =>
    let h := h.note (.exported custom.group)
    ((Capability.defineAll imports c.functions).bind fun imports =>
      (failing (custom.failExport.report slot)).map fun _ => imports, h)
  | _ => (Capability.defineAll imports c.functions, h)

/-- Creates capabilities one after another and lets each define its functions. -/
def exportAll (slot : Nat) : List Capability → Imports → HostState → Outcome Imports × HostState
  | [], imports, h => (.ok imports, h)
  | c :: rest, imports, h =>
    andThen (create slot c h) fun _ h =>
      andThen (exportFunctions slot c imports h) fun imports h => exportAll slot rest imports h

/-- Lets a capability bind exports of the guest of a slot. -/
def bind (slot : Nat) (c : Capability) (g : GuestInstance) (h : HostState) :
    Outcome Unit × HostState :=
  match c with
  | .handlers =>
    match g.function Capability.handleEventExport with
    | .error e => (.error e, h)
    | .ok () =>
      let rewrites := Text.ofBool (g.hasFunction Capability.rewriteHeadersExport)
      (.ok (), h.log
        ⟨.debug, .handlers, "Plugin handlers bound", [("rewrites_headers", rewrites)]⟩)
  | .custom custom =>
    ((custom.bind.forM g.function).bind fun _ => failing (custom.failBind.report slot),
      h.note (.imported custom.group))
  | _ => (.ok (), h)

/-- The failure of a capability to bind, as the one who builds sees it. -/
def bindFailure (c : Capability) (e : Failure) : Failure :=
  if e.kind = .notImplemented then ⟨.registration c.group e.message, e.chain⟩ else e

/-- Lets capabilities bind guest exports one after another. -/
def bindAll (slot : Nat) : List Capability → GuestInstance → HostState → Outcome Unit × HostState
  | [], _, h => (.ok (), h)
  | c :: rest, g, h =>
    match bind slot c g h with
    | (.ok (), h) => bindAll slot rest g h
    | (.error e, h) => (.error (bindFailure c e), h)

/-- What a slot begins with: an empty handle table and a scope that has not fired. -/
def freshHost (slot : Nat) (services : Services) (journal : Journal) : HostState :=
  ⟨slot, .empty, false, services, journal⟩

/-- Builds the guest of a slot; `pool` stands in the log. -/
def guest (pool slot : Nat) (module : GuestModule) (memoryLimit : Nat) (o : PoolOptions)
    (h : HostState) : Outcome GuestInstance × HostState :=
  andThen (exportAll slot o.capabilities .empty h) fun imports h =>
    andThen (module.instantiate imports memoryLimit h) fun g h =>
      andThen ((g.memory o.memoryExport).map fun _ => (), h) fun _ h =>
        andThen (bindAll slot o.capabilities g h) fun _ h =>
          (.ok g, h.log ⟨.debug, .pool, "Execution context built",
            [("pool_id", toString pool), ("slot", toString slot),
              ("functions", toString imports.size)]⟩)

end Building
end SandboxPool
