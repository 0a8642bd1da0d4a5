import SandboxPool.Pool.Handlers

/-!
# Working with pools by name

A session keeps what a user works with under names of the user's choice: pools, contexts that are
lent, requests for a context that still wait, executions that have begun, and scopes. A scope
comes into being when it is first named. A context is not at hand while an execution that was
begun on it has not been joined.
-/

namespace SandboxPool

/-- A request for a context that waits. -/
structure Waiting where
  place : Nat
  scope : ScopeId
  waiter : Waiter

/-- What a user works with, the latest entries first. -/
structure Session where
  world : World
  pools : List (String × Nat)
  held : List (String × ContextId)
  waiting : List (String × Waiting)
  started : List (String × ContextId × Execution)
  scopes : List (String × ScopeId)

namespace Session

/-- What a user finds: a result, something that is not decided yet, or no such name. -/
inductive Reply (α : Type) where
  | done (result : Outcome α)
  | pending
  | unknown

/-- A session in which nothing has a name. -/
def ofWorld (world : World) : Session := ⟨world, [], [], [], [], []⟩

/-- The entries without those under a name. -/
def without {α : Type} (name : String) (entries : List (String × α)) : List (String × α) :=
  entries.filter fun e => e.1 ≠ name

/-- Does something to the world. -/
def act {α : Type} (s : Session) (r : α × World) : α × Session := (r.1, { s with world := r.2 })

/-- The scope of a name, or a scope that nobody else has. -/
def scope (s : Session) (name : Option String) : ScopeId × Session :=
  match name.bind fun n => s.scopes.lookup n with
  | some scope => (scope, s)
  | none =>
    let (scope, world) := s.world.freshScope
    let scopes := (name.map fun n => (n, scope)).toList ++ s.scopes
    (scope, { s with world, scopes })

/-- The pool of a name. -/
def pool? (s : Session) (name : String) : Option (Nat × Pool) := do
  let place ← s.pools.lookup name
  return (place, ← s.world.pools[place]?)

/-- The context of a name. -/
def context? (s : Session) (name : String) : Option (ContextId × Context) := do
  let c ← s.held.lookup name
  return (c, ← s.world.contexts[c]?)

/-- Makes a pool. -/
def openPool (s : Session) (name : String) (o : PoolOptions) (hosted : Bool) :
    Outcome Unit × Session :=
  match s.world.openPool o hosted with
  | (.ok place, world) => (.ok (), { s with world, pools := (name, place) :: s.pools })
  | (.error e, world) => (.error e, { s with world })

/-- Takes in what one who asked for a context found. -/
def take (s : Session) (name : String) (place : Nat) (scope : ScopeId)
    (found : World.Borrowed × World) : Reply ContextId × Session :=
  let s := { s with world := found.2, waiting := without name s.waiting }
  match found.1 with
  | .answered (.ok c) => (.done (.ok c), { s with held := (name, c) :: without name s.held })
  | .answered (.error e) => (.done (.error e), s)
  | .waiting waiter => (.pending, { s with waiting := (name, ⟨place, scope, waiter⟩) :: s.waiting })

/-- Asks for a context of a pool. -/
def acquire (s : Session) (name : String) (place : Nat) (token : Option String) :
    Reply ContextId × Session :=
  let (scope, s) := s.scope token
  s.take name place scope (s.world.acquire place scope)

/-- Looks again for a context. -/
def look (s : Session) (name : String) : Reply ContextId × Session :=
  match s.waiting.lookup name with
  | none => (.unknown, s)
  | some v => s.take name v.place v.scope (s.world.lookAgain v.place v.scope v.waiter)

/-- Gives up waiting for a context; false if nobody waits under the name. -/
def giveUp (s : Session) (name : String) : Bool × Session :=
  match s.waiting.lookup name with
  | none => (false, s)
  | some v => (true, { s with
      world := s.world.giveUp v.place v.waiter
      waiting := without name s.waiting })

/-- Gives a context back to its pool, or to another one that is named. -/
def release (s : Session) (name : String) (pool : Option String) : Reply Unit × Session :=
  match s.context? name with
  | none => (.unknown, s)
  | some (c, x) =>
    let place := match pool with
      | some pool => s.pools.lookup pool
      | none => s.world.poolIndex? x.pool
    let s := { s with held := without name s.held }
    match place with
    | none => (.unknown, s)
    | some place =>
      let (result, s) := s.act (s.world.release place c)
      (.done result, s)

/-- Forgets a context without giving it back; false if there is none under the name. -/
def forget (s : Session) (name : String) : Bool × Session :=
  ((s.held.lookup name).isSome, { s with held := without name s.held })

/-- Begins an execution on a context and looks at it once. -/
def start (s : Session) (name function : String) (args : List Value) :
    Reply (List Value) × Session :=
  match s.context? name with
  | none => (.unknown, s)
  | some (c, _) =>
    match s.world.prepare c function args with
    | .error e => (.done (.error e), s)
    | .ok e =>
      match s.world.poll e false [] with
      | (.done result, world) => (.done result, { s with world })
      | (.pending e, world) => (.pending, { s with
          world
          held := without name s.held
          started := (name, c, e) :: s.started })

/-- Drives an execution that has begun to its end. -/
def join (s : Session) (name : String) : Reply (List Value) × Session :=
  match s.started.lookup name with
  | none => (.unknown, s)
  | some (c, e) =>
    let (result, s) := s.act (s.world.drive e)
    (.done result, { s with
      started := without name s.started
      held := (name, c) :: s.held })

/-- Fires the scope of a name. Guests that wait for a lock client under it go on. -/
def fire (s : Session) (token : String) : Session :=
  let (scope, s) := s.scope (some token)
  { s with world := (s.world.fire scope).carryAll }

/-- Waits until nothing goes on any more by itself. -/
def settle (s : Session) : Session := { s with world := s.world.runBackground }

/-- Borrows a context, runs a callback and gives the context back; what the callback reports is
there only if it was run. -/
def withContext {α β : Type} (s : Session) (place : Nat) (token : Option String)
    (callback : ContextId → Session → α × World.CallbackEnd β × Session) :
    Option α × Outcome β × Session :=
  let (scope, s) := s.scope token
  let (report, result, world) := s.world.withContext place scope fun c world =>
    let (a, ended, s) := callback c { s with world }
    ((a, s), ended, s.world)
  let s := (report.map Prod.snd).getD s
  (report.map Prod.fst, result, { s with world })

end Session
end SandboxPool
