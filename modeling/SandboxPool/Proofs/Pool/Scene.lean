import SandboxPool.Pool.Execution
import Mathlib.Logic.Relation

/-!
# Everything at once

A `World` changes by operations that each take place at one moment. This file says in which order
they may come: in any. A `Scene` is a world and the tasks that are in the middle of something, and
`Scene.Step` lets one of them, or a guest call, or somebody outside, do the next thing.

* An acquire is split at its look whether the pool is open (`enter`), at the answer of the permits
  (`ask`, `look`, `giveUp`) and at the pop of the queue (`take`).
* A release is split at letting go of the scope (`release`), at the end of an abandoned call
  (`settle`), at the push into the queue (`enqueue`) and at the permit (`announce`).
* An execution moves by one look at a time (`poll`), at which its deadline may or may not have
  passed; it is looked at until it is done.
* A guest call goes on by any number of steps (`carry`), whoever waits for it.
-/

namespace SandboxPool

/-- Where someone stands who has to do with the contexts of the pool at a place. -/
inductive Task where
  /-- Found the pool open, and has not asked for a permit yet. -/
  | asking (place : Nat) (scope : ScopeId)
  /-- Asked for a permit and waits for it. -/
  | waiting (place : Nat) (scope : ScopeId) (waiter : Waiter)
  /-- Has a permit, and has not taken a context yet. -/
  | permitted (place : Nat) (scope : ScopeId)
  /-- Has a context, and may be executing something on it. -/
  | holding (place : Nat) (scope : ScopeId) (c : ContextId) (execution : Option Execution)
  /-- Gave a context back while an abandoned call was on it; the borrow was under `scope`. -/
  | settling (place : Nat) (scope : ScopeId) (c : ContextId) (call : CallId)
  /-- Has a context that nobody uses any more, and has not queued it yet. -/
  | returning (place : Nat) (c : ContextId)
  /-- Queued a context, and has not given its permit yet. -/
  | queued (place : Nat) (c : ContextId)

namespace Task

/-- The place of the pool. -/
def place : Task → Nat
  | asking place _ | waiting place .. | permitted place _ | holding place .. | settling place ..
  | returning place _ | queued place _ => place

/-- The context that is out of the queue because of the task. -/
def context? : Task → Option ContextId
  | holding _ _ c _ | settling _ _ c _ | returning _ c => some c
  | _ => none

/-- The name under which the task waits for a permit. -/
def waiter? : Task → Option Waiter
  | waiting _ _ v => some v
  | _ => none

/-- What follows an answer of the permits. -/
def ofAsked (place : Nat) (scope : ScopeId) : World.Asked → Option Task
  | .refused _ => none
  | .permitted => some (.permitted place scope)
  | .inLine v => some (.waiting place scope v)

/-- What follows a look into the queue. -/
def ofTaken (place : Nat) (scope : ScopeId) : Outcome ContextId → Option Task
  | .ok c => some (.holding place scope c none)
  | .error _ => none

/-- What follows letting a context go, by the call that is recorded on it. -/
def ofLetGo (place : Nat) (scope : ScopeId) (c : ContextId) : Option CallId → Task
  | none => .returning place c
  | some call => .settling place scope c call

/-- What follows a push into the queue. -/
def ofReturned (place : Nat) (c : ContextId) : Option Pool.Returned → Option Task
  | some .queued => some (.queued place c)
  | _ => none

/-- Whatever has not been queued leaves no task. -/
theorem ofReturned_eq_none {place : Nat} {c : ContextId} {returned : Option Pool.Returned}
    (hother : returned ≠ some .queued) : ofReturned place c returned = none := by
  unfold ofReturned
  split
  · exact absurd rfl hother
  · rfl

/-- The task that is left is the one that owes the context's permit. -/
theorem mem_ofReturned {place : Nat} {c : ContextId} {returned : Option Pool.Returned} {task : Task}
    (hmember : task ∈ (ofReturned place c returned).toList) : task = .queued place c := by
  unfold ofReturned at hmember
  split at hmember
  · exact List.mem_singleton.mp hmember
  · cases hmember

/-! ## One task among others -/

variable {task other : Task} {tasks l us r : List Task}

/-- Whoever is in a scene is the one at hand or one of the others. -/
theorem eq_or_rest (hbefore : tasks = l ++ task :: r) (hmember : other ∈ tasks) :
    other = task ∨ other ∈ l ++ r := by
  rw [hbefore, List.mem_append, List.mem_cons] at hmember
  rw [List.mem_append]
  rcases hmember with hleft | hsame | hright
  · exact .inr (.inl hleft)
  · exact .inl hsame
  · exact .inr (.inr hright)

/-- After a step the tasks are those that it has led to and the others. -/
theorem mem_among : other ∈ l ++ us ++ r ↔ other ∈ us ∨ other ∈ l ++ r := by
  simp only [List.mem_append]
  exact ⟨Or.rec (Or.rec (.inr ∘ .inl) .inl) (.inr ∘ .inr),
    Or.rec (.inl ∘ .inr) (Or.rec (.inl ∘ .inl) .inr)⟩

theorem mem_beside (hrest : other ∈ l ++ r) : other ∈ l ++ task :: r := by
  rw [List.append_cons]
  exact mem_among.mpr (.inr hrest)

end Task

/-- What is left of an execution after a look at it. -/
def Polled.rest : Polled → Option Execution
  | .done _ => none
  | .pending e => some e

namespace Execution

/-- The call that an execution has begun. -/
def own? (e : Execution) : Option CallId :=
  match e.phase with
  | .running own => some own
  | _ => none

/-- The call an execution on a context waits for. -/
def awaits (e : Execution) (x : Context) : Option CallId :=
  match e.phase with
  | .fresh => x.inFlight
  | .behind earlier => some earlier
  | .running own => some own

variable {e : Execution} {x : Context} {own : CallId}

theorem own?_eq_some : e.own? = some own ↔ e.phase = .running own := by
  unfold own?
  cases e.phase <;> simp

theorem awaits_of_running (hphase : e.phase = .running own) : e.awaits x = some own := by
  unfold awaits
  rw [hphase]

/-- Only an execution that has not begun, on a context without a record, awaits no call. -/
theorem record_of_awaits (hnobody : e.awaits x = none) : x.inFlight = none := by
  unfold awaits at hnobody
  split at hnobody
  · exact hnobody
  · cases hnobody
  · cases hnobody

end Execution

/-- The call whose end a look at an execution would find. -/
def World.joins (w : World) (e : Execution) : Option CallId :=
  ((w.contexts[e.context]?).bind e.awaits).filter fun id => (w.ended? id).isSome

/-- What whoever has a context may do with it beside executing: store and drop buffers, and write
to the guest's memory. -/
inductive Context.Touched (x : Context) : Context → Prop where
  | insert {buffer handle handles} (hstored : x.handles.insert buffer = .ok (handle, handles)) :
      Touched x { x with handles }
  | discard (handle : Int32) : Touched x { x with handles := (x.handles.discard handle).2 }
  | write (memory : Memory) : Touched x { x with guest := x.guest.setMemory memory }

/-- A world and those who are in the middle of something. -/
structure Scene where
  world : World
  tasks : List Task
  /-- The scopes that callers have made. -/
  scopes : List ScopeId
  /-- The calls whose end has been looked at by the one who waited for it. -/
  joined : List CallId

/-- Nobody has used a world yet: all contexts are idle, each in the queue of its own pool. -/
structure World.Fresh (w : World) : Prop where
  pool : ∀ {q : Nat} {p : Pool}, w.pools[q]? = some p →
    p = .ofContexts p.id p.idle ∧ p.idle.Nodup ∧ w.poolIndex? p.id = some q
  context : ∀ {q : Nat} {p : Pool} {c}, w.pools[q]? = some p → c ∈ p.idle →
    ∃ x, w.contexts[c]? = some x ∧ x.pool = p.id
  unused : ∀ {c : ContextId} {x : Context}, w.contexts[c]? = some x →
    x.inFlight = none ∧ x.scope < w.nextScope
  quiet : w.calls = #[] ∧ w.deferred = [] ∧ w.fired = []

/-- A world with one pool, and in it one context with a guest. -/
def World.ofGuest (guest : GuestInstance) (services : Services) : World :=
  { ofEngine (.scripts []) services with
    pools := #[.ofContexts 1 [0]]
    nextPool := 2
    contexts := #[⟨1, 0, [], .ofMillis 30000, guest, .empty, 0, none⟩]
    nextScope := 1 }

/-- A world with one pool of one context is fresh. -/
theorem World.ofGuest_fresh (guest : GuestInstance) (services : Services) :
    (World.ofGuest guest services).Fresh where
  pool {q p} hhere := by
    obtain ⟨hinside, rfl⟩ := Array.getElem?_eq_some_iff.mp hhere
    obtain rfl : q = 0 := Nat.lt_one_iff.mp hinside
    refine ⟨rfl, List.pairwise_singleton _ 0, ?_⟩
    simp [poolIndex?, ofGuest]
  context {q p c} hhere hmember := by
    obtain ⟨hinside, rfl⟩ := Array.getElem?_eq_some_iff.mp hhere
    obtain rfl : q = 0 := Nat.lt_one_iff.mp hinside
    obtain rfl : c = 0 := List.mem_singleton.mp hmember
    exact ⟨_, rfl, rfl⟩
  unused {c x} hthere := by
    obtain ⟨hinside, rfl⟩ := Array.getElem?_eq_some_iff.mp hthere
    obtain rfl : c = 0 := Nat.lt_one_iff.mp hinside
    exact ⟨rfl, Nat.one_pos⟩
  quiet := ⟨rfl, rfl, rfl⟩

namespace Scene

/-- A scene in which nobody does anything yet. -/
def ofWorld (w : World) : Scene := ⟨w, [], [], []⟩

/-- What may happen next. -/
inductive Step : Scene → Scene → Prop where
  /-- A caller makes a scope. -/
  | scope {s : Scene} :
      Step s { s with world := s.world.freshScope.2, scopes := s.world.nextScope :: s.scopes }
  /-- A scope that a caller has made fires. -/
  | fire {s : Scene} {scope} (hmade : scope ∈ s.scopes) :
      Step s { s with world := s.world.fire scope }
  /-- A gate at which guests stand opens. -/
  | gate {s : Scene} (gate : String) :
      Step s { s with world := { s.world with openGates := gate :: s.world.openGates } }
  /-- Clocks go on, and others use the stores and clients. -/
  | elsewhere {s : Scene} (services : Services) :
      Step s { s with world := { s.world with services } }
  /-- A guest call goes on for a while; the gates in `shut` are still closed to it. -/
  | carry {s : Scene} (id : CallId) (fuel : Nat) (shut : List String) :
      Step s { s with world := s.world.carryFor (fun _ => fuel) shut id }
  /-- A caller finds a pool open. -/
  | enter {s : Scene} (place : Nat) {scope} (hmade : scope ∈ s.scopes)
      (hfound : s.world.isOpen place) :
      Step s { s with tasks := .asking place scope :: s.tasks }
  /-- It asks for a permit. -/
  | ask {s : Scene} {l r place scope asked w} (htask : s.tasks = l ++ .asking place scope :: r)
      (hfound : s.world.ask place scope = (asked, w)) :
      Step s { s with world := w, tasks := l ++ (Task.ofAsked place scope asked).toList ++ r }
  /-- One who waits looks again. -/
  | look {s : Scene} {l r place scope v asked w}
      (htask : s.tasks = l ++ .waiting place scope v :: r)
      (hfound : s.world.askAgain place scope v = (asked, w)) :
      Step s { s with world := w, tasks := l ++ (Task.ofAsked place scope asked).toList ++ r }
  /-- One who waits gives up. -/
  | giveUp {s : Scene} {l r place scope v} (htask : s.tasks = l ++ .waiting place scope v :: r) :
      Step s { s with world := s.world.giveUp place v, tasks := l ++ r }
  /-- One who has a permit looks into the queue. -/
  | take {s : Scene} {l r place scope taken w}
      (htask : s.tasks = l ++ .permitted place scope :: r)
      (hfound : s.world.handOut place scope = (taken, w)) :
      Step s { s with world := w, tasks := l ++ (Task.ofTaken place scope taken).toList ++ r }
  /-- One who has a context works on it. -/
  | touch {s : Scene} {place scope c execution x y}
      (htask : .holding place scope c execution ∈ s.tasks)
      (hfound : s.world.contexts[c]? = some x) (htouched : x.Touched y) :
      Step s { s with world := s.world.modifyContext c fun _ => y }
  /-- It begins an execution. -/
  | prepare {s : Scene} {l r place scope c function args e}
      (htask : s.tasks = l ++ .holding place scope c none :: r)
      (hfound : s.world.prepare c function args = .ok e) :
      Step s { s with tasks := l ++ .holding place scope c (some e) :: r }
  /-- It looks at its execution, whose deadline may have passed. -/
  | poll {s : Scene} {l r place scope c e late polled w}
      (htask : s.tasks = l ++ .holding place scope c (some e) :: r)
      (hfound : s.world.pollWith (fun w _ => w) e late = (polled, w)) :
      Step s { s with
        world := w
        tasks := l ++ .holding place scope c polled.rest :: r
        joined := (s.world.joins e).toList ++ s.joined }
  /-- It gives the context back; no execution is under way. -/
  | release {s : Scene} {l r place scope c record w}
      (htask : s.tasks = l ++ .holding place scope c none :: r)
      (hfound : s.world.letGo c = (record, w)) :
      Step s { s with world := w, tasks := l ++ Task.ofLetGo place scope c record :: r }
  /-- The abandoned call on a context that was given back turns out to be over. -/
  | settle {s : Scene} {l r place scope c call}
      (htask : s.tasks = l ++ .settling place scope c call :: r)
      (hpast : (s.world.ended? call).isSome) :
      Step s { s with
        world := s.world.count c Counters.settle
        tasks := l ++ .returning place c :: r
        joined := call :: s.joined }
  /-- A context goes back into the queue. -/
  | enqueue {s : Scene} {l r place c returned w} (htask : s.tasks = l ++ .returning place c :: r)
      (hfound : s.world.enqueue place c = (returned, w)) :
      Step s { s with world := w, tasks := l ++ (Task.ofReturned place c returned).toList ++ r }
  /-- Its permit is given. -/
  | announce {s : Scene} {l r place c} (htask : s.tasks = l ++ .queued place c :: r) :
      Step s { s with world := s.world.announce place c, tasks := l ++ r }
  /-- A pool is closed. -/
  | close {s : Scene} (place : Nat) : Step s { s with world := s.world.close place }
  /-- A callback's panic is counted. -/
  | fault {s : Scene} (place : Nat) :
      Step s { s with world := s.world.modifyPool place (·.count Counters.fault) }

/-- Any number of steps. -/
abbrev Steps : Scene → Scene → Prop := Relation.ReflTransGen Step

/-- What can come of a world that nobody has used. -/
inductive Reachable : Scene → Prop where
  | start {w : World} (hfresh : w.Fresh) : Reachable (ofWorld w)
  | step {s t : Scene} (hbefore : Reachable s) (hnext : Step s t) : Reachable t

/-- A run from a reachable scene stays among them. -/
theorem Reachable.steps {s t : Scene} (hbefore : Reachable s) (hrun : Steps s t) : Reachable t := by
  induction hrun with
  | refl => exact hbefore
  | tail _ hnext ih => exact .step ih hnext

end Scene
end SandboxPool
