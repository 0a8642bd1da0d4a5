import SandboxPool.Proofs.Pool.Exclusion

/-!
# Functions that travel

A function that was looked up on one context can be executed on another one: an execution takes
any function, and nobody asks whose it is. The context on which it is executed then waits for the
call and remembers it, while the call runs on the guest of the function's home.

`Scene.Roams` is `Scene.Step` with executions of any function, and `Scene.Roamed` what can come of
a fresh world by it. What was said of the calls *begun* on a context stays true
(`Scene.Roamed.orderly`). What is said of the calls that *run* on a context's guest needs the
guest to be at home, that is, all its calls that are under way to have been begun on its own
context; so it is if functions are executed where they were looked up (`Scene.Reachable.atHome`).
`Scene.Roamed.exclusive_at_home` has both, and `Scene.not_exclusive_abroad` a run in which a
function travels: an idle context has a call on its guest, and two calls are on one guest.

Compiled guests let one call in at a time, so that the second call waits inside the guest for the
first one; scripts do not. Either way both are under way, and nothing here depends on it.
-/

namespace SandboxPool
namespace Scene

/-- What may happen next when functions travel. -/
inductive Roams : Scene → Scene → Prop where
  | step {s t : Scene} (hstep : Step s t) : Roams s t
  /-- Whoever has a context begins to execute a function of any context on it. -/
  | execute {s : Scene} {l r place scope c d name f args}
      (htask : s.tasks = l ++ .holding place scope c none :: r)
      (hfound : s.world.function d name = .ok f) :
      Roams s { s with tasks := l ++ .holding place scope c (some ⟨c, f, args, .fresh⟩) :: r }

/-- What can come of a world that nobody has used when functions travel. -/
inductive Roamed : Scene → Prop where
  | start {w : World} (hfresh : w.Fresh) : Roamed (ofWorld w)
  | step {s t : Scene} (hbefore : Roamed s) (hnext : Roams s t) : Roamed t

/-- Every call that is under way on a context's guest was begun on that context. -/
def AtHome (s : Scene) (c : ContextId) : Prop :=
  ∀ {id}, s.world.site? id = some c → s.world.ended? id = none → s.world.owner? id = some c

variable {s t : Scene} {c : ContextId}

/-! ## Contexts keep their order, guests need not -/

/-- Executing a function of another context keeps everything in order, as every step does. -/
theorem Roams.orderly (hnext : Roams s t) (h : s.Orderly) : t.Orderly := by
  cases hnext with
  | step hstep => exact hstep.orderly h
  | execute htask _ => exact h.execute htask _ _

theorem Roamed.orderly (h : s.Roamed) : s.Orderly := by
  induction h with
  | start hfresh => exact orderly_ofWorld hfresh
  | step _ hnext ih => exact hnext.orderly ih

/-- As long as functions stay at home, so do all guests. -/
theorem Reachable.atHome (h : s.Reachable) : s.AtHome c := by
  intro id hsite _
  rwa [h.homely.calls] at hsite

theorem Reachable.roamed (h : s.Reachable) : s.Roamed := by
  induction h with
  | start hfresh => exact .start hfresh
  | step _ hnext ih => exact ih.step (.step hnext)

/-- A step that begins a call has joined all earlier calls on the same context, and they are
over. -/
theorem Roams.begins_joined (hnext : Roams s t) (h : s.Orderly) {new earlier : CallId}
    (hnone : s.world.owner? new = none) (hnew : t.world.owner? new = some c)
    (hearlier : s.world.owner? earlier = some c) :
    earlier ∈ t.joined ∧ (t.world.ended? earlier).isSome := by
  have hjoined : earlier ∈ t.joined := by
    cases hnext with
    | step hstep => exact hstep.begins_joined h hnone hnew hearlier
    | execute _ _ =>
      have hnew : s.world.owner? new = some c := hnew
      rw [hnone] at hnew
      cases hnew
  exact ⟨hjoined, (hnext.orderly h).accounted.past hjoined⟩

/-- Where all calls that were begun on a context are over, those that run on its guest are over
exactly if the guest is at home. -/
theorem guest_over_iff_atHome
    (hover : ∀ {id}, s.world.owner? id = some c → (s.world.ended? id).isSome) :
    (∀ {id}, s.world.site? id = some c → (s.world.ended? id).isSome) ↔ s.AtHome c := by
  constructor
  · intro hguest id hsite hlive
    have hpast := hguest hsite
    rw [hlive] at hpast
    cases hpast
  · intro hhome id hsite
    cases hended : s.world.ended? id with
    | some r => rfl
    | none =>
      rw [← hended]
      exact hover (hhome hsite hended)

/-- While a call runs at home it is the only one on the guest exactly if the guest is at home. -/
theorem Orderly.alone_iff_atHome (h : s.Orderly) {own : CallId}
    (hown : s.world.owner? own = some c) (hlive : s.world.ended? own = none) :
    (∀ {id}, s.world.site? id = some c → s.world.ended? id = none → id = own) ↔ s.AtHome c := by
  constructor
  · intro halone id hsite hid
    rwa [halone hsite hid]
  · intro hhome id hsite hid
    exact h.one_unjoined (hhome hsite hid) hown (h.unjoined hid) (h.unjoined hlive)

/-- Let functions travel. On every context one call at most that was begun there is under way, an
execution begins one only after it has joined the earlier ones, which are over then, and on an idle
context, or one that is handed out, all of them are over. A guest that is at home has one call at
most under way; while its own context's call runs on it, that call is alone exactly if the guest is
at home; and the guest of an idle context, or of one that is handed out, has no call under way
exactly if it is at home. Guests are at home as long as functions do not travel. -/
theorem Roamed.exclusive_at_home (h : s.Roamed) :
    (∀ {c i j}, s.world.owner? i = some c → s.world.owner? j = some c →
      s.world.ended? i = none → s.world.ended? j = none → i = j) ∧
    (∀ {t c new earlier}, s.Roams t → s.world.owner? new = none →
      t.world.owner? new = some c → s.world.owner? earlier = some c →
        earlier ∈ t.joined ∧ (t.world.ended? earlier).isSome) ∧
    (∀ {q : Nat} {p c}, s.world.pools[q]? = some p → c ∈ p.idle →
      (∀ {id}, s.world.owner? id = some c → (s.world.ended? id).isSome) ∧
      ((∀ {id}, s.world.site? id = some c → (s.world.ended? id).isSome) ↔ s.AtHome c)) ∧
    (∀ {q scope c w}, s.world.handOut q scope = (.ok c, w) →
      (∀ {id}, w.owner? id = some c → (w.ended? id).isSome) ∧
      ((∀ {id}, w.site? id = some c → (w.ended? id).isSome) ↔ s.AtHome c)) ∧
    (∀ {c i j}, s.AtHome c → s.world.site? i = some c → s.world.site? j = some c →
      s.world.ended? i = none → s.world.ended? j = none → i = j) ∧
    (∀ {c own}, s.world.owner? own = some c → s.world.site? own = some c →
      s.world.ended? own = none →
        ((∀ {id}, s.world.site? id = some c → s.world.ended? id = none → id = own) ↔
          s.AtHome c)) ∧
    (s.Reachable → ∀ c, s.AtHome c) := by
  have ho := h.orderly
  have hone {c : ContextId} {i j : CallId} (hi : s.world.owner? i = some c)
      (hj : s.world.owner? j = some c) (hli : s.world.ended? i = none)
      (hlj : s.world.ended? j = none) : i = j :=
    ho.one_unjoined hi hj (ho.unjoined hli) (ho.unjoined hlj)
  refine ⟨hone, fun hnext hnone hnew hearlier => hnext.begins_joined ho hnone hnew hearlier,
    fun hpool hidle => ?_, fun {q scope c w} hfound => ?_,
    fun hhome hi hj hli hlj => hone (hhome hi hli) (hhome hj hlj) hli hlj,
    fun hown _ hlive => ho.alone_iff_atHome hown hlive, fun hreach c => hreach.atHome⟩
  · have hover {id} (howner : s.world.owner? id = some _) := ho.idle_over hpool hidle howner
    exact ⟨hover, guest_over_iff_atHome hover⟩
  · -- handing out touches no call
    have hcalls := World.handOut_calls hfound
    obtain ⟨p, hpool, hidle⟩ := World.handOut_idle hfound
    rw [World.owner?_of_calls hcalls, World.site?_of_calls hcalls, World.ended?_of_calls hcalls]
    have hover {id} (howner : s.world.owner? id = some c) := ho.idle_over hpool hidle howner
    exact ⟨hover, guest_over_iff_atHome hover⟩

/-! ## A function that does travel -/

/-- A guest whose function waits at a gate. -/
def waiter : GuestInstance :=
  .script ⟨"guest", none, [], [("run", [.perform ⟨.gate "door", none, true, false⟩])]⟩ none ⟨[]⟩

/-- A world with one pool, and in it two contexts with such guests. -/
def twoWaiters : World :=
  { World.ofEngine (.scripts []) default with
    pools := #[.ofContexts 1 [0, 1]]
    nextPool := 2
    contexts := #[⟨1, 0, [], .ofMillis 30000, waiter, .empty, 0, none⟩,
      ⟨1, 1, [], .ofMillis 30000, waiter, .empty, 1, none⟩]
    nextScope := 2 }

theorem twoWaiters_fresh : twoWaiters.Fresh where
  pool {q p} hpool := by
    obtain ⟨hinside, rfl⟩ := Array.getElem?_eq_some_iff.mp hpool
    obtain rfl : q = 0 := Nat.lt_one_iff.mp hinside
    exact ⟨rfl, (by decide : [0, 1].Nodup), by simp [World.poolIndex?, twoWaiters]⟩
  context {q p c} hpool hidle := by
    obtain ⟨hinside, rfl⟩ := Array.getElem?_eq_some_iff.mp hpool
    obtain rfl : q = 0 := Nat.lt_one_iff.mp hinside
    obtain rfl | hidle := List.mem_cons.mp hidle
    · exact ⟨_, rfl, rfl⟩
    · obtain rfl := List.mem_singleton.mp hidle
      exact ⟨_, rfl, rfl⟩
  unused {c x} hthere := by
    obtain ⟨hinside, rfl⟩ := Array.getElem?_eq_some_iff.mp hthere
    obtain rfl | rfl := Nat.le_one_iff_eq_zero_or_eq_one.mp (Nat.le_of_lt_succ hinside)
    · exact ⟨rfl, Nat.two_pos⟩
    · exact ⟨rfl, Nat.one_lt_two⟩
  quiet := ⟨rfl, rfl, rfl⟩

/-- Two callers have been handed a context each. -/
def twoLent : World :=
  let w := ((twoWaiters.freshScope.2.ask 0 2).2.handOut 0 2).2
  ((w.ask 0 2).2.handOut 0 2).2

/-- One of them executes the other's function on its own context: the call waits at the gate. -/
def crossed : Scene where
  world := (twoLent.pollWith (fun w _ => w) ⟨1, ⟨0, "run"⟩, [], .fresh⟩ false).2.carryFor
    (fun _ => 1) [] 0
  tasks := [.holding 0 2 1 (some ⟨1, ⟨0, "run"⟩, [], .running 0⟩), .holding 0 2 0 none]
  scopes := [2]
  joined := []

/-- Such a scene comes about: a call runs at home while its function is executed elsewhere. -/
theorem crossed_roamed : crossed.Roamed := by
  have hmade := (Reachable.start twoWaiters_fresh).step .scope
  have hfirst := ((hmade.step (.enter 0 (List.mem_singleton_self 2) rfl)).step
    (.ask (l := []) (r := []) rfl rfl)).step (.take (l := []) (r := []) rfl rfl)
  have hsecond := ((hfirst.step (.enter 0 (List.mem_singleton_self 2) rfl)).step
    (.ask (l := []) rfl rfl)).step (.take (l := []) rfl rfl)
  -- so far everything is as it would be if functions stayed at home
  have hexecuted := hsecond.roamed.step (@Roams.execute _ [] _ 0 2 1 0 "run" _ [] rfl rfl)
  have hbegun := hexecuted.step (.step (@Step.poll _ [] _ 0 2 1 _ false _ _ rfl rfl))
  exact hbegun.step (.step (.carry 0 1 []))

/-- The function's guest is not at home then, and the context on which it is executed has no other
call. -/
theorem exclusive_at_home_crossed : crossed.Roamed ∧ ¬ crossed.AtHome 0 ∧
    ∀ id, crossed.world.owner? id = some 1 → crossed.world.ended? id = none → id = 0 := by
  have howner : crossed.world.owner? 0 = some 1 := rfl
  have hsite : crossed.world.site? 0 = some 0 := rfl
  have hlive : crossed.world.ended? 0 = none := rfl
  refine ⟨crossed_roamed, fun hhome => ?_, fun id hid hended => ?_⟩
  · have hback := hhome hsite hlive
    rw [howner] at hback
    cases hback
  · exact crossed_roamed.exclusive_at_home.1 hid howner hended hlive

/-- When functions travel, a guest can have two calls under way, and the guest of an idle context
can have one: it is neither so that a guest has one call at most, nor that the guests of idle
contexts have none. -/
theorem not_exclusive_abroad :
    (¬ ∀ {s : Scene} {c : ContextId} {i j : CallId}, s.Roamed → s.world.site? i = some c →
      s.world.site? j = some c → s.world.ended? i = none → s.world.ended? j = none → i = j) ∧
    ¬ ∀ {s : Scene} {q : Nat} {p : Pool} {c : ContextId} {id : CallId}, s.Roamed →
      s.world.pools[q]? = some p → c ∈ p.idle → s.world.site? id = some c →
        (s.world.ended? id).isSome := by
  constructor
  · -- the other caller executes its function too
    intro hclaim
    have hprepared := crossed_roamed.step (.step
      (@Step.prepare _ [_] [] 0 2 0 "run" [] _ rfl rfl))
    have hbegun := hprepared.step (.step (@Step.poll _ [_] [] 0 2 0 _ false _ _ rfl rfl))
    have hgate := hbegun.step (.step (.carry 1 1 []))
    exact absurd (hclaim (i := 0) (j := 1) (c := 0) hgate rfl rfl rfl rfl) Nat.zero_ne_one
  · -- it gives its context back
    intro hclaim
    have hreleased := crossed_roamed.step (.step (.release (l := [_]) (r := []) rfl rfl))
    have hqueued := hreleased.step (.step (.enqueue (l := [_]) (r := []) rfl rfl))
    have hover := @hclaim _ 0 _ 0 0 hqueued rfl (List.mem_singleton_self 0) rfl
    cases hover

end Scene
end SandboxPool
