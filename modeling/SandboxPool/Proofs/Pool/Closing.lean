import SandboxPool.Proofs.Pool.Accounts

/-!
# What is left of a closed pool

A pool is closed under the same lock that guards its queue, and nothing opens it again. So from
then on the queue is empty, whoever has not popped a context is refused, and a context that comes
back is disposed of and counted as back. `Scene.ShutDown` says all this of one moment, and
`Scene.Reachable.shut_down` that it holds at every moment after a pool was closed, wherever the
callers stood at the time.
-/

namespace SandboxPool

/-- What does not change as contexts come and go: whether a pool is closed, and its faults. -/
structure Standing where
  closed : Bool
  faults : Counter

/-- The standing of a pool. -/
def Pool.standing (p : Pool) : Standing := ⟨p.closed, p.counters.faults⟩

namespace Pool

variable {p p' : Pool} {c : ContextId}

/-- A look into the queue neither closes a pool nor counts a fault. -/
theorem takeIdle_standing {taken : Outcome ContextId} (hfound : p.takeIdle = (taken, p')) :
    p'.standing = p.standing := by
  obtain ⟨idle, rfl⟩ := takeIdle_queue hfound
  rfl

/-- Nor does a context that comes back. -/
theorem pushIdle_standing {got : Returned} (hfound : p.pushIdle c = (got, p')) :
    p'.standing = p.standing := by
  obtain ⟨idle, rfl⟩ := pushIdle_queue hfound
  rfl

end Pool

namespace World

/-- The standing of the pool at a place. -/
def standing? (w : World) (q : Nat) : Option Standing := (w.pools[q]?).map Pool.standing

/-- Whether the pool at a place is closed. -/
def closed? (w : World) (q : Nat) : Option Bool := (w.standing? q).map Standing.closed

variable {w w' : World} {place q : Nat} {c : ContextId} {scope : ScopeId} {p p' : Pool}
  {x : Context}

theorem closed?_eq (hhere : w.pools[q]? = some p) : w.closed? q = some p.closed := by
  unfold closed? standing?
  rw [hhere]
  rfl

/-- Whether a pool is closed is part of its standing. -/
theorem closed?_of_standing (hsame : w'.standing? = w.standing?) : w'.closed? = w.closed? := by
  unfold closed?
  rw [hsame]

theorem closed?_eq_true (hshut : w.closed? q = some true) :
    ∃ p, w.pools[q]? = some p ∧ p.closed = true := by
  unfold closed? standing? at hshut
  rw [Option.map_map] at hshut
  exact Option.map_eq_some_iff.mp hshut

theorem standing?_of_pools (hsame : w'.pools = w.pools) : w'.standing? = w.standing? := by
  unfold standing?
  rw [hsame]

/-- A pool that stands like another may take its place. -/
theorem setPool_standing (hhere : w.pools[place]? = some p) (hkept : p'.standing = p.standing) :
    (w.setPool place p').standing? = w.standing? := funext (setPool_map hhere hkept)

/-! ## Operations that leave pools open, or closed -/

/-- Permits are no part of a pool's standing. -/
theorem standing?_of_stock (hsame : w'.stock? = w.stock?) : w'.standing? = w.standing? :=
  funext (map_of_stock (fun _ => rfl) hsame)

/-- Asking for a permit leaves every pool's standing alone. -/
theorem ask_standing {asked : Asked} (hfound : w.ask place scope = (asked, w')) :
    w'.standing? = w.standing? := standing?_of_stock (ask_stock hfound)

theorem giveUp_standing (place : Nat) (v : Waiter) :
    (w.giveUp place v).standing? = w.standing? := standing?_of_stock (giveUp_stock place v)

/-- So does looking again, even if one gives up. -/
theorem askAgain_standing {v : Waiter} {asked : Asked}
    (hfound : w.askAgain place scope v = (asked, w')) : w'.standing? = w.standing? :=
  standing?_of_stock (askAgain_stock hfound)

/-- Lending a context neither opens nor closes a pool. -/
theorem handOut_standing {taken : Outcome ContextId}
    (hfound : w.handOut place scope = (taken, w')) : w'.standing? = w.standing? := by
  rcases handOut_cases hfound with
    ⟨-, -, rfl⟩ | ⟨p, p', hhere, hanswer, ⟨e, -, rfl⟩ | ⟨c, event, -, rfl⟩⟩
  · rfl
  · exact setPool_standing hhere (Pool.takeIdle_standing hanswer)
  · have hkept : p'.standing = p.standing := Pool.takeIdle_standing hanswer
    exact setPool_standing hhere (show (p'.count Counters.lend).standing = _ from hkept)

/-- Nor does taking it back. -/
theorem enqueue_standing {returned : Option Pool.Returned}
    (hfound : w.enqueue place c = (returned, w')) : w'.standing? = w.standing? := by
  rcases enqueue_cases hfound with ⟨-, -, rfl⟩ |
    ⟨p, got, p', hhere, hanswer, -, ⟨-, event, rfl⟩ | ⟨-, rfl⟩⟩
  · rfl
  · have hkept : p'.standing = p.standing := Pool.pushIdle_standing hanswer
    exact setPool_standing (w := w.clear c) hhere
      (show (p'.count Counters.takeBack).standing = _ from hkept)
  · exact setPool_standing (w := w.clear c) hhere (Pool.pushIdle_standing hanswer)

theorem announce_standing (place : Nat) (c : ContextId) :
    (w.announce place c).standing? = w.standing? := by
  unfold announce
  split
  · next p x hhere hthere => exact setPool_standing hhere rfl
  · rfl

/-- Counters apart, pools stay what they are. -/
theorem Recounts.closed (h : w.Recounts w') : w'.closed? = w.closed? := by
  obtain ⟨f, hsame⟩ := h
  funext q
  unfold closed? standing?
  rw [hsame, Option.map_map, Option.map_map, Option.map_map]
  rfl

/-! ## A closed pool -/

/-- Why one who found a pool open is refused once it is closed. -/
def refusal (w : World) (scope : ScopeId) : Cause :=
  if w.hasFired scope then .cancelled else .shuttingDown

/-- One who wants a context of a closed pool is refused at once. -/
theorem acquire_of_closed (hhere : w.pools[q]? = some p) (hclosed : p.closed = true)
    (scope : ScopeId) : w.acquire q scope = (.answered (refuse .shuttingDown), w) := by
  have hshut : w.isOpen q = false := by
    unfold isOpen
    rw [hhere, Option.any_some, hclosed]
    rfl
  unfold acquire
  rw [hshut]
  rfl

/-- One who asks a closed pool for a permit is refused. -/
theorem ask_of_closed (hhere : w.pools[q]? = some p) (hclosed : p.closed = true)
    (scope : ScopeId) : (w.ask q scope).1 = .refused (w.refusal scope) := by
  unfold ask refusal
  rw [hhere]
  dsimp only
  split
  · rfl
  · rw [Pool.request, if_pos hclosed]
    rfl

/-- So is one who stands in line there. -/
theorem askAgain_of_closed (hhere : w.pools[q]? = some p) (hclosed : p.permits.closed = true)
    (scope : ScopeId) (v : Waiter) : (w.askAgain q scope v).1 = .refused (w.refusal scope) := by
  unfold askAgain refusal
  rw [hhere]
  dsimp only
  split
  · rfl
  · rw [Pool.look, Permits.look, if_pos hclosed]
    rfl

/-- Closing a closed pool does nothing. -/
theorem close_of_closed (hhere : w.pools[q]? = some p) (hclosed : p.closed = true) :
    w.close q = w := by
  unfold close
  rw [hhere, Option.bind_some, Pool.close?, if_pos hclosed]

/-- Closing a pool closes it, whether it was open or not. -/
theorem close_shut (hhere : w.pools[q]? = some p) : (w.close q).closed? q = some true := by
  cases hclosed : p.closed with
  | true => rw [close_of_closed hhere hclosed, closed?_eq hhere, hclosed]
  | false =>
    unfold close
    rw [hhere, Option.bind_some, Pool.close?, if_neg (by rw [hclosed]; exact Bool.false_ne_true)]
    exact closed?_eq (setPool_get hhere)

/-- Closing one pool opens no other. -/
theorem close_keeps_shut (place : Nat) (hshut : w.closed? q = some true) :
    (w.close place).closed? q = some true := by
  by_cases hq : q = place
  · obtain ⟨p, hhere, hclosed⟩ := closed?_eq_true hshut
    rw [← hq, close_of_closed hhere hclosed, hshut]
  · rcases close_cases (w := w) place with hsame | ⟨p, p', disposed, event, -, -, hsame⟩
    · rw [hsame, hshut]
    · have hother : (w.setPool place p').standing? q = w.standing? q :=
        congrArg (Option.map Pool.standing) (setPool_other hq)
      rw [hsame]
      exact (congrArg (Option.map Standing.closed) hother).trans hshut

/-- A context that comes back to a closed pool is disposed of. -/
theorem enqueue_of_closed (hhere : w.pools[q]? = some p) (hthere : w.contexts[c]? = some x)
    (hclosed : p.closed = true) : (w.enqueue q c).1 = some .disposed := by
  rcases hfound : w.enqueue q c with ⟨returned, w'⟩
  rcases enqueue_cases hfound with ⟨hnone | hnone, -⟩ | ⟨p₁, got, p', hhere', hanswer, rfl, -⟩
  · rw [hhere] at hnone
    cases hnone
  · rw [hthere] at hnone
    cases hnone
  · obtain rfl := Option.some.inj (hhere.symm.trans hhere')
    rw [Pool.pushIdle, if_pos hclosed] at hanswer
    exact congrArg some (Prod.mk.inj hanswer).1.symm

/-- A context that comes back to a closed pool is disposed of, which is no failure. -/
theorem requeue_of_closed (hhere : w.pools[q]? = some p) (hthere : w.contexts[c]? = some x)
    (hclosed : p.closed = true) :
    (w.requeue q c).1 = .ok () ∧ (w.requeue q c).2.account? = w.booked q .takeBack := by
  have hdisposed := enqueue_of_closed hhere hthere hclosed
  rcases hfound : w.enqueue q c with ⟨returned, w'⟩
  rw [hfound] at hdisposed
  obtain rfl : returned = some .disposed := hdisposed
  have haccount := enqueue_account hfound
  rw [if_pos rfl] at haccount
  unfold requeue
  rw [hfound]
  exact ⟨rfl, haccount⟩

/-- A context that is given back to its own pool, which is closed, is taken: it is counted as back
at once, or it waits for the call that is recorded on it. -/
theorem release_of_closed (hhere : w.pools[q]? = some p) (hthere : w.contexts[c]? = some x)
    (hmine : x.pool = p.id) (hclosed : p.closed = true) :
    (w.release q c).1 = .ok () ∧
      match x.inFlight with
      | none => (w.release q c).2.account? = w.booked q .takeBack
      | some call => (w.release q c).2.account? = w.account? ∧
          (w.release q c).2.deferred = w.deferred ++ [(c, call)] := by
  have hrow : (w.letGo c).2.contexts[c]? =
      some { x with scope := w.nextScope, inFlight := none } := by
    show ((World.modifyContext _ c _).contexts[c]?) = _
    rw [modifyContext_contexts, if_pos rfl]
    exact congrArg (Option.map _) hthere
  have hhanded : (w.letGo c).1 = x.inFlight := by
    show (w.contexts[c]?).bind Context.inFlight = _
    rw [hthere]
    rfl
  rcases hletGo : w.letGo c with ⟨record, w₁⟩
  rw [hletGo] at hrow hhanded
  have hpools := letGo_pools hletGo
  obtain ⟨event, hreleased⟩ := release_own hhere hthere hmine hletGo
  rw [hreleased]
  -- Without a record the context goes straight back; with one, its return is left for later.
  cases record with
  | none =>
    rw [← hhanded]
    have hhere₁ : w₁.pools[q]? = some p := by rw [hpools, hhere]
    obtain ⟨hok, haccount⟩ := requeue_of_closed hhere₁ hrow hclosed
    refine ⟨hok, haccount.trans ?_⟩
    unfold booked
    rw [account?_of_pools hpools]
  | some call =>
    rw [← hhanded]
    refine ⟨rfl, account?_of_pools hpools, ?_⟩
    have hdeferred : w₁.deferred = w.deferred := by
      obtain ⟨-, rfl⟩ := Prod.mk.inj hletGo
      rfl
    show w₁.deferred ++ [(c, call)] = _
    rw [hdeferred]

/-- A deferred context of a closed pool is counted as back once its call is over, together with the
call. -/
theorem putBack_of_closed (hhome : w.home? c = some q) (hhere : w.pools[q]? = some p)
    (hthere : w.contexts[c]? = some x) (hclosed : p.closed = true) :
    (w.putBack c).account? q = some p.account.settle.takeBack := by
  have hcounted := count_account (g := Counters.settle) (f := .settle) hhome fun _ => rfl
  have hsteady := count_steady (w := w) c Counters.settle
  -- Counting the call as settled changes nothing of where the context belongs.
  have hstays : (w.count c Counters.settle).home? c = some q := by
    rw [(count_recounts c _).keeps.home fun d => by rw [hsteady.outline], hhome]
  have hplace : ((w.count c Counters.settle).contexts[c]?).bind
      (fun x => (w.count c Counters.settle).poolIndex? x.pool) = some q := by
    rwa [home?_eq_bind] at hstays
  obtain ⟨f, hpools⟩ := count_recounts (w := w) c Counters.settle
  have hhere₁ : (w.count c Counters.settle).pools[q]? = some (p.count (f q)) := by
    rw [hpools, hhere]
    rfl
  have hthere₁ : (w.count c Counters.settle).contexts[c]? = some x := by
    rw [hsteady.contexts, hthere]
  obtain ⟨-, haccount⟩ := requeue_of_closed hhere₁ hthere₁ hclosed
  have hsettled : (w.count c Counters.settle).account? q = some p.account.settle := by
    rw [hcounted, booked_self hhere]
  have hbooked : (w.count c Counters.settle).booked q .takeBack q =
      some p.account.settle.takeBack := by
    unfold booked
    rw [if_pos rfl, hsettled]
    rfl
  rcases w.putBack_cases c with ⟨hnone, -⟩ | ⟨place, result, w₂, hfound, hback, hsame⟩
  · cases hnone.symm.trans hplace
  · obtain rfl : place = q := Option.some.inj (hfound.symm.trans hplace)
    rw [hback] at haccount
    have hkept : (w.putBack c).account? = w₂.account? := by
      rcases hsame with hsame | ⟨event, hsame⟩
      · rw [hsame]
      · rw [hsame]
        rfl
    rw [hkept, haccount, hbooked]

end World

namespace Scene

variable {s t : Scene} {q : Nat} {scope : ScopeId} {c : ContextId} {p : Pool}

/-! ## Nothing opens a pool again -/

/-- A pool that is closed stays so. -/
theorem Step.closed (hstep : Step s t) (hshut : s.world.closed? q = some true) :
    t.world.closed? q = some true := by
  have hsame (hkept : t.world.standing? = s.world.standing?) : t.world.closed? q = some true := by
    rw [World.closed?_of_standing hkept, hshut]
  have hrecounted (hkept : s.world.Recounts t.world) : t.world.closed? q = some true := by
    rw [hkept.closed, hshut]
  -- No step opens a pool again: whatever it does to pools is to count, or to close.
  cases hstep with
  | scope | fire _ | gate _ | elsewhere _ | enter _ _ _ | touch _ _ _ | prepare _ _ =>
    exact hsame rfl
  | carry id fuel shut =>
    have hcarried := s.world.carryFor_carried (fun _ => fuel) shut id
    exact hsame (World.standing?_of_pools hcarried.pools)
  | ask _ hfound => exact hsame (World.ask_standing hfound)
  | look _ hfound => exact hsame (World.askAgain_standing hfound)
  | giveUp _ => exact hsame (World.giveUp_standing _ _)
  | take _ hfound => exact hsame (World.handOut_standing hfound)
  | poll _ hfound =>
    rcases World.pollWith_looked hfound with ⟨-, -, rfl⟩ | ⟨x, -, hlooked⟩
    · exact hsame rfl
    · exact hrecounted hlooked.calm.pools
  | release _ hfound => exact hsame (World.standing?_of_pools (World.letGo_pools hfound))
  | settle _ _ => exact hrecounted (World.count_recounts _ _)
  | enqueue _ hfound => exact hsame (World.enqueue_standing hfound)
  | announce _ => exact hsame (World.announce_standing _ _)
  | close place => exact World.close_keeps_shut place hshut
  | fault place => exact hrecounted (World.modifyPool_recounts _)

/-- A closed pool stays so in every run. -/
theorem Steps.closed (hrun : Steps s t) (hshut : s.world.closed? q = some true) :
    t.world.closed? q = some true := by
  induction hrun with
  | refl => exact hshut
  | tail _ hnext ih => exact hnext.closed ih

/-! ## Nothing is lent by a closed pool -/

/-- Whoever has a context had it before, or has just been handed it. -/
theorem Step.lent (hstep : Step s t) (hlent : t.Lent q scope c) :
    s.Lent q scope c ∨ (.permitted q scope ∈ s.tasks ∧ (s.world.handOut q scope).1 = .ok c) := by
  obtain ⟨execution, hmember⟩ := hlent
  have had (hmember : .holding q scope c execution ∈ s.tasks) :
      s.Lent q scope c ∨ (.permitted q scope ∈ s.tasks ∧ (s.world.handOut q scope).1 = .ok c) :=
    .inl ⟨execution, hmember⟩
  -- where one task moves, a holder among the others was there, and one that is new came of it
  have hamong {l us r : List Task} {moves : Task} (hbefore : s.tasks = l ++ moves :: r)
      (hafter : t.tasks = l ++ us ++ r)
      (hnew : .holding q scope c execution ∈ us → s.Lent q scope c ∨
        (.permitted q scope ∈ s.tasks ∧ (s.world.handOut q scope).1 = .ok c)) :
      s.Lent q scope c ∨ (.permitted q scope ∈ s.tasks ∧ (s.world.handOut q scope).1 = .ok c) := by
    rw [hafter] at hmember
    rcases Task.mem_among.mp hmember with hmine | hrest
    · exact hnew hmine
    · exact had (hbefore ▸ Task.mem_beside hrest)
  cases hstep with
  | scope | fire _ | gate _ | elsewhere _ | carry _ _ _ | touch _ _ _ | close _ | fault _ =>
    exact had hmember
  | enter _ _ _ =>
    rcases List.mem_cons.mp hmember with hsame | hmember
    · cases hsame
    · exact had hmember
  | @ask l r place scope asked w hbefore _ =>
    refine hamong hbefore rfl fun hmine => ?_
    cases asked <;> simp [Task.ofAsked] at hmine
  | @look l r place scope v asked w hbefore _ =>
    refine hamong hbefore rfl fun hmine => ?_
    cases asked <;> simp [Task.ofAsked] at hmine
  | @giveUp l r place scope v hbefore =>
    exact hamong hbefore (show l ++ r = l ++ [] ++ r by simp) fun hmine => by cases hmine
  | @take l r place scope taken w hbefore hfound =>
    refine hamong hbefore rfl fun hmine => ?_
    cases taken with
    | error e => cases hmine
    | ok c =>
      cases List.mem_singleton.mp hmine
      exact .inr ⟨by simp [hbefore], by rw [hfound]⟩
  | prepare hbefore _ =>
    refine hamong hbefore (List.append_cons ..) fun hmine => ?_
    cases List.mem_singleton.mp hmine
    exact .inl ⟨none, by simp [hbefore]⟩
  | @poll l r place scope d e late polled w hbefore _ =>
    refine hamong hbefore (List.append_cons ..) fun hmine => ?_
    cases List.mem_singleton.mp hmine
    exact .inl ⟨some e, by simp [hbefore]⟩
  | @release l r place scope d record w hbefore _ =>
    refine hamong hbefore (List.append_cons ..) fun hmine => ?_
    cases record <;> cases List.mem_singleton.mp hmine
  | settle hbefore _ =>
    refine hamong hbefore (List.append_cons ..) fun hmine => ?_
    cases List.mem_singleton.mp hmine
  | @enqueue l r place d returned w hbefore _ =>
    exact hamong hbefore rfl fun hmine => by cases Task.mem_ofReturned hmine
  | @announce l r place d hbefore =>
    exact hamong hbefore (show l ++ r = l ++ [] ++ r by simp) fun hmine => by cases hmine

/-- A pool that is closed lends nothing any more. -/
theorem Reachable.lent_before (h : s.Reachable) (hshut : s.world.closed? q = some true)
    (hrun : Steps s t) (hlent : t.Lent q scope c) : s.Lent q scope c := by
  induction hrun with
  | refl => exact hlent
  | @tail u v hbefore hnext ih =>
    rcases hnext.lent hlent with had | ⟨hpermitted, hhanded⟩
    · exact ih had
    · obtain ⟨p, hhere, hclosed⟩ := World.closed?_eq_true (Steps.closed hbefore hshut)
      rcases (h.steps hbefore).handOut_answer hhere hpermitted with ⟨-, hrefused⟩ | ⟨hopened, -⟩
      · rw [hrefused] at hhanded
        cases hhanded
      · rw [hclosed] at hopened
        cases hopened

/-! ## What becomes of everyone -/

/-- The pool at a place is `p`, which is closed, and this is how everyone finds it. -/
structure ShutDown (s : Scene) (q : Nat) (p : Pool) : Prop where
  here : s.world.pools[q]? = some p
  closed : p.closed = true
  idle : p.idle = []
  /-- Whoever comes is refused, and so is whoever found the pool open and has not asked for a
  permit, waits for one, or has one and has not taken a context. -/
  enters : ∀ scope, s.world.acquire q scope = (.answered (refuse .shuttingDown), s.world)
  asks : ∀ scope, .asking q scope ∈ s.tasks →
    (s.world.ask q scope).1 = .refused (s.world.refusal scope)
  looks : ∀ scope v, .waiting q scope v ∈ s.tasks →
    (s.world.askAgain q scope v).1 = .refused (s.world.refusal scope)
  takes : ∀ scope, .permitted q scope ∈ s.tasks →
    (s.world.handOut q scope).1 = refuse .shuttingDown
  /-- A context that is given back is taken. It is counted as back, at once if no call is recorded
  on it. -/
  releases : ∀ scope c execution, .holding q scope c execution ∈ s.tasks →
    (s.world.release q c).1 = .ok () ∧
      match s.world.inFlight? c with
      | none => (s.world.release q c).2.account? q = some p.account.takeBack
      | some call => (s.world.release q c).2.account? q = some p.account ∧
          (s.world.release q c).2.deferred = s.world.deferred ++ [(c, call)]
  /-- If one is, the context is counted as back when the call is over, and the call as joined. -/
  settles : ∀ scope c call, .settling q scope c call ∈ s.tasks →
    (s.world.putBack c).account? q = some p.account.settle.takeBack
  /-- So is one that was on its way back, or in the queue with its permit due. -/
  returns : ∀ c, .returning q c ∈ s.tasks → (s.world.enqueue q c).1 = some .disposed ∧
    (s.world.enqueue q c).2.account? q = some p.account.takeBack
  announces : ∀ c, .queued q c ∈ s.tasks →
    (s.world.announce q c).account? q = some p.account.takeBack
  /-- There is something to count down, with counters that are as wide as the capacity. -/
  counts : p.capacity < 2 ^ 64 → ∀ task ∈ s.tasks, task.place = q → task.subject?.isSome →
    p.account.takeBack.borrowed.toNat + 1 = p.account.borrowed.toNat
  again : s.world.close q = s.world
  /-- Once nobody has to do with a context of the pool, nothing is counted. -/
  gone : (∀ task ∈ s.tasks, task.place = q → task.subject? = none) →
    p.account.borrowed = 0 ∧ p.account.settling = 0

/-- In every reachable scene in which the pool at a place is closed. -/
theorem Reachable.shutDown_of_closed (h : s.Reachable) (hhere : s.world.pools[q]? = some p)
    (hclosed : p.closed = true) : s.ShutDown q p where
  here := hhere
  closed := hclosed
  idle := (h.balanced.pool hhere).emptied hclosed
  enters := World.acquire_of_closed hhere hclosed
  asks scope _ := World.ask_of_closed hhere hclosed scope
  looks scope v _ :=
    World.askAgain_of_closed hhere ((h.balanced.pool hhere).shut.trans hclosed) scope v
  -- A permit granted before the pool was closed is refused like any other.
  takes scope hmember := by
    rcases h.handOut_answer hhere hmember with ⟨-, hrefused⟩ | ⟨hopened, -⟩
    · exact hrefused
    · rw [hclosed] at hopened
      cases hopened
  releases scope c execution hmember := by
    obtain ⟨x, p', hthere, hhere', hmine⟩ := h.there hmember rfl
    obtain rfl := Option.some.inj (hhere.symm.trans hhere')
    have haccount : s.world.account? q = some p.account := World.account?_eq hhere
    obtain ⟨hok, hback⟩ := World.release_of_closed hhere hthere hmine hclosed
    refine ⟨hok, ?_⟩
    rw [World.inFlight?_eq hthere]
    cases hrecord : x.inFlight with
    | none =>
      rw [hrecord] at hback
      have hback : (s.world.release q c).2.account? = s.world.booked q .takeBack := hback
      show (s.world.release q c).2.account? q = _
      rw [hback, World.booked_self hhere]
    | some call =>
      rw [hrecord] at hback
      have hback : (s.world.release q c).2.account? = s.world.account? ∧ _ := hback
      exact ⟨by rw [hback.1, haccount], hback.2⟩
  settles scope c call hmember := by
    obtain ⟨x, p', hthere, -, -⟩ := h.there hmember rfl
    exact World.putBack_of_closed (h.housed (.of_task hmember rfl)) hhere hthere hclosed
  returns c hmember := by
    obtain ⟨x, p', hthere, -, -⟩ := h.there hmember rfl
    have hdisposed := World.enqueue_of_closed hhere hthere hclosed
    refine ⟨hdisposed, ?_⟩
    rcases hfound : s.world.enqueue q c with ⟨returned, w⟩
    rw [hfound] at hdisposed
    obtain rfl : returned = some .disposed := hdisposed
    rw [World.enqueue_account hfound, if_pos rfl, World.booked_self hhere]
  announces c hmember := by
    obtain ⟨x, p', hthere, -, -⟩ := h.there hmember rfl
    rw [World.announce_account hhere hthere, World.booked_self hhere]
  counts hsmall task hmember hplace hsubject := by
    have hnumber := (h.toNat_counted hhere hsmall).1
    have hpositive : 0 < s.tasks.countP (Task.isOut q) :=
      List.countP_pos_iff.mpr ⟨task, hmember, decide_eq_true ⟨hplace, hsubject⟩⟩
    -- No counter wraps around: this context is one of those that are counted as borrowed.
    show (p.counters.borrowed - 1).toNat + 1 = p.counters.borrowed.toNat
    have hbelow : (1 : UInt64) ≤ p.counters.borrowed := by
      rw [UInt64.le_iff_toNat_le, hnumber]
      exact hpositive
    rw [UInt64.toNat_sub_of_le _ _ hbelow]
    have hone : (1 : UInt64).toNat = 1 := rfl
    omega
  again := World.close_of_closed hhere hclosed
  -- Without tasks there is nothing to count, in either counter.
  gone hnone := by
    obtain ⟨hborrowed, hsettling⟩ := h.counted hhere
    have hout : s.tasks.countP (Task.isOut q) = 0 := by
      refine List.countP_eq_zero.mpr fun task hmember hout => ?_
      obtain ⟨hplace, hsubject⟩ := of_decide_eq_true hout
      rw [hnone task hmember hplace] at hsubject
      cases hsubject
    have hleft : s.tasks.countP (Task.isLeft q s.world) = 0 := by
      refine List.countP_eq_zero.mpr fun task hmember hleft => ?_
      exact List.countP_eq_zero.mp hout task hmember (Task.isOut_of_isLeft hleft)
    rw [hout] at hborrowed
    rw [hleft] at hsettling
    exact ⟨hborrowed, hsettling⟩

/-- Let a pool be closed in any reachable scene: one who asks may have been granted a permit and
not have taken a context, one who gives back may have queued a context and not have given its
permit. In every later scene the pool is closed and its queue empty; whoever does not have a context
by then gets none, because the pool is closed or, past its first look at the pool, because their
scope has fired; whoever has one gives it back, and it is counted as back, after its call if one is
recorded on it; closing the pool again does nothing; and once everyone is gone, nothing is counted
as lent or left behind. -/
theorem Reachable.shut_down (h : s.Reachable) (hhere : s.world.pools[q]? = some p)
    (hrun : Steps { s with world := s.world.close q } t) :
    (∃ p', t.ShutDown q p' ∧ p'.capacity = p.capacity) ∧
      ∀ scope c, t.Lent q scope c → s.Lent q scope c := by
  have hclosing : Step s { s with world := s.world.close q } := .close q
  have hshut := World.close_shut hhere
  have hclosed := h.step hclosing
  obtain ⟨p', hhere', hshut'⟩ := World.closed?_eq_true (Steps.closed hrun hshut)
  refine ⟨⟨p', (hclosed.steps hrun).shutDown_of_closed hhere' hshut', ?_⟩, fun scope c hlent => ?_⟩
  · exact h.capacity (Relation.ReflTransGen.head hclosing hrun) hhere hhere'
  · exact hclosed.lent_before (q := q) hshut hrun hlent

/-- One caller has a permit and another one waits when their pool is closed. The first finds no
context, and then the second is refused. -/
theorem shut_down_one_waits : ∃ (s t : Scene) (p : Pool), s.Reachable ∧
    s.tasks = [.waiting 0 1 1, .permitted 0 1] ∧
    Steps { s with world := s.world.close 0 } t ∧ t.tasks = [.waiting 0 1 1] ∧
    t.ShutDown 0 p ∧ (t.world.askAgain 0 1 1).1 = .refused (t.world.refusal 1) ∧
    ∀ c, ¬ t.Lent 0 1 c := by
  obtain ⟨s, h, htasks, hhere⟩ := one_waits (.script ⟨"guest", none, [], []⟩ none .empty) default
  obtain ⟨⟨p, hshut, -⟩, -⟩ := h.shut_down hhere .refl
  have hrefused := hshut.takes 1 (by simp [htasks])
  rcases hfound : (s.world.close 0).handOut 0 1 with ⟨taken, w⟩
  rw [hfound] at hrefused
  obtain rfl : taken = refuse .shuttingDown := hrefused
  have htask : s.tasks = [.waiting 0 1 1] ++ .permitted 0 1 :: [] := htasks
  have hrun : Steps { s with world := s.world.close 0 } _ := .single (.take htask hfound)
  obtain ⟨⟨p', hshut', -⟩, had⟩ := h.shut_down hhere hrun
  refine ⟨s, _, p', h, htasks, hrun, rfl, hshut', ?_, fun c hlent => ?_⟩
  · exact hshut'.looks 1 1 (List.mem_singleton_self _)
  · -- neither of the two had a context
    obtain ⟨execution, hmember⟩ := had 1 c hlent
    simp [htasks] at hmember

end Scene
end SandboxPool
