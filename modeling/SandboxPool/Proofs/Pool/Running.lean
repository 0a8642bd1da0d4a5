import SandboxPool.Proofs.Pool.Driving
import SandboxPool.Proofs.Pool.Operations
import SandboxPool.Proofs.Pool.Visits

/-!
# Running a callback in one go

`World.withContext` borrows a context, runs a callback and gives the context back, all in one go.
This is a visit: what it does to the world and what it answers is what a visit comes to in which
everything else happens in between that `World.borrow` lets happen (`Visit.withContext_steps`).
What is proved of visits then says what comes of running a callback,
`Scene.Reachable.callback_gives_back`.
-/

namespace SandboxPool
namespace World

variable {w : World} {e : Execution} {x : Context}

/-- An execution on a context on which no call was left ends at its deadline at the latest. -/
theorem endsInTime_of_none (hnothing : w.deferred = []) (hhere : w.contexts[e.context]? = some x)
    (hrecord : x.inFlight = none) (hfresh : e.phase = .fresh) : w.EndsInTime e := by
  intro run w' hlooked
  have hlent : ∀ d ∈ w.deferred, d.1 ≠ e.context := by simp [hnothing]
  rcases pollFor_tends hhere hrecord hlent (.inl hfresh) hlooked with ⟨hzero, -⟩ | htends
  · cases hzero
  · -- its own call is under way by then
    cases htends with
    | goesOn _ hphase _ => exact pollWith_running_late w' (carryOn []) hphase

end World

/-- A callback that is run with a context in one go, each of its executions to the end: how it ends,
and the world that it leaves. -/
inductive Callback.Runs {β : Type} (c : ContextId) :
    Callback β → World → World.CallbackEnd β → World → Prop where
  | ends {ended w} : Runs c (.ends ended) w ended w
  | executes {function args next w ended w'}
      (hinTime : ∀ {e}, w.prepare c function args = .ok e → w.EndsInTime e)
      (hgoesOn : Runs c (next (w.execute c function args).1) (w.execute c function args).2
      ended w') :
      Runs c (.executes function args next) w ended w'

namespace Visit

variable {β : Type} {q : Nat} {scope : ScopeId} {u v t : Visit q scope β} {callback : Callback β}
  {s : Scene}

/-! ## Borrowing in one go -/

/-- While a visit waits, calls go on, and nothing else does by itself. -/
theorem background_step {w : World} (h : v.scene.Reachable)
    (hmove : World.Background v.world w) : v.QuietStep { v with world := w } := by
  cases hmove with
  | carries id fuel shut =>
    have hstep : v.scene.Step ⟨v.world.carryFor (fun _ => fuel) shut id, v.own ++ v.others,
      v.scopes, v.joined⟩ := .carry id fuel shut
    have hpools := (v.world.carryFor_carried (fun _ => fuel) shut id).pools
    exact .inr ⟨.intro hstep, congrArg (·[q]?) hpools⟩
  | settles hfound _ =>
    rw [show v.world.deferred = [] from h.deferred] at hfound
    simp at hfound

theorem runBackground_steps (h : v.scene.Reachable) :
    QuietSteps v { v with world := v.world.runBackground } := by
  obtain ⟨t, hsteps, -, rfl⟩ := followed (r := World.Background) (R := QuietStep)
    (P := fun w t => t.scene.Reachable ∧ t = { v with world := w })
    (fun hmove hat => by
      obtain ⟨ht, rfl⟩ := hat
      have hsteps : QuietSteps _ _ := .single (background_step ht hmove)
      exact ⟨_, hsteps, (QuietSteps.steps hsteps).reachable ht, rfl⟩)
    v.world.runBackground_background ⟨h, rfl⟩
  exact hsteps

/-- A visit gets its context as anybody does. -/
theorem approaches_steps {a : World.Applicant} {b : World × World.Applicant}
    (hstage : v.stage = .ofApplicant callback a)
    (hrun : Relation.ReflTransGen (World.Approaches q scope) (v.world, a) b) :
    ∃ t, QuietSteps v t ∧ t.world = b.1 ∧ t.stage = .ofApplicant callback b.2 := by
  refine followed (r := World.Approaches q scope) (R := QuietStep)
    (P := fun a t => t.world = a.1 ∧ t.stage = .ofApplicant callback a.2)
    (fun {a b t} hmove hat => ?_) hrun ⟨rfl, hstage⟩
  obtain ⟨notes, hgoes⟩ := Stage.Goes.of_approaches hmove callback
  rw [← hat.1, ← hat.2] at hgoes
  exact ⟨_, .single (.inl (.goes hgoes)), rfl, rfl⟩

theorem acquire_steps {borrowed : World.Borrowed} {w : World} (hmade : scope ∈ s.scopes)
    (callback : Callback β) (hfound : s.world.acquire q scope = (borrowed, w)) :
    ∃ v : Visit q scope β, QuietSteps (start q scope s callback) v ∧ v.world = w ∧
      v.stage = .ofApplicant callback (.ofBorrowed borrowed) := by
  by_cases hopen : s.world.isOpen q
  · have hentered : QuietSteps (start q scope s callback) _ :=
      .single (.inl (.enters rfl hmade hopen))
    obtain ⟨v, hrun, hworld, hstage⟩ := approaches_steps (a := .asking)
      (v := { start q scope s callback with stage := .asking callback }) rfl
      (World.acquire_approaches hopen hfound)
    exact ⟨v, hentered.trans hrun, hworld, hstage⟩
  · have hshut := Bool.eq_false_iff.mpr hopen
    rw [World.acquire_shut hshut] at hfound
    obtain ⟨rfl, rfl⟩ := Prod.mk.inj hfound
    exact ⟨_, .single (.inl (.goes (.turnsAway rfl hshut))), rfl, rfl⟩

/-- Borrowing in one go is what a visit comes to that lets calls go on while it waits. -/
theorem borrow_steps {taken : Outcome ContextId} {w : World} (h : s.Reachable)
    (hmade : scope ∈ s.scopes) (callback : Callback β)
    (hfound : s.world.borrow q scope = (taken, w)) :
    ∃ v : Visit q scope β, QuietSteps (start q scope s callback) v ∧ v.world = w ∧
      v.stage = .ofTaken callback taken := by
  unfold World.borrow at hfound
  rcases hacquires : s.world.acquire q scope with ⟨borrowed, w₁⟩
  obtain ⟨v, hrun, rfl, hstage⟩ := acquire_steps hmade callback hacquires
  rw [hacquires] at hfound
  -- Whoever is put in line looks once more after everybody else has had a turn.
  cases borrowed with
  | answered result =>
    obtain ⟨rfl, rfl⟩ := Prod.mk.inj hfound
    exact ⟨v, hrun, rfl, hstage⟩
  | waiting waiter =>
    have hwaited := hrun.trans (runBackground_steps ((QuietSteps.steps hrun).reachable h))
    rcases hlooks : v.world.runBackground.lookAgain q scope waiter with ⟨borrowed', w₂⟩
    obtain ⟨u, hrun', rfl, hstage'⟩ := approaches_steps
      (v := { v with world := v.world.runBackground })
      hstage (World.lookAgain_approaches hlooks)
    have hlooked := hwaited.trans hrun'
    dsimp only at hfound
    rw [hlooks] at hfound
    cases borrowed' with
    | answered result =>
      obtain ⟨rfl, rfl⟩ := Prod.mk.inj hfound
      exact ⟨u, hlooked, rfl, hstage'⟩
    | waiting waiter' =>
      obtain ⟨rfl, rfl⟩ := Prod.mk.inj hfound
      exact ⟨_, hlooked.tail (.inl (.givesUp hstage')), rfl, rfl⟩

/-! ## Executing in one go -/

/-- A visit attends to its execution as anybody does. -/
theorem attends_steps {c : ContextId} {e : Execution} {next : Outcome (List Value) → Callback β}
    {polled : Polled} {w : World} (h : v.scene.Reachable)
    (hstage : v.stage = .executing c e next)
    (hrun : Relation.ReflTransGen World.Attends (v.world, .pending e) (w, polled)) :
    ∃ t, QuietSteps v t ∧ t.world = w ∧ t.stage = .ofPolled c next polled := by
  obtain ⟨t, hsteps, -, hat⟩ := followed (r := World.Attends) (R := QuietStep)
    (P := fun a t => t.scene.Reachable ∧ t.world = a.1 ∧ t.stage = .ofPolled c next a.2)
    (fun {a b t} hmove hat => by
      obtain ⟨ht, hworld, hstage⟩ := hat
      rcases Stage.Goes.of_attends hmove c next with ⟨notes, hgoes⟩ | ⟨hbackground, hsame⟩
      · rw [← hworld, ← hstage] at hgoes
        have hsteps : QuietSteps t _ := .single (.inl (.goes hgoes))
        exact ⟨_, hsteps, (QuietSteps.steps hsteps).reachable ht, rfl, rfl⟩
      · rw [← hworld] at hbackground
        have hsteps : QuietSteps t _ := .single (background_step ht hbackground)
        exact ⟨_, hsteps, (QuietSteps.steps hsteps).reachable ht, rfl, hsame ▸ hstage⟩)
    hrun ⟨h, rfl, hstage⟩
  exact ⟨t, hsteps, hat⟩

theorem execute_steps {c : ContextId} {function : String} {args : List Value}
    {next : Outcome (List Value) → Callback β} (h : v.scene.Reachable)
    (hstage : v.stage = .inside c (.executes function args next))
    (hinTime : ∀ {e}, v.world.prepare c function args = .ok e → v.world.EndsInTime e) :
    ∃ t, QuietSteps v t ∧ t.world = (v.world.execute c function args).2 ∧
      t.stage = .inside c (next (v.world.execute c function args).1) := by
  unfold World.execute
  cases hprepared : v.world.prepare c function args with
  | error failure => exact ⟨_, .single (.inl (.goes (.misses hstage hprepared))), rfl, rfl⟩
  | ok e =>
    have hbegun : QuietSteps v _ := .single (.inl (.goes (.prepares hstage hprepared)))
    obtain ⟨t, hdriven, hworld, hdone⟩ :=
      attends_steps (v := { v with stage := .executing c e next })
        ((QuietSteps.steps hbegun).reachable h) rfl (World.drive_attends (hinTime hprepared) rfl)
    exact ⟨t, hbegun.trans hdriven, hworld, hdone⟩

/-! ## Giving back in one go -/

/-- Giving back in one go is what a visit comes to that is not interrupted. -/
theorem release_moves (h : v.scene.Reachable) {c : ContextId} {ended : World.CallbackEnd β}
    (hstage : v.stage = .inside c (.ends ended)) (hrest : v.rest = .nothing) :
    ∃ t, Moves v t ∧ t.stage = .released (v.world.release q c).1 ended ∧
      t.world.pools = (v.world.release q c).2.pools ∧
      t.world.contexts = (v.world.release q c).2.contexts := by
  have hmember : .holding q scope c none ∈ v.scene.tasks := mem_of_task (by rw [hstage]; rfl)
  obtain ⟨x, p, hthere, hhere, hmine⟩ := h.there hmember rfl
  have hthere : v.world.contexts[c]? = some x := hthere
  have hhere : v.world.pools[q]? = some p := hhere
  rcases hletGo : v.world.letGo c with ⟨record, w₁⟩
  have hgone : Moves v _ := .single (.releases hstage hrest hletGo)
  obtain ⟨event, hreleased⟩ := World.release_own hhere hthere hmine hletGo
  rw [hreleased]
  -- A record defers the return; without one the context is put back move by move.
  cases record with
  | some call => exact ⟨_, hgone, rfl, rfl, rfl⟩
  | none =>
    rcases hback : w₁.enqueue q c with ⟨returned, w₂⟩
    have hqueued := hgone.tail (.goes (.enqueues rfl hback))
    unfold World.requeue at hqueued ⊢
    dsimp only at hqueued ⊢
    rw [hback] at hqueued ⊢
    rcases returned with _ | (_ | _ | _)
    · exact ⟨_, hqueued, rfl, rfl, rfl⟩
    · exact ⟨_, hqueued.tail (.goes (.announces rfl)), rfl, rfl, rfl⟩
    · exact ⟨_, hqueued, rfl, rfl, rfl⟩
    · exact ⟨_, hqueued, rfl, rfl, rfl⟩

theorem conclude_moves (h : v.scene.Reachable) {c : ContextId} {ended : World.CallbackEnd β}
    (hstage : v.stage = .inside c (.ends ended)) (hrest : v.rest = .nothing) :
    ∃ t, Moves v t ∧ t.stage = .finished (some ended) (v.world.conclude q c ended).1 ∧
      t.world.pools = (v.world.conclude q c ended).2.pools ∧
      t.world.contexts = (v.world.conclude q c ended).2.contexts := by
  obtain ⟨t, hrun, hback, hpools, hcontexts⟩ := release_moves h hstage hrest
  unfold World.conclude
  cases ended with
  | returned result => exact ⟨_, hrun.tail (.goes (.reports hback)), rfl, hpools, hcontexts⟩
  | panicked message =>
    refine ⟨_, hrun.tail (.faults hback), rfl, ?_, hcontexts⟩
    exact congrArg (fun pools => pools.modify q (·.count Counters.fault)) hpools

/-! ## Running a callback in one go -/

theorem Moves.quiet (hrun : Moves u v) : QuietSteps u v :=
  Relation.ReflTransGen.mono (fun _ _ => .inl) u v hrun

/-- One who is about to run a callback, or whose callback goes on, has left nothing to be done. -/
theorem Told.rest_of_inside (htold : v.Told callback) {c : ContextId} {next : Callback β}
    (hstage : v.stage = .inside c next) : v.rest = .nothing := by
  unfold Told at htold
  rw [hstage] at htold
  exact htold.1.rest

/-- Running a callback in one go is what a visit comes to that has got to it. -/
theorem runs_steps {c : ContextId} {w w' : World} {ended : World.CallbackEnd β}
    (hruns : callback.Runs c w ended w') {v : Visit q scope β} (h : v.scene.Reachable)
    (hworld : v.world = w) (hstage : v.stage = .inside c callback) :
    ∃ t, QuietSteps v t ∧ t.world = w' ∧ t.stage = .inside c (.ends ended) := by
  induction hruns generalizing v with
  | ends => exact ⟨v, .refl, hworld, hstage⟩
  | executes hinTime _ hgoesOn =>
    subst hworld
    obtain ⟨t, hexecuted, hworld, hstage'⟩ := execute_steps h hstage hinTime
    obtain ⟨u, hlast, hworld', hends⟩ :=
      hgoesOn ((QuietSteps.steps hexecuted).reachable h) hworld hstage'
    exact ⟨u, hexecuted.trans hlast, hworld', hends⟩

/-- What running a callback in one go answers, against a visit that ended with `ended`. -/
structure Accords {α : Type} (s : Scene) (callback : Callback β)
    (run : ContextId → World → α × World.CallbackEnd β × World) (report : Option α)
    (result : Outcome β) (ended : Option (World.CallbackEnd β)) (v : Visit q scope β) : Prop where
  /-- The callback is run exactly if a context is lent. -/
  ran : report.isSome ↔ ∃ c w, s.world.borrow q scope = (.ok c, w)
  /-- One who gets no context is told why. -/
  refused : ∀ {failure w}, s.world.borrow q scope = (.error failure, w) →
    ended = none ∧ result = .error failure
  /-- The callback is given the context that was lent, in the world that borrowing has left, and
  the visit has been there. -/
  given : ∀ {c w}, s.world.borrow q scope = (.ok c, w) →
    report = some (run c w).1 ∧ ended = some (run c w).2.1 ∧
      ∃ u, QuietSteps (start q scope s callback) u ∧ u.stage = .inside c callback ∧
        u.world = w ∧ QuietSteps u v

/-- So is borrowing, running the callback and giving back. -/
theorem withContext_steps {α : Type} (h : s.Reachable) (hmade : scope ∈ s.scopes)
    {run : ContextId → World → α × World.CallbackEnd β × World}
    (hruns : ∀ {c w}, s.world.borrow q scope = (.ok c, w) →
      callback.Runs c w (run c w).2.1 (run c w).2.2)
    {report : Option α} {result : Outcome β} {w : World}
    (hfound : s.world.withContext q scope run = (report, result, w)) :
    ∃ (v : Visit q scope β) (ended : Option (World.CallbackEnd β)),
      QuietSteps (start q scope s callback) v ∧ v.stage = .finished ended result ∧
      ended.isSome = report.isSome ∧ v.world.pools = w.pools ∧
      v.world.contexts = w.contexts ∧ v.Accords s callback run report result ended := by
  unfold World.withContext at hfound
  rcases hborrows : s.world.borrow q scope with ⟨taken, w₁⟩
  obtain ⟨v, hborrowed, rfl, hstage⟩ := borrow_steps h hmade callback hborrows
  rw [hborrows] at hfound
  -- Either no context was lent and the callback never ran, or one was, and it did.
  cases taken with
  | error failure =>
    cases hfound
    refine ⟨v, none, hborrowed, hstage, rfl, rfl, rfl, ?_, fun hrefused => ?_, fun hlent => ?_⟩
    · exact ⟨nofun, fun ⟨c, w, hlent⟩ => nomatch hborrows.symm.trans hlent⟩
    · cases hborrows.symm.trans hrefused
      exact ⟨rfl, rfl⟩
    · cases hborrows.symm.trans hlent
  | ok c =>
    have h₁ := (QuietSteps.steps hborrowed).reachable h
    obtain ⟨t, hran, hworld, hends⟩ := runs_steps (hruns hborrows) h₁ rfl hstage
    obtain ⟨h₂, htold⟩ := (QuietSteps.steps (hborrowed.trans hran)).told h
    obtain ⟨u, hback, hdone, hpools, hcontexts⟩ :=
      conclude_moves h₂ hends (htold.rest_of_inside hends)
    rw [hworld] at hdone hpools hcontexts
    cases hfound
    refine ⟨u, some _, (hborrowed.trans hran).trans hback.quiet, hdone, rfl, hpools, hcontexts, ?_,
      fun hrefused => ?_, fun hlent => ?_⟩
    · exact ⟨fun _ => ⟨c, _, hborrows⟩, fun _ => rfl⟩
    · cases hborrows.symm.trans hrefused
    · cases hborrows.symm.trans hlent
      exact ⟨rfl, rfl, v, hborrowed, hstage, rfl, hran.trans hback.quiet⟩

/-! ## What comes of running a callback -/

/-- What is true of a visit whatever the others do. -/
structure Orderly (callback : Callback β) (v : Visit q scope β) : Prop where
  /-- One who gets no context is told why, and has not run its callback. -/
  refused : ∀ result, v.stage = .finished none result →
    v.Untouched ∧ (result = refuse .shuttingDown ∨ result = refuse .cancelled)
  /-- Otherwise one context was borrowed and given back, each once, and what the end of the callback
  means is what the visit comes to. -/
  ended : ∀ ended result, v.stage = .finished (some ended) result →
    result = ended.outcome ∧ ∃ c, v.GaveBack c callback ended
  /-- Nothing else is answered where the context is given back in one go. -/
  concludes : ∀ c ended, v.stage = .inside c (.ends ended) →
    (v.world.conclude q c ended).1 = ended.outcome
  /-- One who has no context has done nothing, and changes nothing of any pool but permits. -/
  unlent : v.borrowed = [] → v.Untouched ∧
    ∀ t, v.Move t → t.borrowed = [] → t.world.stock? = v.world.stock?
  /-- One who has got a context gets to its end by itself. -/
  finishes : v.borrowed ≠ [] → v.Finishes
  /-- The context gets back, at the latest when the call that was left on it is over. -/
  putsBack : (∀ c call, v.rest = .settling c call → (v.world.ended? call).isSome) → v.PutsBack

/-- What is true of a visit if nobody else uses the pool, which was `p`. -/
structure Undisturbed (p : Pool) (v : Visit q scope β) : Prop where
  /-- One who gets no context leaves the pool as it was. -/
  refused : ∀ result, v.stage = .finished none result → v.world.pools[q]? = some p
  /-- One who got a context leaves it with the faults that it has seen, once the context is back. -/
  restored : ∀ ended result, v.stage = .finished (some ended) result → v.rest = .nothing →
    ∃ p', v.world.pools[q]? = some p' ∧ p.Restored p' (v.panics + ended.panics)

theorem Steps.orderly (h : s.Reachable) (hrun : Steps (start q scope s callback) v) :
    v.Orderly callback := by
  obtain ⟨h', htold⟩ := hrun.told h
  have hlast := htold
  unfold Told at hlast
  refine ⟨fun result hstage => ?_, fun ended result hstage => ?_, fun c ended hstage => ?_,
    fun hnone => ?_, htold.finishes, putsBack⟩
  · rw [hstage] at hlast
    exact hlast
  · rw [hstage] at hlast
    exact hlast
  · have hmember : .holding q scope c none ∈ v.scene.tasks := mem_of_task (by rw [hstage]; rfl)
    exact h'.conclude_outcome hmember ended
  · exact ⟨htold.untouched hnone, fun t hmove => hmove.stock htold⟩

theorem QuietSteps.undisturbed {p : Pool} (h : s.Reachable) (hhere : s.world.pools[q]? = some p)
    (hrun : QuietSteps (start q scope s callback) v) : v.Undisturbed p := by
  have hbefore := hrun.before h hhere
  unfold Before at hbefore
  refine ⟨fun result hstage => ?_, fun ended result hstage hrest => ?_⟩
  · rw [hstage] at hbefore
    exact hbefore
  · obtain ⟨p', hhere', hrestored⟩ := hrun.restored h hhere (by rw [hstage]; rfl) hrest
    refine ⟨p', hhere', ?_⟩
    have hfaults : v.faults = v.panics + ended.panics := by
      unfold Visit.faults
      rw [hstage]
      rfl
    rw [← hfaults]
    exact hrestored

end Visit

namespace Scene

variable {s : Scene} {β : Type}

/-- Let somebody run a callback with a context of the pool at `q`, from any reachable scene on and
while the others do anything. If it gets no context, the callback is not run, and nothing was
changed but permits; if it gets one, it comes to an end by itself, gives the context back once, and
answers with what the callback returned or panicked with, and with nothing else. If nobody else uses
the pool, it is exactly as it was in the one case, and in the other case, once a call that was left
on the context is over, as many contexts are idle, lent and waiting for a call as before, and there
is one fault more for each panic. Running a callback in one go comes to the same: it is run exactly
if a context is lent, on that context and in the world that borrowing has left. -/
theorem Reachable.callback_gives_back (h : s.Reachable) (q : Nat) (scope : ScopeId)
    (callback : Callback β) :
    (∀ v, Visit.Steps (.start q scope s callback) v → v.Orderly callback) ∧
    (∀ v p, s.world.pools[q]? = some p → Visit.QuietSteps (.start q scope s callback) v →
      v.Undisturbed p) ∧
    ∀ {α : Type} {run : ContextId → World → α × World.CallbackEnd β × World} {report result w},
      scope ∈ s.scopes →
      (∀ {c w}, s.world.borrow q scope = (.ok c, w) →
        callback.Runs c w (run c w).2.1 (run c w).2.2) →
      s.world.withContext q scope run = (report, result, w) →
      ∃ (v : Visit q scope β) (ended : Option (World.CallbackEnd β)),
        Visit.QuietSteps (.start q scope s callback) v ∧ v.stage = .finished ended result ∧
        ended.isSome = report.isSome ∧ v.world.pools = w.pools ∧
        v.world.contexts = w.contexts ∧ v.Accords s callback run report result ended :=
  ⟨fun _ => Visit.Steps.orderly h, fun _ _ => Visit.QuietSteps.undisturbed h,
    fun hmade hruns => Visit.withContext_steps h hmade hruns⟩

/-- A callback panics at once. Its context is back in the queue afterwards, and one fault is
counted. Another one, run in one go in the same scene, executes a function before it panics. -/
theorem callback_gives_back_panic : ∃ (s : Scene) (p p' : Pool) (v v' : Visit 0 1 Unit)
    (report : Option (Outcome (List Value))) (result : Outcome Unit) (w : World)
    (ended : Option (World.CallbackEnd Unit)), s.Reachable ∧
    s.world.pools[0]? = some p ∧ v.world.pools[0]? = some p' ∧ p.idle = [0] ∧ p'.idle = [0] ∧
    Visit.QuietSteps (.start 0 1 s (.ends (.panicked "boom"))) v ∧
    v.stage = .finished (some (.panicked "boom")) (refuse (.fault "boom")) ∧
    v.borrowed = [0] ∧ v.released = [0] ∧ p.Restored p' 1 ∧
    (s.world.withContext 0 1 fun c w =>
      ((w.execute c "run" []).1, .panicked "boom", (w.execute c "run" []).2)) =
        (report, result, w) ∧
    Visit.QuietSteps (.start 0 1 s (.executes "run" [] fun _ => .ends (.panicked "boom"))) v' ∧
    v'.stage = .finished ended result := by
  let callback : Callback Unit := .ends (.panicked "boom")
  let fresh := World.ofGuest (.script ⟨"guest", none, [], [("run", [])]⟩ none .empty) default
  let s : Scene := ⟨fresh.freshScope.2, [], [1], []⟩
  have h : s.Reachable := (Reachable.start (World.ofGuest_fresh _ _)).step .scope
  have hrun : Visit.QuietSteps (.start 0 1 s callback) _ :=
    .single (.inl (.enters rfl (List.mem_singleton_self 1) rfl))
  have hrun := hrun.tail (.inl (.goes (.asks rfl rfl)))
  have hrun := hrun.tail (.inl (.goes (.takes rfl rfl)))
  have hrun := hrun.tail (.inl (.releases rfl rfl rfl))
  have hrun := hrun.tail (.inl (.goes (.enqueues rfl rfl)))
  have hrun := hrun.tail (.inl (.goes (.announces rfl)))
  have hrun := hrun.tail (.inl (.faults rfl))
  obtain ⟨horderly, hundisturbed, -⟩ := h.callback_gives_back 0 1 callback
  obtain ⟨-, c, hgave⟩ := (horderly _ (Visit.QuietSteps.steps hrun)).ended _ _ rfl
  obtain ⟨p', hhere', hrestored⟩ := (hundisturbed _ _ rfl hrun).restored _ _ rfl rfl
  have hzero : (0 : ContextId) = c := (List.cons.inj hgave.borrowed).1
  subst hzero
  let oneGo (c : ContextId) (w : World) : Outcome (List Value) × World.CallbackEnd Unit × World :=
    ((w.execute c "run" []).1, .panicked "boom", (w.execute c "run" []).2)
  -- nothing was left on the context that is borrowed, so the execution ends in time
  have hfirst : s.world.borrow 0 1 = (.ok 0, (s.world.borrow 0 1).2) := rfl
  have hnothing : (s.world.borrow 0 1).2.deferred = [] := rfl
  obtain ⟨x, hhere, hclean⟩ : ∃ x, (s.world.borrow 0 1).2.contexts[0]? = some x ∧
      x.inFlight = none := ⟨_, rfl, rfl⟩
  have hruns {c : ContextId} {w : World} (hborrowed : s.world.borrow 0 1 = (.ok c, w)) :
      (Callback.executes "run" [] fun _ => callback).Runs c w (oneGo c w).2.1 (oneGo c w).2.2 := by
    refine .executes (fun hprepared => ?_) .ends
    obtain rfl := World.prepare_eq hprepared
    obtain ⟨hzero, rfl⟩ := Prod.mk.inj (hfirst.symm.trans hborrowed)
    obtain rfl := Except.ok.inj hzero
    exact World.endsInTime_of_none hnothing hhere hclean rfl
  rcases hfound : s.world.withContext 0 1 oneGo with ⟨report, result, w⟩
  obtain ⟨v', ended, hrun', hstage, -⟩ := (h.callback_gives_back 0 1
    (.executes "run" [] fun _ => callback)).2.2
    (List.mem_singleton_self 1) (by exact hruns) hfound
  exact ⟨s, _, p', _, v', report, result, w, ended, h, rfl, hhere', rfl,
    congrArg Pool.idle (Option.some.inj hhere').symm, hrun, rfl, hgave.borrowed, hgave.released,
    hrestored, hfound, hrun', hstage⟩

end Scene
end SandboxPool
