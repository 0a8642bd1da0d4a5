import SandboxPool.Proofs.Pool.Callbacks
import SandboxPool.Proofs.Pool.Exports
import SandboxPool.Proofs.Pool.Rounds

/-!
# How executions return, and what is counted for it

An execution returns because its own call has ended, because the deadline or the caller's scope
ends a wait, or because the scope has fired before anything was left to wait for. `World.Ends` lists
these ways with what the caller is told. `World.pollWith_ends` says that the list is complete, and
that each of them counts one thing for the pool, the last one nothing. It is complete because a
function that was exported when the execution was prepared is exported still
(`Scene.Reachable.exported`).
-/

namespace SandboxPool

/-- Why an execution has returned. -/
inductive Verdict where
  /-- Its own call has ended without a panic. -/
  | completed
  /-- Its own call has panicked. -/
  | panicked
  /-- Its deadline has passed while it waited for an earlier call or for its own. -/
  | timedOut
  /-- The caller's scope has fired while it waited for an earlier call or for its own. -/
  | cancelled
  /-- The caller's scope had fired when no earlier call was left to wait for. -/
  | refused
  deriving Repr, DecidableEq

/-- What a pool counts of executions. -/
structure Score where
  completed : Counter
  timeouts : Counter
  cancellations : Counter
  faults : Counter

namespace Score

/-- One more execution has returned. -/
def add : Verdict → Score → Score
  | .completed, t => { t with completed := t.completed + 1 }
  | .panicked, t => { t with faults := t.faults + 1 }
  | .timedOut, t => { t with timeouts := t.timeouts + 1 }
  | .cancelled, t => { t with cancellations := t.cancellations + 1 }
  | .refused, t => t

/-- A callback has panicked. -/
def fault (t : Score) : Score := { t with faults := t.faults + 1 }

end Score

/-- What counters say of executions. -/
def Counters.score (k : Counters) : Score := ⟨k.completed, k.timeouts, k.cancellations, k.faults⟩

/-- What a pool has counted of executions. -/
def Pool.score (p : Pool) : Score := p.counters.score

namespace Pool

variable {p p' : Pool} {c : ContextId}

/-- No execution is counted where a context is lent. -/
theorem takeIdle_score {taken : Outcome ContextId} (hfound : p.takeIdle = (taken, p')) :
    p'.score = p.score := by
  obtain ⟨idle, rfl⟩ := takeIdle_queue hfound
  rfl

/-- None is counted where one comes back. -/
theorem pushIdle_score {got : Returned} (hfound : p.pushIdle c = (got, p')) :
    p'.score = p.score := by
  obtain ⟨idle, rfl⟩ := pushIdle_queue hfound
  rfl

/-- None is counted where a pool is closed. -/
theorem close_score {disposed : List ContextId} (hfound : p.close? = some (disposed, p')) :
    p'.score = p.score := by
  unfold close? at hfound
  split at hfound
  · cases hfound
  · obtain ⟨-, rfl⟩ := Prod.mk.inj (Option.some.inj hfound)
    rfl

end Pool

namespace World

/-! ## What operations count of executions -/

/-- What the pool at a place has counted of executions. -/
def score? (w : World) (q : Nat) : Option Score := (w.pools[q]?).map Pool.score

/-- What pools have counted once the count of the one at a place has changed. -/
def scored (w : World) (place : Nat) (f : Score → Score) (q : Nat) : Option Score :=
  if q = place then (w.score? q).map f else w.score? q

variable {w w' : World} {place q : Nat} {c : ContextId} {scope : ScopeId} {f : Score → Score}
  {e : Execution} {x : Context} {late : Bool} {polled : Polled} {result : Outcome (List Value)}

theorem score?_of_pools (hsame : w'.pools = w.pools) : w'.score? = w.score? := by
  funext q
  unfold score?
  rw [hsame]

/-- Scores do not depend on the permits. -/
theorem score?_of_stock (hsame : w'.stock? = w.stock?) : w'.score? = w.score? :=
  funext (map_of_stock (fun _ => rfl) hsame)

theorem scored_id (w : World) (place : Nat) : w.scored place id = w.score? := by
  funext q
  unfold scored
  rw [Option.map_id, id_eq, ite_self]

theorem setPool_score {p p' : Pool} (hhere : w.pools[place]? = some p)
    (hkept : p'.score = p.score) :
    (w.setPool place p').score? = w.score? := funext (setPool_map hhere hkept)

/-- A change of a pool is a change of its score if it shows as one there. -/
theorem modifyPool_score {g : Pool → Pool} (hshown : ∀ p, (g p).score = f p.score) :
    (w.modifyPool place g).score? = w.scored place f := by
  funext q
  unfold scored score?
  rw [modifyPool_pools]
  split
  · rw [Option.map_map, Option.map_map]
    exact congrArg (Option.map · w.pools[q]?) (funext hshown)
  · rfl

/-- What is counted for a context is counted at its home. -/
theorem count_score {g : Counters → Counters} (hhome : w.home? c = some place)
    (hshown : ∀ p : Pool, (p.count g).score = f p.score) :
    (w.count c g).score? = w.scored place f := by
  rw [count_of_home hhome]
  exact modifyPool_score hshown

/-- What does not concern executions may be counted. -/
theorem count_score_kept {g : Counters → Counters}
    (hkept : ∀ p : Pool, (p.count g).score = p.score) :
    (w.count c g).score? = w.score? := funext (count_map hkept c)

/-- Lending a context counts no execution. -/
theorem handOut_score {taken : Outcome ContextId} (hfound : w.handOut place scope = (taken, w')) :
    w'.score? = w.score? := by
  rcases handOut_cases hfound with
    ⟨-, -, rfl⟩ | ⟨p, p', hhere, hanswer, ⟨e, -, rfl⟩ | ⟨c, event, -, rfl⟩⟩
  · rfl
  · exact setPool_score hhere (Pool.takeIdle_score hanswer)
  · have hkept : p'.score = p.score := Pool.takeIdle_score hanswer
    exact setPool_score hhere (show (p'.count Counters.lend).score = _ from hkept)

/-- Taking one back counts none. -/
theorem enqueue_score {returned : Option Pool.Returned}
    (hfound : w.enqueue place c = (returned, w')) : w'.score? = w.score? := by
  rcases enqueue_cases hfound with ⟨-, -, rfl⟩ |
    ⟨p, got, p', hhere, hanswer, -, ⟨-, event, rfl⟩ | ⟨-, rfl⟩⟩
  · rfl
  · have hkept : p'.score = p.score := Pool.pushIdle_score hanswer
    exact setPool_score (w := w.clear c) hhere
      (show (p'.count Counters.takeBack).score = _ from hkept)
  · exact setPool_score (w := w.clear c) hhere (Pool.pushIdle_score hanswer)

theorem announce_score (place : Nat) (c : ContextId) : (w.announce place c).score? = w.score? := by
  unfold announce
  split
  · next p x hhere hthere => exact setPool_score hhere rfl
  · rfl

theorem close_score (place : Nat) : (w.close place).score? = w.score? := by
  rcases close_cases (w := w) place with hsame | ⟨p, p', disposed, event, hhere, hcloses, hsame⟩
  · rw [hsame]
  · rw [hsame]
    exact setPool_score hhere (Pool.close_score hcloses)

/-! ## The ways to return -/

/-- How a look at an execution on a context `x` ends it: what the caller is told, and why. -/
inductive Ends (w : World) (e : Execution) (x : Context) (late : Bool) :
    Outcome (List Value) → Verdict → Prop where
  | completed {own result} (hmine : e.own? = some own)
      (hpast : w.ended? own = some (.returned result)) : Ends w e x late result .completed
  | panicked {own} (hmine : e.own? = some own) (hpast : w.ended? own = some .panicked) :
      Ends w e x late (refuse (.fault ("guest function '" ++ e.function.name ++ "' panicked")))
      .panicked
  | timedOut {id} (hawaits : e.awaits x = some id) (hlive : w.ended? id = none)
      (hunfired : w.hasFired x.scope = false) (hpassed : late = true) :
      Ends w e x late (refuse (.timedOut e.function.name x.timeout)) .timedOut
  | cancelled {id} (hawaits : e.awaits x = some id) (hlive : w.ended? id = none)
      (hfired : w.hasFired x.scope = true) : Ends w e x late (refuse .cancelled) .cancelled
  | refused (hmine : e.own? = none)
      (hpast : ∀ earlier, e.awaits x = some earlier → (w.ended? earlier).isSome)
      (hfired : w.hasFired x.scope = true) : Ends w e x late (refuse .cancelled) .refused

/-- Whether a scope has fired is not a matter of counting. -/
theorem hasFired_of_calm (hcalm : w.Calm w') (scope : ScopeId) :
    w'.hasFired scope = w.hasFired scope := by
  unfold hasFired
  rw [hcalm.fired]

/-- Beginning a call counts nothing. -/
theorem BeginFound.score (hfound : w.BeginFound (fun w _ => w) e x polled w') :
    w'.score? = w.score? := by
  cases hfound <;> rfl

/-- A call that is left behind is no execution that has ended. -/
theorem abandon_score (c : ContextId) (call : CallId) : (w.abandon c call).score? = w.score? :=
  count_score_kept (g := Counters.abandon) fun _ => rfl

/-- An earlier call that is joined is no call of an execution that returns. -/
theorem unrecord_score (c : ContextId) (event : Log.Event) :
    (w.unrecord c event).score? = w.score? :=
  count_score_kept (w := w.modifyContext c _) (g := Counters.settle) fun _ => rfl

/-- A look that does not end an execution counts nothing. -/
theorem pollWith_score_pending {e' : Execution}
    (hfound : w.pollWith (fun w _ => w) e late = (.pending e', w')) : w'.score? = w.score? := by
  cases pollWith_found hfound with
  | nobody _ _ _ hfound => exact hfound.score
  | earlier _ _ _ hfound =>
    cases hfound with
    | settled _ hfound => exact hfound.score.trans (unrecord_score _ _)
    | waits => rfl
  | own _ _ hfound =>
    cases hfound with
    | waits => rfl

/-- An execution whose function is exported begins its call, unless the scope has fired. -/
theorem BeginFound.done (hexported : w.Exports e.function)
    (hfound : w.BeginFound (fun w _ => w) e x (.done result) w') :
    w.hasFired x.scope = true ∧ result = refuse .cancelled ∧ w' = w := by
  obtain ⟨run, hstarts⟩ := hexported.begins e.args
  cases hfound with
  | cancelled hfired => exact ⟨hfired, rfl, rfl⟩
  | fails hfails => cases hstarts.symm.trans hfails

/-- An execution that ends behind an earlier call has lost, or its own call could not begin. -/
theorem EarlierFound.ends {earlier : CallId} (hhome : w.home? e.context = some place)
    (hmine : e.own? = none) (hawaits : e.awaits x = some earlier)
    (hexported : w.Exports e.function)
    (hfound : w.EarlierFound (fun w _ => w) e x earlier late (.done result) w') :
    ∃ verdict, w.Ends e x late result verdict ∧ w'.score? = w.scored place (.add verdict) := by
  cases hfound with
  | settled hpast hfound =>
    -- joining the earlier call leaves the guests what they are, and the scopes that have fired
    obtain ⟨hfired, rfl, rfl⟩ := hfound.done (hexported.congr (origin_blind.unrecord w _ _))
    rw [hasFired_of_calm (unrecord_calm _ _)] at hfired
    refine ⟨.refused, .refused hmine (fun other h => ?_) hfired, ?_⟩
    · obtain rfl := Option.some.inj (hawaits.symm.trans h)
      exact hpast
    · exact (unrecord_score _ _).trans (scored_id w place).symm
  | cancelled hlive hfired =>
    exact ⟨.cancelled, .cancelled hawaits hlive hfired, count_score hhome fun _ => rfl⟩
  | timedOut hlive hunfired hpassed =>
    exact ⟨.timedOut, .timedOut hawaits hlive hunfired hpassed,
      count_score (w := w.log _) hhome fun _ => rfl⟩

/-- One that ends while its call is under way has lost, or the call has ended; each is counted as
what it is. -/
theorem OwnFound.ends {own : CallId} (hhome : w.home? e.context = some place)
    (hphase : e.phase = .running own) (hfound : w.OwnFound e x own late (.done result) w') :
    ∃ verdict, w.Ends e x late result verdict ∧ w'.score? = w.scored place (.add verdict) := by
  have hmine : e.own? = some own := Execution.own?_eq_some.mpr hphase
  have hawaits : e.awaits x = some own := Execution.awaits_of_running hphase
  cases hfound with
  | returned hpast =>
    exact ⟨.completed, .completed hmine hpast, count_score hhome fun _ => rfl⟩
  | panicked hpast =>
    exact ⟨.panicked, .panicked hmine hpast, count_score hhome fun _ => rfl⟩
  | cancelled hlive hfired =>
    refine ⟨.cancelled, .cancelled hawaits hlive hfired, (abandon_score _ _).trans ?_⟩
    exact count_score (w := w.log _) hhome fun _ => rfl
  | timedOut hlive hunfired hpassed =>
    refine ⟨.timedOut, .timedOut hawaits hlive hunfired hpassed, (abandon_score _ _).trans ?_⟩
    exact count_score (w := w.log _) hhome fun _ => rfl

/-- A look that ends an execution ends it in one of these ways, and counts it for the pool. -/
theorem pollWith_ends (hhome : w.home? e.context = some place)
    (hhere : w.contexts[e.context]? = some x) (hexported : w.Exports e.function)
    (hfound : w.pollWith (fun w _ => w) e late = (.done result, w')) :
    ∃ verdict, w.Ends e x late result verdict ∧ w'.score? = w.scored place (.add verdict) := by
  -- Which call is awaited depends on the phase; the verdict is read off that call.
  cases pollWith_found hfound with
  | missing hnowhere => cases hnowhere.symm.trans hhere
  | nobody hthere hmine hnobody hfound =>
    obtain rfl := Option.some.inj (hthere.symm.trans hhere)
    obtain ⟨hfired, rfl, rfl⟩ := hfound.done hexported
    refine ⟨.refused, .refused hmine (fun earlier h => ?_) hfired, (scored_id _ _).symm⟩
    cases hnobody.symm.trans h
  | earlier hthere hmine hawaits hfound =>
    obtain rfl := Option.some.inj (hthere.symm.trans hhere)
    exact hfound.ends hhome hmine hawaits hexported
  | own hthere hphase hfound =>
    obtain rfl := Option.some.inj (hthere.symm.trans hhere)
    exact hfound.ends hhome hphase

end World
end SandboxPool
