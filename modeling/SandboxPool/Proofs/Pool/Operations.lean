import SandboxPool.Proofs.Pool.Housing
import SandboxPool.Proofs.Pool.Moments

/-!
# Operations in one go

What callers and the background do to a `World` in one go is a run of a `Scene` in which nothing
else happens in between: asking for a context and looking again, driving an execution, giving a
context back, and letting calls go on.
-/

namespace SandboxPool

/-! ## Nothing is deferred -/

theorem World.deferred_blind : World.Blind World.deferred where
  count w c g := World.count_deferred w c g
  record _ _ _ := rfl
  log _ _ := rfl
  calls _ _ := rfl

/-- The task of one who wants a context. -/
def Task.ofApplicant (place : Nat) (scope : ScopeId) : World.Applicant → Option Task
  | .asking => some (.asking place scope)
  | .waiting v => some (.waiting place scope v)
  | .permitted => some (.permitted place scope)
  | .answered taken => ofTaken place scope taken

theorem Task.ofApplicant_ofAsked (place : Nat) (scope : ScopeId) (asked : World.Asked) :
    ofApplicant place scope (.ofAsked asked) = ofAsked place scope asked := by
  cases asked <;> rfl

namespace Scene

variable {s t : Scene} {l r : List Task} {place : Nat} {scope : ScopeId} {c : ContextId}

/-- In a scene a context that has to wait for a call is with a task, and not deferred. -/
theorem Step.deferred (hstep : Step s t) : t.world.deferred = s.world.deferred := by
  -- What is deferred is put off by a release in one go, which is no single step.
  cases hstep with
  | scope | fire _ | gate _ | elsewhere _ | enter _ _ _ | touch _ _ _ | prepare _ _ | giveUp _
  | fault _ => rfl
  | carry id fuel shut => exact (World.carryFor_carried _ shut id).deferred
  | ask _ hfound =>
    rcases World.ask_cases hfound with ⟨-, rfl⟩ | ⟨p, p', got, -, -, -, rfl⟩ <;> rfl
  | look _ hfound =>
    rcases World.askAgain_cases hfound with
      ⟨-, ⟨-, rfl⟩ | rfl⟩ | ⟨p, p', got, -, -, -, rfl⟩ <;> rfl
  | take _ hfound =>
    rcases World.handOut_cases hfound with
      ⟨-, -, rfl⟩ | ⟨p, p', -, -, ⟨e, -, rfl⟩ | ⟨c, event, -, rfl⟩⟩ <;> rfl
  | poll _ hfound => exact World.deferred_blind.pollWith hfound
  | release _ hfound =>
    obtain ⟨-, rfl⟩ := Prod.mk.inj hfound
    rfl
  | settle _ _ => exact World.count_deferred _ _ _
  | enqueue _ hfound =>
    rcases World.enqueue_cases hfound with
      ⟨-, -, rfl⟩ | ⟨p, got, p', -, -, -, ⟨-, event, rfl⟩ | ⟨-, rfl⟩⟩ <;> rfl
  | @announce l r place c _ =>
    show (s.world.announce place c).deferred = _
    unfold World.announce
    split <;> rfl
  | close place =>
    show (s.world.close place).deferred = _
    rcases World.close_cases (w := s.world) place with hsame | ⟨p, p', ids, event, -, -, hsame⟩
    · rw [hsame]
    · rw [hsame]
      rfl

theorem Reachable.deferred (h : s.Reachable) : s.world.deferred = [] := by
  induction h with
  | start hfresh => exact hfresh.quiet.2.1
  | step _ hnext ih => exact hnext.deferred.trans ih

/-! ## What goes on by itself -/

/-- In a scene only calls go on by themselves. -/
theorem background_step {w : World} (h : s.Reachable) (hmove : World.Background s.world w) :
    Step s { s with world := w } := by
  cases hmove with
  | carries id fuel shut => exact .carry id fuel shut
  | settles hfound _ =>
    rw [h.deferred] at hfound
    simp at hfound

/-- Letting everything go on that can. -/
theorem background_steps {w : World} (h : s.Reachable)
    (hrun : Relation.ReflTransGen World.Background s.world w) :
    Steps s { s with world := w } := by
  obtain ⟨t, hsteps, -, rfl⟩ := followed (r := World.Background) (R := Step)
    (P := fun w t => t.Reachable ∧ t = { s with world := w })
    (fun hmove hat => by
      obtain ⟨ht, rfl⟩ := hat
      have hstep := background_step ht hmove
      exact ⟨_, .single hstep, ht.step hstep, rfl⟩) hrun ⟨h, rfl⟩
  exact hsteps

theorem runBackground_steps (h : s.Reachable) :
    Steps s { s with world := s.world.runBackground } :=
  background_steps h s.world.runBackground_background

/-! ## Borrowing -/

/-- Getting a context, among others. -/
theorem approaches_steps {w : World} {a a' : World.Applicant}
    (htask : s.tasks = l ++ (Task.ofApplicant place scope a).toList ++ r)
    (hrun : Relation.ReflTransGen (World.Approaches place scope) (s.world, a) (w, a')) :
    Steps s { s with
      world := w
      tasks := l ++ (Task.ofApplicant place scope a').toList ++ r } := by
  -- A move of the applicant is the step of its task, so the whole way lifts at once.
  let stands (a : World × World.Applicant) : Scene :=
    { s with world := a.1, tasks := l ++ (Task.ofApplicant place scope a.2).toList ++ r }
  have hone {a b : World × World.Applicant} (hmove : World.Approaches place scope a b) :
      (stands a).Step (stands b) := by
    cases hmove with
    | @asks w w' asked hfound =>
      have hstep : (stands (w, .asking)).Step _ := .ask (List.append_cons ..).symm hfound
      rwa [← Task.ofApplicant_ofAsked] at hstep
    | @looks w w' v asked hfound =>
      have hstep : (stands (w, .waiting v)).Step _ := .look (List.append_cons ..).symm hfound
      rwa [← Task.ofApplicant_ofAsked] at hstep
    | takes hfound => exact .take (List.append_cons ..).symm hfound
  have hsteps : Steps (stands (s.world, a)) (stands (w, a')) :=
    hrun.lift stands fun _ _ => hone
  rwa [show stands (s.world, a) = s by simp only [stands, ← htask]] at hsteps

/-- Asking for a context, under a scope that a caller has made. -/
theorem acquire_steps {borrowed : World.Borrowed} {w : World} (hmade : scope ∈ s.scopes)
    (hfound : s.world.acquire place scope = (borrowed, w)) :
    ∃ t, Steps s t ∧ t.world = w ∧
      t.tasks = (Task.ofApplicant place scope (.ofBorrowed borrowed)).toList ++ s.tasks := by
  by_cases hopen : s.world.isOpen place
  · have hentered : Steps s _ := .single (.enter place hmade hopen)
    have hrun := approaches_steps (s := { s with tasks := .asking place scope :: s.tasks })
      (l := []) rfl (World.acquire_approaches hopen hfound)
    exact ⟨_, hentered.trans hrun, rfl, rfl⟩
  · rw [World.acquire_shut (Bool.eq_false_iff.mpr hopen)] at hfound
    obtain ⟨rfl, rfl⟩ := Prod.mk.inj hfound
    exact ⟨s, .refl, rfl, rfl⟩

/-- Looking again for a context. -/
theorem lookAgain_steps {v : Waiter} {borrowed : World.Borrowed} {w : World}
    (htask : s.tasks = l ++ .waiting place scope v :: r)
    (hfound : s.world.lookAgain place scope v = (borrowed, w)) :
    ∃ t, Steps s t ∧ t.world = w ∧
      t.tasks = l ++ (Task.ofApplicant place scope (.ofBorrowed borrowed)).toList ++ r :=
  ⟨_, approaches_steps (htask.trans (List.append_cons ..)) (World.lookAgain_approaches hfound),
    rfl, rfl⟩

/-! ## Executing -/

/-- Attending to an execution, among others. -/
theorem attends_steps {e : Execution} {polled : Polled} {w : World} (h : s.Reachable)
    (htask : s.tasks = l ++ .holding place scope c (some e) :: r)
    (hrun : Relation.ReflTransGen World.Attends (s.world, .pending e) (w, polled)) :
    ∃ t, Steps s t ∧ t.world = w ∧ t.tasks = l ++ .holding place scope c polled.rest :: r := by
  -- Looks are steps of the task that waits; between them everybody else takes theirs.
  obtain ⟨t, hsteps, -, hworld, htasks⟩ := followed (r := World.Attends) (R := Step)
    (P := fun a t => t.Reachable ∧ t.world = a.1 ∧
      t.tasks = l ++ .holding place scope c a.2.rest :: r)
    (fun {a b u} hmove hat => by
      obtain ⟨hu, hworld, htasks⟩ := hat
      cases hmove with
      | @looks w _ _ _ _ hfound =>
        obtain rfl : u.world = w := hworld
        have hstep : u.Step _ := .poll htasks hfound
        exact ⟨_, .single hstep, hu.step hstep, rfl, rfl⟩
      | @between w _ _ hbackground =>
        obtain rfl : u.world = w := hworld
        have hstep := background_step hu hbackground
        exact ⟨_, .single hstep, hu.step hstep, rfl, htasks⟩) hrun ⟨h, rfl, htask⟩
  exact ⟨t, hsteps, hworld, htasks⟩

/-- Looking at an execution. -/
theorem poll_steps {e : Execution} {late : Bool} {shut : List String} {polled : Polled} {w : World}
    (h : s.Reachable) (htask : s.tasks = l ++ .holding place scope c (some e) :: r)
    (hfound : s.world.poll e late shut = (polled, w)) :
    ∃ t, Steps s t ∧ t.world = w ∧ t.tasks = l ++ .holding place scope c polled.rest :: r :=
  attends_steps h htask (World.poll_attends hfound)

/-- Driving an execution to its end. -/
theorem drive_steps {e : Execution} {result : Outcome (List Value)} {w : World} (h : s.Reachable)
    (htask : s.tasks = l ++ .holding place scope c (some e) :: r) (hinTime : s.world.EndsInTime e)
    (hfound : s.world.drive e = (result, w)) :
    ∃ t, Steps s t ∧ t.world = w ∧ t.tasks = l ++ .holding place scope c none :: r :=
  attends_steps h htask (World.drive_attends hinTime hfound)

/-! ## Giving back -/

/-- Putting a context back that nobody uses any more. -/
theorem requeue_steps {result : Outcome Unit} {w : World}
    (htask : s.tasks = l ++ .returning place c :: r)
    (hfound : s.world.requeue place c = (result, w)) :
    ∃ t, Steps s t ∧ t.world = w ∧ t.tasks = l ++ r := by
  obtain ⟨returned, w₁, hback, hends⟩ := World.requeue_cases hfound
  have hqueued : Steps s _ := .single (.enqueue htask hback)
  rcases hends with ⟨rfl, rfl⟩ | ⟨hother, rfl⟩
  · exact ⟨_, hqueued.tail (.announce (List.append_cons ..).symm), rfl, rfl⟩
  · refine ⟨_, hqueued, rfl, ?_⟩
    rw [Task.ofReturned_eq_none hother, Option.toList_none, List.append_nil]

/-- Giving a context back to its own pool. While a call goes on there, the context waits for it. -/
theorem release_steps {p : Pool} {x : Context} {result : Outcome Unit} {w : World}
    (htask : s.tasks = l ++ .holding place scope c none :: r)
    (hhere : s.world.pools[place]? = some p) (hthere : s.world.contexts[c]? = some x)
    (hmine : x.pool = p.id) (hfound : s.world.release place c = (result, w)) :
    ∃ t, Steps s t ∧ ((t.world = w ∧ t.tasks = l ++ r) ∨
      ∃ call event, t.tasks = l ++ .settling place scope c call :: r ∧
        w = { t.world with deferred := t.world.deferred ++ [(c, call)] }.log event) := by
  rcases hletGo : s.world.letGo c with ⟨record, w₁⟩
  have hgone : Steps s _ := .single (.release htask hletGo)
  obtain ⟨event, hreleased⟩ := World.release_own hhere hthere hmine hletGo
  rw [hreleased] at hfound
  -- Without a record it returns at once; otherwise its return is put off until the call has ended.
  cases record with
  | none =>
    obtain ⟨t, hrun, hworld, htasks⟩ :=
      requeue_steps (s := ⟨w₁, _, s.scopes, s.joined⟩) rfl hfound
    exact ⟨t, hgone.trans hrun, .inl ⟨hworld, htasks⟩⟩
  | some call =>
    obtain ⟨-, rfl⟩ := Prod.mk.inj hfound
    exact ⟨_, hgone, .inr ⟨call, _, rfl, rfl⟩⟩

/-- Putting a context back whose call is over. Should its pool refuse it, the log says so. -/
theorem putBack_steps {call : CallId} (h : s.Reachable)
    (htask : s.tasks = l ++ .settling place scope c call :: r)
    (hpast : (s.world.ended? call).isSome) :
    ∃ t, Steps s t ∧ t.tasks = l ++ r ∧
      (s.world.putBack c = t.world ∨ ∃ event, s.world.putBack c = t.world.log event) := by
  have hsettled : Step s _ := .settle htask hpast
  -- The context belongs to the place where it was lent, so this is where it returns to.
  obtain ⟨x, p, hthere, -, hmine⟩ := (h.step hsettled).there (t := .returning place c)
    (c := c) (by simp) rfl
  have hhome : ((s.world.count c Counters.settle).contexts[c]?).bind
      (fun x => (s.world.count c Counters.settle).poolIndex? x.pool) = some place := by
    have hhoused : (s.world.count c Counters.settle).home? c = some place :=
      (h.step hsettled).housed (.of_task (t := .returning place c) (by simp) rfl)
    rwa [World.home?_eq_bind] at hhoused
  rcases s.world.putBack_cases c with ⟨hnone, -⟩ | ⟨place', result, w, hplace, hback, hsame⟩
  · cases hnone.symm.trans hhome
  · obtain rfl : place' = place := Option.some.inj (hplace.symm.trans hhome)
    obtain ⟨t, hrun, htold, htasks⟩ :=
      requeue_steps (s := ⟨_, _, s.scopes, call :: s.joined⟩) rfl hback
    refine ⟨t, (Relation.ReflTransGen.single hsettled).trans hrun, htasks, ?_⟩
    rwa [htold]

end Scene
end SandboxPool
