import SandboxPool.Proofs.Pool.Looking

/-!
# Every context has a home

A context belongs to one pool from beginning to end. Only there is it queued, and only the tasks
of that place have to do with it: `World.Housed` holds of every reachable scene.
-/

namespace SandboxPool

/-- The context that a task has to do with. -/
def Task.subject? : Task → Option ContextId
  | .holding _ _ c _ | .settling _ _ c _ | .returning _ c | .queued _ c => some c
  | _ => none

theorem Task.subject?_of_context? {t : Task} {c : ContextId} (h : t.context? = some c) :
    t.subject? = some c := by
  cases t <;> first | exact h | cases h

namespace World

/-- The place of the pool that a context belongs to. -/
def home? (w : World) (c : ContextId) : Option Nat :=
  (w.outline? c).bind fun o => w.poolIndex? o.pool

/-- The context is in the queue at a place, or a task there has to do with it. -/
def Has (w : World) (tasks : List Task) (q : Nat) (c : ContextId) : Prop :=
  (∃ p, w.pools[q]? = some p ∧ c ∈ p.idle) ∨ ∃ t ∈ tasks, t.place = q ∧ t.subject? = some c

/-- Contexts are at home wherever they are. -/
def Housed (w : World) (tasks : List Task) : Prop :=
  ∀ {q : Nat} {c : ContextId}, w.Has tasks q c → w.home? c = some q

end World

/-! ## Pools that get no new contexts -/

/-- A pool keeps its number and gets no new contexts. -/
structure Pool.Kept (p p' : Pool) : Prop where
  id : p'.id = p.id
  idle : p'.idle ⊆ p.idle

namespace Pool.Kept

variable {p p' : Pool} {v : Waiter}

theorem refl (p : Pool) : p.Kept p := ⟨rfl, fun _ h => h⟩

/-- One who asks for a permit keeps the pool. -/
theorem request {got : PermitAnswer} (hfound : p.request v = (got, p')) : p.Kept p' := by
  unfold Pool.request at hfound
  split at hfound <;> obtain ⟨rfl, rfl⟩ := Prod.mk.inj hfound <;> exact ⟨rfl, fun _ h => h⟩

/-- One who looks again keeps it. -/
theorem look {got : PermitAnswer} (hfound : p.look v = (got, p')) : p.Kept p' := by
  obtain ⟨rfl, rfl⟩ := Prod.mk.inj hfound
  exact ⟨rfl, fun _ h => h⟩

/-- One who takes a context keeps it: what leaves the queue does not come into it. -/
theorem takeIdle {taken : Outcome ContextId} (hfound : p.takeIdle = (taken, p')) : p.Kept p' := by
  unfold Pool.takeIdle at hfound
  split at hfound <;> obtain ⟨rfl, rfl⟩ := Prod.mk.inj hfound
  · next c idle hhere => exact ⟨rfl, by rw [hhere]; exact List.subset_cons_self c idle⟩
  · exact .refl p

/-- Closing keeps a pool, for its queue only gets shorter. -/
theorem close {disposed : List ContextId} (hfound : p.close? = some (disposed, p')) :
    p.Kept p' := by
  unfold Pool.close? at hfound
  split at hfound
  · cases hfound
  · obtain ⟨rfl, rfl⟩ := Prod.mk.inj (Option.some.inj hfound)
    exact ⟨rfl, List.nil_subset _⟩

end Pool.Kept

/-- One who has a permit gets the first context of the queue. -/
theorem Pool.takeIdle_idle {p p' : Pool} {c : ContextId} (hfound : p.takeIdle = (.ok c, p')) :
    p.idle = c :: p'.idle := by
  unfold Pool.takeIdle at hfound
  split at hfound
  · next d idle hhere =>
    obtain ⟨h, rfl⟩ := Prod.mk.inj hfound
    rw [hhere, Except.ok.inj h]
  · cases (Prod.mk.inj hfound).1

/-- Looking into the queue changes the queue only. -/
theorem Pool.takeIdle_queue {p p' : Pool} {taken : Outcome ContextId}
    (hfound : p.takeIdle = (taken, p')) : ∃ idle, p' = { p with idle } := by
  unfold Pool.takeIdle at hfound
  split at hfound
  · exact ⟨_, (Prod.mk.inj hfound).2.symm⟩
  · exact ⟨p.idle, (Prod.mk.inj hfound).2.symm⟩

/-- So does queueing what comes back. -/
theorem Pool.pushIdle_queue {p p' : Pool} {c : ContextId} {got : Pool.Returned}
    (hfound : p.pushIdle c = (got, p')) : ∃ idle, p' = { p with idle } := by
  unfold Pool.pushIdle at hfound
  split at hfound
  · exact ⟨p.idle, (Prod.mk.inj hfound).2.symm⟩
  · split at hfound
    · exact ⟨p.idle, (Prod.mk.inj hfound).2.symm⟩
    · exact ⟨_, (Prod.mk.inj hfound).2.symm⟩

/-- A pool keeps its number, and gets the context that comes back at most. -/
theorem Pool.pushIdle_kept {p p' : Pool} {c : ContextId} {got : Pool.Returned}
    (hfound : p.pushIdle c = (got, p')) :
    p'.id = p.id ∧ p'.idle ⊆ p.idle ++ [c] := by
  unfold Pool.pushIdle at hfound
  split at hfound
  · obtain ⟨rfl, rfl⟩ := Prod.mk.inj hfound
    exact ⟨rfl, List.subset_append_left _ _⟩
  · split at hfound <;> obtain ⟨rfl, rfl⟩ := Prod.mk.inj hfound
    · exact ⟨rfl, List.subset_append_left _ _⟩
    · exact ⟨rfl, fun _ h => h⟩

namespace World

variable {w w' : World} {place q : Nat} {c : ContextId} {t : Task} {tasks tasks' : List Task}

/-- All pools keep their numbers and get no new contexts. -/
def Keeps (w w' : World) : Prop :=
  ∀ q : Nat, (w.pools[q]? = none ∧ w'.pools[q]? = none) ∨
    ∃ p p' : Pool, w.pools[q]? = some p ∧ w'.pools[q]? = some p' ∧ p.Kept p'

theorem Keeps.of_eq (h : w'.pools = w.pools) : w.Keeps w' := by
  intro q
  rw [h]
  cases hhere : w.pools[q]? with
  | none => exact .inl ⟨rfl, rfl⟩
  | some p => exact .inr ⟨p, p, rfl, rfl, .refl p⟩

theorem Recounts.keeps (h : w.Recounts w') : w.Keeps w' := by
  obtain ⟨f, h⟩ := h
  intro q
  rw [h]
  cases hhere : w.pools[q]? with
  | none => exact .inl ⟨rfl, rfl⟩
  | some p => exact .inr ⟨p, _, rfl, rfl, rfl, fun _ h => h⟩

/-- A change that keeps each pool keeps all. -/
theorem modifyPool_keeps {f : Pool → Pool} (hkept : ∀ p : Pool, p.Kept (f p)) :
    w.Keeps (w.modifyPool place f) := by
  intro q
  rw [modifyPool_pools]
  cases hhere : w.pools[q]? with
  | none => exact .inl ⟨rfl, by simp⟩
  | some p =>
    by_cases hq : q = place
    · exact .inr ⟨p, f p, rfl, by simp [hq], hkept p⟩
    · exact .inr ⟨p, p, rfl, by simp [hq], .refl p⟩

/-- A pool is found where it was put. -/
theorem setPool_get {p p' : Pool} (hhere : w.pools[place]? = some p) :
    (w.setPool place p').pools[place]? = some p' := by
  have hinside := (Array.getElem?_eq_some_iff.mp hhere).1
  unfold setPool
  rw [Array.getElem?_setIfInBounds_self, if_pos hinside]

/-- What is the same of a pool that takes a place stays the same everywhere. -/
theorem setPool_map {α : Type} {f : Pool → α} {p p' : Pool} (hhere : w.pools[place]? = some p)
    (hkept : f p' = f p) (q : Nat) :
    ((w.setPool place p').pools[q]?).map f = (w.pools[q]?).map f := by
  by_cases hq : q = place
  · subst hq
    rw [setPool_get hhere, hhere, Option.map_some, Option.map_some, hkept]
  · rw [setPool_other hq]

/-- What a change of a pool does not touch is the same for all pools. -/
theorem modifyPool_map {α : Type} {f : Pool → α} {g : Pool → Pool} (hkept : ∀ p, f (g p) = f p)
    (q : Nat) : ((w.modifyPool place g).pools[q]?).map f = (w.pools[q]?).map f := by
  rw [modifyPool_pools]
  split
  · rw [Option.map_map]
    exact congrArg (Option.map · w.pools[q]?) (funext hkept)
  · rfl

/-- So is what counting does not touch. -/
theorem count_map {α : Type} {f : Pool → α} {g : Counters → Counters}
    (hkept : ∀ p : Pool, f (p.count g) = f p) (c : ContextId) (q : Nat) :
    ((w.count c g).pools[q]?).map f = (w.pools[q]?).map f := by
  unfold count
  split
  · exact modifyPool_map hkept q
  · rfl

theorem setPool_keeps {p : Pool} (p' : Pool) (hhere : w.pools[place]? = some p)
    (hkept : p.Kept p') :
    w.Keeps (w.setPool place p') := by
  intro q
  by_cases hq : q = place
  · subst hq
    exact .inr ⟨p, p', hhere, setPool_get hhere, hkept⟩
  · rw [setPool_other hq]
    cases w.pools[q]? with
    | none => exact .inl ⟨rfl, rfl⟩
    | some p => exact .inr ⟨p, p, rfl, rfl, .refl p⟩

/-- Nobody loses a context to one who asks for a permit. -/
theorem ask_keeps {scope : ScopeId} {asked : Asked} (hfound : w.ask place scope = (asked, w')) :
    w.Keeps w' := by
  rcases ask_cases hfound with ⟨-, rfl⟩ | ⟨p, p', got, hhere, hanswer, -, rfl⟩
  · exact .of_eq rfl
  · exact setPool_keeps (w := { w with nextWaiter := w.nextWaiter + 1 }) p' hhere (.request hanswer)

/-- Nor to one who gives up waiting. -/
theorem giveUp_keeps (place : Nat) (v : Waiter) : w.Keeps (w.giveUp place v) :=
  modifyPool_keeps fun _ => ⟨rfl, fun _ h => h⟩

theorem askAgain_keeps {scope : ScopeId} {v : Waiter} {asked : Asked}
    (hfound : w.askAgain place scope v = (asked, w')) : w.Keeps w' := by
  rcases askAgain_cases hfound with
    ⟨-, ⟨-, rfl⟩ | rfl⟩ | ⟨p, p', got, hhere, hanswer, -, rfl⟩
  · exact .of_eq rfl
  · exact giveUp_keeps place v
  · exact setPool_keeps p' hhere (.look hanswer)

/-- A context that is handed out was in the queue. -/
theorem handOut_idle {scope : ScopeId} (hfound : w.handOut place scope = (.ok c, w')) :
    ∃ p, w.pools[place]? = some p ∧ c ∈ p.idle := by
  rcases handOut_cases hfound with ⟨-, hrefused, -⟩ | ⟨p, p', hhere, hanswer, -⟩
  · cases hrefused
  · refine ⟨p, hhere, ?_⟩
    rw [Pool.takeIdle_idle hanswer]
    exact List.mem_cons_self

/-- Nor to one who is lent another. -/
theorem handOut_keeps {scope : ScopeId} {taken : Outcome ContextId}
    (hfound : w.handOut place scope = (taken, w')) : w.Keeps w' := by
  rcases handOut_cases hfound with
    ⟨-, -, rfl⟩ | ⟨p, p', hhere, hanswer, ⟨e, rfl, rfl⟩ | ⟨c, event, rfl, rfl⟩⟩
  · exact .of_eq rfl
  · exact setPool_keeps p' hhere (.takeIdle hanswer)
  · have hkept := Pool.Kept.takeIdle hanswer
    exact setPool_keeps (p'.count Counters.lend) hhere ⟨hkept.id, hkept.idle⟩

theorem announce_keeps (place : Nat) (c : ContextId) : w.Keeps (w.announce place c) := by
  unfold announce
  split
  · next p x hhere hthere =>
    exact setPool_keeps (p.count Counters.takeBack).addPermit hhere ⟨rfl, fun _ h => h⟩
  · exact .of_eq rfl

/-- Contexts that are out are out when the pool is closed. -/
theorem close_keeps (place : Nat) : w.Keeps (w.close place) := by
  rcases close_cases (w := w) place with hsame | ⟨p, p', disposed, event, hhere, hcloses, hsame⟩
  · exact .of_eq (congrArg pools hsame)
  · rw [hsame]
    exact setPool_keeps p' hhere (.close hcloses)

/-- Where the pools' numbers and the contexts' pools are the same, homes are. -/
theorem home?_congr (hnumbers : ∀ q : Nat, (w'.pools[q]?).map Pool.id = (w.pools[q]?).map Pool.id)
    (hpools : ∀ c, (w'.outline? c).map (·.pool) = (w.outline? c).map (·.pool)) :
    w'.home? = w.home? := by
  have hids : w'.pools.map Pool.id = w.pools.map Pool.id := by
    refine Array.ext_getElem? fun q => ?_
    rw [Array.getElem?_map, Array.getElem?_map, hnumbers q]
  -- a pool is found by its number alone
  have hindex : w'.poolIndex? = w.poolIndex? := by
    funext id
    have hmapped (v : World) :
        v.poolIndex? id = (v.pools.map Pool.id).findIdx? fun i => i = id := by
      rw [Array.findIdx?_map]
      rfl
    rw [hmapped, hmapped, hids]
  funext c
  have hthrough (v : World) : v.home? c = ((v.outline? c).map (·.pool)).bind v.poolIndex? := by
    unfold home?
    rw [Option.bind_map]
    rfl
  rw [hthrough, hthrough, hpools c, hindex]

/-- What has a home is there, and so is its pool. -/
theorem home?_eq_some (h : w.home? c = some q) :
    ∃ x p, w.contexts[c]? = some x ∧ w.pools[q]? = some p ∧ x.pool = p.id := by
  unfold home? outline? at h
  obtain ⟨o, ho, hindex⟩ := Option.bind_eq_some_iff.mp h
  obtain ⟨x, hthere, rfl⟩ := Option.map_eq_some_iff.mp ho
  obtain ⟨hinside, hfound, -⟩ := Array.findIdx?_eq_some_iff_getElem.mp hindex
  exact ⟨x, w.pools[q], hthere, Array.getElem?_eq_getElem hinside, (of_decide_eq_true hfound).symm⟩

/-- A context whose pool is still there has the home that it had. -/
theorem Keeps.home (h : w.Keeps w')
    (hpools : ∀ c, (w'.outline? c).map (·.pool) = (w.outline? c).map (·.pool)) :
    w'.home? = w.home? := by
  refine home?_congr (fun q => ?_) hpools
  rcases h q with ⟨hnone, hnone'⟩ | ⟨p, p', hhere, hhere', hkept⟩
  · rw [hnone, hnone']
  · rw [hhere, hhere', Option.map_some, Option.map_some, hkept.id]

/-- The pool of a context is where what is counted for the context is counted. -/
theorem home?_eq_bind : w.home? c = (w.contexts[c]?).bind fun x => w.poolIndex? x.pool := by
  unfold home? outline?
  rw [Option.bind_map]
  rfl

/-- What is counted for a context is counted at the pool at home. -/
theorem count_of_home {f : Counters → Counters} (hhome : w.home? c = some q) :
    w.count c f = w.modifyPool q (·.count f) := by
  rw [home?_eq_bind] at hhome
  unfold count
  rw [hhome]

/-! ## Contexts stay in their pools -/

/-- A mark that does not name another pool changes no context's pool. -/
theorem marked_pool {f : Context.Outline → Context.Outline} (hsame : ∀ o, (f o).pool = o.pool)
    (d : ContextId) : (w.marked c f d).map (·.pool) = (w.outline? d).map (·.pool) :=
  marked_kept (Option.map (·.pool)) (fun o => congrArg some (hsame o)) d

theorem clear_pool (d : ContextId) :
    ((w.clear c).outline? d).map (·.pool) = (w.outline? d).map (·.pool) := by
  rw [clear_outline]
  exact marked_pool (by intro o; rfl) d

/-- A context that comes back to a pool stays in its own. -/
theorem enqueue_home {returned : Option Pool.Returned}
    (hfound : w.enqueue place c = (returned, w')) : w'.home? = w.home? := by
  -- Clearing the context and setting the pool leave identities alone, one after the other.
  have hcleared : (w.clear c).home? = w.home? := Keeps.home (.of_eq rfl) clear_pool
  have hset {p : Pool} (p' : Pool) (hhere : w.pools[place]? = some p) (hsame : p'.id = p.id) :
      ((w.clear c).setPool place p').home? = w.home? := by
    refine (home?_congr (fun q => ?_) fun d => ?_).trans hcleared
    · by_cases hq : q = place
      · rw [hq, setPool_get (w := w.clear c) hhere]
        exact (congrArg some hsame).trans (congrArg (Option.map Pool.id) hhere).symm
      · rw [setPool_other hq]
    · rw [setPool_outline]
  rcases enqueue_cases hfound with ⟨-, -, rfl⟩ |
    ⟨p, got, p', hhere, hanswer, -, ⟨-, event, rfl⟩ | ⟨-, rfl⟩⟩
  · exact hcleared
  · exact hset (p'.count Counters.takeBack) hhere (Pool.pushIdle_kept hanswer).1
  · exact hset p' hhere (Pool.pushIdle_kept hanswer).1

/-- Nothing but the context that comes back is new in a queue. -/
theorem enqueue_idle {returned : Option Pool.Returned} {p' : Pool} {d : ContextId}
    (hfound : w.enqueue place c = (returned, w')) (hhere' : w'.pools[q]? = some p')
    (hmember : d ∈ p'.idle) :
    (∃ p, w.pools[q]? = some p ∧ d ∈ p.idle) ∨ (d = c ∧ q = place) := by
  rcases enqueue_cases hfound with ⟨-, -, rfl⟩ | ⟨p, got, p'', hhere, hanswer, -, hcases⟩
  · exact .inl ⟨p', hhere', hmember⟩
  · -- only the queue at the place may have a new context
    by_cases hq : q = place
    · subst hq
      have hidle : p'.idle = p''.idle := by
        rcases hcases with ⟨-, event, rfl⟩ | ⟨-, rfl⟩
        · rw [setPool_same hhere']
          rfl
        · rw [setPool_same hhere']
      rw [hidle] at hmember
      rcases List.mem_append.mp ((Pool.pushIdle_kept hanswer).2 hmember) with hmember | hmember
      · exact .inl ⟨p, hhere, hmember⟩
      · exact .inr ⟨List.mem_singleton.mp hmember, rfl⟩
    · refine .inl ⟨p', ?_, hmember⟩
      rcases hcases with ⟨-, event, rfl⟩ | ⟨-, rfl⟩ <;> exact (setPool_other hq).symm.trans hhere'

/-- A look at an execution leaves every context with its pool. -/
theorem Looked.pool {e : Execution} {x : Context} {polled : Polled}
    (h : w.Looked e x polled w') (d : ContextId) :
    (w'.outline? d).map (·.pool) = (w.outline? d).map (·.pool) := by
  rcases h.outline_cases with hsame | ⟨call, hsame⟩
  · rw [hsame]
  · rw [hsame]
    exact marked_pool (by intro o; rfl) d

/-! ## Contexts stay where they belong -/

variable {l r us : List Task}

theorem Keeps.has (hkept : w.Keeps w')
    (hless : ∀ u ∈ tasks', ∀ c, u.subject? = some c → w.Has tasks u.place c)
    (hhas : w'.Has tasks' q c) : w.Has tasks q c := by
  rcases hhas with ⟨p', hhere', hmember⟩ | ⟨u, hmember, rfl, hsubject⟩
  · rcases hkept q with ⟨-, hnone⟩ | ⟨p, p'', hhere, hhere'', hkept⟩
    · rw [hnone] at hhere'
      cases hhere'
    · rw [hhere', Option.some.injEq] at hhere''
      exact .inl ⟨p, hhere, hkept.idle (hhere'' ▸ hmember)⟩
  · exact hless u hmember c hsubject

/-- A task that is there has to do with its context. -/
theorem Has.of_task (hmember : t ∈ tasks) (hsubject : t.subject? = some c) :
    w.Has tasks t.place c :=
  .inr ⟨t, hmember, rfl, hsubject⟩

/-- The context of a task is there, and so is its pool. -/
theorem Housed.there (hhoused : w.Housed tasks) (hmember : t ∈ tasks)
    (hsubject : t.subject? = some c) :
    ∃ x p, w.contexts[c]? = some x ∧ w.pools[t.place]? = some p ∧ x.pool = p.id :=
  home?_eq_some (hhoused (.of_task hmember hsubject))

/-- Where one task goes on, the others have to do with the same contexts as before. -/
theorem Has.of_rest (htask : tasks = l ++ t :: r)
    (hless : ∀ u ∈ us, ∀ c, u.subject? = some c → w.Has tasks u.place c) :
    ∀ u ∈ l ++ us ++ r, ∀ c, u.subject? = some c → w.Has tasks u.place c := by
  intro u hmember c hsubject
  rcases Task.mem_among.mp hmember with hnew | hrest
  · exact hless u hnew c hsubject
  · exact .of_task (htask ▸ Task.mem_beside hrest) hsubject

/-- Where one task gives way to another that has to do with the same context at the same place. -/
theorem Has.of_next {u : Task} (htask : tasks = l ++ t :: r) (hplace : u.place = t.place)
    (hsubject : u.subject? = t.subject?) :
    ∀ u' ∈ l ++ u :: r, ∀ c, u'.subject? = some c → w.Has tasks u'.place c := by
  rw [List.append_cons]
  refine .of_rest htask fun u' hmember c hhas => ?_
  rw [List.mem_singleton.mp hmember] at hhas ⊢
  rw [hplace]
  exact .of_task (by simp [htask]) (hsubject ▸ hhas)

/-- Where one task is over. -/
theorem Has.of_drop (htask : tasks = l ++ t :: r) :
    ∀ u ∈ l ++ r, ∀ c, u.subject? = some c → w.Has tasks u.place c := by
  rw [← List.append_nil l]
  exact .of_rest htask (by simp)

theorem Has.of_same :
    ∀ u ∈ tasks, ∀ c, u.subject? = some c → w.Has tasks u.place c :=
  fun _ hmember _ hsubject => .of_task hmember hsubject

end World

namespace Scene

variable {s t : Scene}

/-- Whatever happens, contexts stay in their pools. -/
theorem Step.home (hstep : Step s t) : t.world.home? = s.world.home? := by
  cases hstep with
  -- Homes read the pools, which keep their identities, and the outlines, which keep their pools.
  | scope | fire _ | gate _ | elsewhere _ | enter _ _ | prepare _ _ => rfl
  | carry id fuel shut =>
    have hcarried := s.world.carryFor_carried (fun _ => fuel) shut id
    exact (World.Keeps.of_eq hcarried.pools).home fun c => by rw [hcarried.outline]
  | ask _ hfound =>
    exact (World.ask_keeps hfound).home fun c => by rw [(World.ask_steady hfound).outline]
  | look _ hfound =>
    exact (World.askAgain_keeps hfound).home fun c => by rw [(World.askAgain_steady hfound).outline]
  | giveUp _ => exact (World.giveUp_keeps _ _).home fun c => rfl
  | take _ hfound =>
    refine (World.handOut_keeps hfound).home fun c => ?_
    rw [World.handOut_outline hfound]
    split
    · exact World.marked_pool (by intro o; rfl) c
    · rfl
  | touch _ hfound htouched =>
    have hhidden := World.touch_outline hfound htouched
    exact World.Keeps.home (.of_eq rfl) fun c => by rw [hhidden]
  | poll _ hfound =>
    rcases World.pollWith_looked hfound with ⟨-, -, rfl⟩ | ⟨x, -, hlooked⟩
    · rfl
    · exact hlooked.calm.pools.keeps.home hlooked.pool
  | release _ hfound =>
    refine World.Keeps.home (.of_eq (World.letGo_pools hfound)) fun c => ?_
    rw [World.letGo_outline hfound]
    exact World.marked_pool (by intro o; rfl) c
  | settle _ _ =>
    have hsteady := World.count_steady (w := s.world)
    exact (World.count_recounts _ _).keeps.home fun c => by rw [(hsteady _ _).outline]
  | enqueue _ hfound => exact World.enqueue_home hfound
  | announce _ =>
    have hsteady := World.announce_steady (w := s.world)
    exact (World.announce_keeps _ _).home fun c => by rw [(hsteady _ _).outline]
  | close place =>
    have hsteady := World.close_steady (w := s.world) place
    exact (World.close_keeps place).home fun c => by rw [hsteady.outline]
  | fault place => exact (World.modifyPool_recounts _).keeps.home fun c => rfl

/-- Nobody gets a context that was not at the same place before. -/
theorem Step.has (hstep : Step s t) {q : Nat} {c : ContextId} (hhas : t.world.Has t.tasks q c) :
    s.world.Has s.tasks q c := by
  -- No step makes a context out of nothing: whoever has one after it had one before.
  cases hstep with
  | scope | fire _ | gate _ | elsewhere _ => exact hhas
  | carry id fuel shut =>
    have hcarried := s.world.carryFor_carried (fun _ => fuel) shut id
    exact (World.Keeps.of_eq hcarried.pools).has World.Has.of_same hhas
  | enter _ _ =>
    refine World.Keeps.has (.of_eq rfl) ?_ hhas
    intro u hmember c hsubject
    rcases List.mem_cons.mp hmember with rfl | hmember
    · cases hsubject
    · exact .of_task hmember hsubject
  | @ask l r place scope asked w htask hfound =>
    refine (World.ask_keeps hfound).has (.of_rest htask ?_) hhas
    intro u hmember c hsubject
    cases asked <;> simp [Task.ofAsked] at hmember <;> subst hmember <;> cases hsubject
  | @look l r place scope v asked w htask hfound =>
    refine (World.askAgain_keeps hfound).has (.of_rest htask ?_) hhas
    intro u hmember c hsubject
    cases asked <;> simp [Task.ofAsked] at hmember <;> subst hmember <;> cases hsubject
  | giveUp htask =>
    exact (World.giveUp_keeps _ _).has (.of_drop htask) hhas
  | @take l r place scope taken w htask hfound =>
    refine (World.handOut_keeps hfound).has (.of_rest htask ?_) hhas
    intro u hmember d hsubject
    cases taken with
    | error e => simp [Task.ofTaken] at hmember
    | ok c =>
      obtain rfl : u = .holding place scope c none := by simpa [Task.ofTaken] using hmember
      obtain rfl : c = d := Option.some.inj hsubject
      -- Taking moves it from the idle queue to the task that asked.
      exact .inl (World.handOut_idle hfound)
  | touch _ _ _ => exact World.Keeps.has (.of_eq rfl) World.Has.of_same hhas
  | prepare htask _ => exact World.Keeps.has (.of_eq rfl) (.of_next htask (by rfl) (by rfl)) hhas
  | poll htask hfound =>
    refine World.Keeps.has ?_ (.of_next htask (by rfl) (by rfl)) hhas
    rcases World.pollWith_looked hfound with ⟨-, -, rfl⟩ | ⟨x, -, hlooked⟩
    · exact .of_eq rfl
    · exact hlooked.calm.pools.keeps
  | @release l r place scope c record w htask hfound =>
    refine World.Keeps.has (.of_eq (World.letGo_pools hfound)) (.of_next htask ?_ ?_) hhas
    · cases record <;> rfl
    · cases record <;> rfl
  | settle htask _ =>
    exact (World.count_recounts _ _).keeps.has (.of_next htask (by rfl) (by rfl)) hhas
  | @enqueue l r place c returned w htask hfound =>
    have hmine : s.world.Has s.tasks place c :=
      .of_task (t := .returning place c) (by simp [htask]) rfl
    have hless : ∀ u ∈ l ++ (Task.ofReturned place c returned).toList ++ r, ∀ d,
        u.subject? = some d → s.world.Has s.tasks u.place d := by
      refine .of_rest htask fun u hmember d hsubject => ?_
      obtain rfl := Task.mem_ofReturned hmember
      -- Returning moves it from the task to the queue.
      obtain rfl : c = d := Option.some.inj hsubject
      exact hmine
    rcases hhas with ⟨p', hhere', hmember⟩ | ⟨u, hmember, rfl, hsubject⟩
    · rcases World.enqueue_idle hfound hhere' hmember with hidle | ⟨rfl, rfl⟩
      · exact .inl hidle
      · exact hmine
    · exact hless u hmember _ hsubject
  | announce htask =>
    exact (World.announce_keeps _ _).has (.of_drop htask) hhas
  | close place => exact (World.close_keeps place).has World.Has.of_same hhas
  | fault place => exact (World.modifyPool_recounts _).keeps.has World.Has.of_same hhas

/-- In every reachable scene contexts are at home. -/
theorem Reachable.housed (h : Reachable s) : s.world.Housed s.tasks := by
  -- along the run homes stay, and nobody gets a context that was not at the same place
  induction h with
  | @start w hfresh =>
    intro q c hhas
    rcases hhas with ⟨p, hhere, hmember⟩ | ⟨t, hmember, -⟩
    · obtain ⟨x, hthere, hmine⟩ := hfresh.context hhere hmember
      have houtline : w.outline? c = some x.outline := congrArg (Option.map Context.outline) hthere
      show (w.outline? c).bind _ = some q
      rw [houtline, Option.bind_some]
      exact (congrArg w.poolIndex? hmine).trans (hfresh.pool hhere).2.2
    · cases hmember
  | step hbefore hnext ih =>
    intro q c hhas
    rw [hnext.home]
    exact ih (hnext.has hhas)

/-- In every reachable scene the context of a task is there, and so is its pool. -/
theorem Reachable.there (h : Reachable s) {t : Task} {c : ContextId} (hmember : t ∈ s.tasks)
    (hsubject : t.subject? = some c) :
    ∃ x p, s.world.contexts[c]? = some x ∧ s.world.pools[t.place]? = some p ∧ x.pool = p.id :=
  World.Housed.there h.housed hmember hsubject

end Scene

end SandboxPool
