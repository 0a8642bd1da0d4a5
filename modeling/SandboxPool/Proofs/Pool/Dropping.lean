import SandboxPool.Proofs.Pool.Exclusion

/-!
# Callers who walk away

A caller may drop what it waits for: its place in the line, an execution that goes on, or a whole
borrow together with its callback. The pool learns only of the first. An execution that is dropped
leaves no record of the call that it has begun, and a borrow that is dropped never gives its
context back. `Aftermath` is a scene with what was dropped in the course of it, and
`Aftermath.Reachable.drops_lose_slots` says what the drops cost: which contexts are gone for good,
and which calls the pool knows nothing of.
-/

namespace SandboxPool

namespace Scene

variable {s t : Scene}

/-- A scene with more tasks in it, and with more calls that nobody waits for. -/
def beside (s : Scene) (tasks : List Task) (joined : List CallId) : Scene :=
  { s with tasks := s.tasks ++ tasks, joined := s.joined ++ joined }

/-- What others do not do is no hindrance to a step. -/
theorem Step.beside (hstep : Step s t) (tasks : List Task) (joined : List CallId) :
    Step (s.beside tasks joined) (t.beside tasks joined) := by
  have hamong {l r : List Task} {task : Task} (hbefore : s.tasks = l ++ task :: r) :
      (s.beside tasks joined).tasks = l ++ task :: (r ++ tasks) := by
    show s.tasks ++ tasks = _
    rw [hbefore, List.append_assoc, List.cons_append]
  -- Tasks that stand behind all others are part of what comes after the one that moves.
  cases hstep with
  | scope => exact .scope
  | fire hmade => exact .fire hmade
  | gate gate => exact .gate gate
  | elsewhere services => exact .elsewhere services
  | carry id fuel shut => exact .carry id fuel shut
  | enter place hmade hfound => exact .enter place hmade hfound
  | @ask l r place scope asked w hbefore hfound =>
    show Step _ ⟨w, _ ++ r ++ tasks, s.scopes, s.joined ++ joined⟩
    rw [List.append_assoc]
    exact .ask (hamong hbefore) hfound
  | @look l r place scope v asked w hbefore hfound =>
    show Step _ ⟨w, _ ++ r ++ tasks, s.scopes, s.joined ++ joined⟩
    rw [List.append_assoc]
    exact .look (hamong hbefore) hfound
  | @giveUp l r place scope v hbefore =>
    show Step _ ⟨_, l ++ r ++ tasks, s.scopes, s.joined ++ joined⟩
    rw [List.append_assoc]
    exact .giveUp (hamong hbefore)
  | @take l r place scope taken w hbefore hfound =>
    show Step _ ⟨w, _ ++ r ++ tasks, s.scopes, s.joined ++ joined⟩
    rw [List.append_assoc]
    exact .take (hamong hbefore) hfound
  | touch hmember hfound htouched =>
    exact .touch (List.mem_append_left _ hmember) hfound htouched
  | @prepare l r place scope c function args e hbefore hfound =>
    show Step _ ⟨_, l ++ _ :: r ++ tasks, s.scopes, s.joined ++ joined⟩
    rw [List.append_assoc, List.cons_append]
    exact .prepare (hamong hbefore) hfound
  | @poll l r place scope c e late polled w hbefore hfound =>
    show Step _ ⟨w, l ++ _ :: r ++ tasks, s.scopes, _ ++ s.joined ++ joined⟩
    rw [List.append_assoc, List.cons_append, List.append_assoc]
    exact .poll (hamong hbefore) hfound
  | @release l r place scope c record w hbefore hfound =>
    show Step _ ⟨w, l ++ _ :: r ++ tasks, s.scopes, s.joined ++ joined⟩
    rw [List.append_assoc, List.cons_append]
    exact .release (hamong hbefore) hfound
  | @settle l r place scope c call hbefore hpast =>
    show Step _ ⟨_, l ++ _ :: r ++ tasks, s.scopes, call :: s.joined ++ joined⟩
    rw [List.append_assoc, List.cons_append]
    exact .settle (hamong hbefore) hpast
  | @enqueue l r place c returned w hbefore hfound =>
    show Step _ ⟨w, _ ++ r ++ tasks, s.scopes, s.joined ++ joined⟩
    rw [List.append_assoc]
    exact .enqueue (hamong hbefore) hfound
  | @announce l r place c hbefore =>
    show Step _ ⟨_, l ++ r ++ tasks, s.scopes, s.joined ++ joined⟩
    rw [List.append_assoc]
    exact .announce (hamong hbefore)
  | close place => exact .close place
  | fault place => exact .fault place

end Scene

/-- A scene, with what was dropped in the course of it. -/
structure Aftermath where
  scene : Scene
  /-- The borrows that were dropped, as they stood. -/
  lost : List Task
  /-- The calls whose executions were dropped. -/
  loose : List CallId

namespace Aftermath

/-- What may happen next where callers may walk away. -/
inductive Step : Aftermath → Aftermath → Prop where
  /-- Everything goes on; one who waits for a permit may give up. -/
  | goes {s : Aftermath} {t : Scene} (hnext : s.scene.Step t) : Step s { s with scene := t }
  /-- A caller drops an execution, and still has the context. -/
  | dropExecution {s : Aftermath} {l r place scope c e}
      (htask : s.scene.tasks = l ++ .holding place scope c (some e) :: r) :
      Step s { s with
        scene := { s.scene with tasks := l ++ .holding place scope c none :: r }
        loose := e.own?.toList ++ s.loose }
  /-- A borrow is dropped with its callback, and the context with it. -/
  | dropBorrow {s : Aftermath} {l r place scope c execution}
      (htask : s.scene.tasks = l ++ .holding place scope c execution :: r) :
      Step s { s with
        scene := { s.scene with tasks := l ++ r }
        lost := .holding place scope c execution :: s.lost }

/-- Any number of steps. -/
abbrev Steps : Aftermath → Aftermath → Prop := Relation.ReflTransGen Step

/-- What can come of a world that nobody has used. -/
inductive Reachable : Aftermath → Prop where
  | start {w : World} (hfresh : w.Fresh) : Reachable ⟨.ofWorld w, [], []⟩
  | step {s t : Aftermath} (hbefore : Reachable s) (hnext : Step s t) : Reachable t

/-- The scene as if those who walked away still stood where they were. -/
def whole (s : Aftermath) : Scene := s.scene.beside s.lost s.loose

variable {s t : Aftermath} {q : Nat} {p : Pool}

theorem Reachable.steps (hbefore : Reachable s) (hrun : Steps s t) : Reachable t := by
  induction hrun with
  | refl => exact hbefore
  | tail _ hnext ih => exact .step ih hnext

/-- Without drops everything is as it was. -/
theorem Reachable.of_scene {s : Scene} (h : s.Reachable) : Reachable ⟨s, [], []⟩ := by
  induction h with
  | start hfresh => exact .start hfresh
  | step _ hnext ih => exact ih.step (.goes hnext)

/-- In the whole scene contexts are at home, the pools are in balance and no call is forgotten; and
what has been joined is over. -/
structure Kept (s : Aftermath) : Prop where
  sound : s.whole.Sound
  tracked : s.whole.world.Tracked s.whole.tasks s.whole.joined
  past : ∀ {id}, id ∈ s.scene.joined → (s.scene.world.ended? id).isSome

/-- A task that moves is one of the whole scene. -/
theorem whole_tasks {l r : List Task} {task : Task} (hbefore : s.scene.tasks = l ++ task :: r) :
    s.whole.tasks = l ++ task :: (r ++ s.lost) := by
  show s.scene.tasks ++ s.lost = _
  rw [hbefore, List.append_assoc, List.cons_append]

/-- Drops keep all of this: one who walks away stays where it was in the whole scene. -/
theorem Step.kept (hstep : Step s t) (h : s.Kept) : t.Kept := by
  cases hstep with
  | @goes t hnext =>
    have hstep := hnext.beside s.lost s.loose
    refine ⟨hstep.sound h.sound, hstep.tracked h.sound h.tracked, fun hmember => ?_⟩
    obtain ⟨r, hpast⟩ := Option.isSome_iff_exists.mp
      ((hnext.past hmember).elim h.past fun hpast => hpast)
    rw [hnext.grown.ended hpast]
    rfl
  | @dropExecution l r place scope c e htask =>
    have hbefore := whole_tasks htask
    have hafter : l ++ .holding place scope c none :: r ++ s.lost =
        l ++ .holding place scope c none :: (r ++ s.lost) := List.append_assoc ..
    have hothers := h.sound.others hbefore rfl
    refine ⟨⟨fun hhas => h.sound.housed (World.Keeps.has (.of_eq rfl) ?_ hhas), ?_⟩, ?_, h.past⟩
    · show ∀ u ∈ l ++ .holding place scope c none :: r ++ s.lost, _
      rw [hafter]
      exact .of_next hbefore rfl rfl
    · show s.scene.world.Balanced (l ++ .holding place scope c none :: r ++ s.lost)
      rw [hafter]
      have hfirst := h.sound.balanced.perm (hbefore ▸ List.perm_middle)
      have hnext : s.scene.world.Balanced (.holding place scope c none :: (l ++ (r ++ s.lost))) :=
        hfirst.keep rfl rfl rfl
      exact hnext.perm List.perm_middle.symm
    · show s.scene.world.Tracked (l ++ .holding place scope c none :: r ++ s.lost)
        (s.scene.joined ++ (e.own?.toList ++ s.loose))
      rw [hafter]
      -- what the execution had begun is loose; what was recorded is known as before
      refine h.tracked.goOn hbefore hothers rfl rfl ?_ (fun _ _ => rfl) .inl ?_ trivial
      · intro id hmember
        rcases List.mem_append.mp hmember with hjoined | hloose
        · exact List.mem_append_left _ hjoined
        · exact List.mem_append_right _ (List.mem_append_right _ hloose)
      · intro id hknows
        cases hown : e.own? with
        | none => exact .inr (by rw [← hknows]; simp [Task.call?, hown]; rfl)
        | some call =>
          have hsame : call = id := by simpa [Task.call?, hown] using hknows
          exact .inl (by simp [hsame])
  | @dropBorrow l r place scope c execution htask =>
    have horder : s.whole.tasks.Perm (l ++ r ++ .holding place scope c execution :: s.lost) := by
      rw [whole_tasks htask]
      refine List.perm_middle.trans ?_
      rw [← List.append_assoc]
      exact List.perm_middle.symm
    refine ⟨⟨fun hhas => h.sound.housed (World.Keeps.has (.of_eq rfl) ?_ hhas),
      h.sound.balanced.perm horder⟩, ⟨fun howned => ?_, fun hmember => ?_⟩, h.past⟩
    · exact fun u hmember d hsubject => .of_task (horder.mem_iff.mpr hmember) hsubject
    · rcases h.tracked.known howned with hsettled | ⟨u, hmember, hknows⟩
      · exact .inl hsettled
      · exact .inr ⟨u, horder.mem_iff.mp hmember, hknows⟩
    · exact h.tracked.fits (horder.mem_iff.mpr hmember)

theorem Reachable.kept (h : s.Reachable) : s.Kept := by
  induction h with
  | @start w hfresh =>
    have hstart := Scene.Reachable.start hfresh
    exact ⟨hstart.sound, ⟨hstart.accounted.known, hstart.accounted.fits⟩,
      fun hmember => by cases hmember⟩
  | step _ hnext ih => exact hnext.kept ih

/-! ## What is lost stays lost -/

theorem Step.lost (hstep : Step s t) : s.lost <:+ t.lost := by
  cases hstep with
  | goes _ | dropExecution _ => exact List.suffix_refl _
  | dropBorrow _ => exact List.suffix_cons _ _

theorem Steps.lost (hrun : Steps s t) : s.lost <:+ t.lost := by
  induction hrun with
  | refl => exact List.suffix_refl _
  | tail _ hnext ih => exact ih.trans hnext.lost

theorem out_append (l r : List Task) :
    (tally q (l ++ r)).out = (tally q l).out + (tally q r).out := by
  simp [tally]

/-- Every context of an open pool is idle, with a task that has it, or lost. -/
theorem Kept.shared (h : s.Kept) (hhere : s.scene.world.pools[q]? = some p)
    (hopened : p.closed = false) :
    p.idle.length + (tally q s.scene.tasks).out + (tally q s.lost).out = p.capacity := by
  have hall := (h.sound.balanced.pool hhere).whole hopened
  have hout : (tally q s.whole.tasks).out = _ := out_append s.scene.tasks s.lost
  omega

/-- Contexts that have been lost are never idle again. -/
theorem Kept.room (h : t.Kept) (hrun : Steps s t) (hhere : t.scene.world.pools[q]? = some p) :
    p.idle.length + (tally q s.lost).out ≤ p.capacity := by
  have hbalanced := h.sound.balanced.pool hhere
  have hout : (tally q t.whole.tasks).out = _ := out_append t.scene.tasks t.lost
  have hmore : (tally q s.lost).out ≤ (tally q t.lost).out :=
    (hrun.lost.sublist.filterMap (Task.keeps? q)).length_le
  cases hclosed : p.closed with
  | true =>
    have hbounded := hbalanced.bounded
    rw [hbalanced.emptied hclosed, List.length_nil]
    omega
  | false =>
    have hwhole := h.shared hhere hclosed
    omega

/-! ## What is loose is not waited for -/

/-- A call on an idle context has ended, unless its execution was dropped. -/
theorem Kept.idle_over (h : s.Kept) {c : ContextId} {id : CallId}
    (hhere : s.scene.world.pools[q]? = some p) (hidle : c ∈ p.idle)
    (howned : s.scene.world.owner? id = some c) :
    (s.scene.world.ended? id).isSome ∨ id ∈ s.loose := by
  rcases h.tracked.known howned with hsettled | ⟨u, hmember, hhas, -⟩
  · rcases List.mem_append.mp hsettled with hjoined | hloose
    · exact .inl (h.past hjoined)
    · exact .inr hloose
  · exact absurd (List.mem_filterMap.mpr ⟨u, hmember, hhas⟩) (h.sound.idle_apart hhere hidle)

/-- A context that is given back with nothing recorded on it goes into the queue of its open pool
at once, and no call hears of it. -/
theorem Kept.giveBack (h : s.Kept) {l r : List Task} {scope : ScopeId} {c : ContextId}
    (htask : s.scene.tasks = l ++ .holding q scope c none :: r)
    (hhere : s.scene.world.pools[q]? = some p) (hopened : p.closed = false)
    (hunrecorded : s.scene.world.inFlight? c = none) :
    ∃ t, Steps s t ∧ t.scene.world.pools[q]? = some { p with idle := p.idle ++ [c] } ∧
      t.scene.world.calls = s.scene.world.calls := by
  rcases hfound : s.scene.world.letGo c with ⟨record, w⟩
  obtain rfl : record = none := (World.letGo_record hfound).trans hunrecorded
  have hrelease : Step s _ := .goes (.release htask hfound)
  have hthere : w.pools[q]? = some p := by rw [World.letGo_pools hfound, hhere]
  have hreturning : .returning q c ∈ l ++ .returning q c :: r ++ s.lost := by simp
  have hqueued : w.enqueue q c = _ :=
    (hrelease.kept h).sound.enqueue_eq hthere hreturning hopened
  refine ⟨_, .tail (.single hrelease) (.goes (.enqueue (l := l) (r := r) rfl hqueued)),
    World.setPool_get (w := w.clear c) hthere, ?_⟩
  show w.calls = s.scene.world.calls
  exact World.letGo_calls hfound

/-- Whoever drops an execution whose call has begun gives back a context on which nothing is
recorded. -/
theorem Kept.dropAndGiveBack (h : s.Kept) {scope : ScopeId} {c : ContextId} {e : Execution}
    {call : CallId} (hmember : .holding q scope c (some e) ∈ s.scene.tasks)
    (hown : e.own? = some call) (hhere : s.scene.world.pools[q]? = some p)
    (hopened : p.closed = false) :
    ∃ t, Steps s t ∧ t.scene.world.pools[q]? = some { p with idle := p.idle ++ [c] } ∧
      t.scene.world.calls = s.scene.world.calls := by
  obtain ⟨l, r, htask⟩ := List.append_of_mem hmember
  have hdropped : Step s _ := .dropExecution htask
  -- the execution has a call of its own, so that nothing was recorded before
  have hunrecorded : s.scene.world.inFlight? c = none := by
    obtain ⟨-, hfits⟩ := h.tracked.fits (List.mem_append_left s.lost hmember)
    exact hfits.record_of_own hown
  obtain ⟨t, hrun, hafter⟩ := (hdropped.kept h).giveBack rfl hhere hopened hunrecorded
  exact ⟨t, .head hdropped hrun, hafter⟩

/-- What drops cost, in every reachable aftermath, with `p` the pool at a place. No context is in
two places, and while the pool is open every one of them is idle, out or lost; as many contexts as
have been lost are missing from the queue ever after. Every call that was begun has ended, is loose,
or is known to the task that has its context; on an idle context it has ended or is loose. And
whoever drops an execution whose call has begun can give the context back to the open pool, which
queues it at once, however the call stands. -/
theorem Reachable.drops_lose_slots (h : s.Reachable) (hhere : s.scene.world.pools[q]? = some p) :
    (p.idle ++ (s.scene.tasks ++ s.lost).filterMap Task.context?).Nodup ∧
    (p.closed = false →
      p.idle.length + (tally q s.scene.tasks).out + (tally q s.lost).out = p.capacity) ∧
    (∀ {t : Aftermath} {p' : Pool}, Steps s t → t.scene.world.pools[q]? = some p' →
      p'.idle.length + (tally q s.lost).out ≤ p'.capacity) ∧
    (∀ {c id}, s.scene.world.owner? id = some c → (s.scene.world.ended? id).isSome ∨
      id ∈ s.loose ∨ ∃ task ∈ s.scene.tasks ++ s.lost, task.context? = some c ∧
        task.call? s.scene.world = some id) ∧
    (∀ {c id}, c ∈ p.idle → s.scene.world.owner? id = some c →
      (s.scene.world.ended? id).isSome ∨ id ∈ s.loose) ∧
    (∀ {scope c e call}, .holding q scope c (some e) ∈ s.scene.tasks → e.own? = some call →
      p.closed = false → ∃ t, Steps s t ∧
        t.scene.world.pools[q]? = some { p with idle := p.idle ++ [c] } ∧
          t.scene.world.calls = s.scene.world.calls) := by
  refine ⟨h.kept.sound.nodup hhere, h.kept.shared hhere, fun hrun hhere' => ?_, fun howned => ?_,
    fun hidle howned => h.kept.idle_over hhere hidle howned,
    fun hmember hown hopened => h.kept.dropAndGiveBack hmember hown hhere hopened⟩
  · exact (h.steps hrun).kept.room hrun hhere'
  · rcases h.kept.tracked.known howned with hsettled | hknown
    · rcases List.mem_append.mp hsettled with hjoined | hloose
      · exact .inl (h.kept.past hjoined)
      · exact .inr (.inl hloose)
    · exact .inr (.inr hknown)

/-- The only borrow of a pool is dropped, and what there is to be lent is lost. -/
theorem drops_lose_slots_borrow : ∃ (s : Aftermath) (p : Pool), s.Reachable ∧ s.scene.tasks = [] ∧
    s.lost = [.holding 0 1 0 none] ∧ s.scene.world.pools[0]? = some p ∧ p.closed = false ∧
      ∀ {t : Aftermath} {p' : Pool}, Steps s t → t.scene.world.pools[0]? = some p' →
        p'.idle.length + 1 ≤ p'.capacity := by
  obtain ⟨s, h, htasks, -, -, -, -, -, hhere, -⟩ :=
    Scene.one_holds (.script ⟨"guest", none, [], []⟩ none .empty) default
  have hlost := (Reachable.of_scene h).step (.dropBorrow (l := []) htasks)
  obtain ⟨-, -, hroom, -⟩ := hlost.drops_lose_slots hhere
  exact ⟨_, _, hlost, rfl, rfl, hhere, rfl, hroom⟩

/-- Neither does every borrow end with its context in the queue, nor is every call on an idle
context over: there is a pool that is open, nobody has to do with it and it never has its one
context again; and there is one with a context in its queue on which a call goes on. -/
theorem lost_and_loose :
    (∃ (s : Aftermath) (p : Pool), s.Reachable ∧ s.scene.tasks = [] ∧
      s.scene.world.pools[0]? = some p ∧ p.closed = false ∧
        ∀ t p', Steps s t → t.scene.world.pools[0]? = some p' → p'.idle.length ≠ p'.capacity) ∧
    ∃ (s : Aftermath) (p : Pool), s.Reachable ∧ s.scene.world.pools[0]? = some p ∧
      p.closed = false ∧ 0 ∈ p.idle ∧ s.scene.world.owner? 0 = some 0 ∧
        s.scene.world.ended? 0 = none := by
  constructor
  -- A borrower that holds the only context drops its future: the slot is gone for good.
  · obtain ⟨s, h, htasks, -, -, -, -, -, hhere, -⟩ :=
      Scene.one_holds (.script ⟨"guest", none, [], []⟩ none .empty) default
    have hlost := (Reachable.of_scene h).step (.dropBorrow (l := []) htasks)
    refine ⟨_, _, hlost, rfl, hhere, rfl, fun t p' hrun hhere' hfull => ?_⟩
    have hroom := (hlost.steps hrun).kept.room hrun hhere'
    have hone : (tally 0 [.holding 0 1 0 none]).out = 1 := rfl
    dsimp only at hroom
    omega
  -- A call is under way when its execution is dropped, and the context goes back without a record.
  · let guest : GuestInstance := .script ⟨"guest", none, [], [("run", [])]⟩ none .empty
    have hexported : guest.function "run" = .ok () := by
      simp [guest, GuestInstance.function, GuestInstance.hasFunction]
    have hstarts : guest.start "run" [] =
        .ok (.script ⟨[], [], [], .empty⟩ (some (.ofPages 0))) := by
      simp [guest, GuestInstance.start]
    obtain ⟨s, h, htasks, hcalls, -, -, -, hhere, -⟩ := Scene.call_begun default hexported hstarts
    have hbegun := Reachable.of_scene h
    have hmember : .holding 0 1 0 (some ⟨0, ⟨0, "run"⟩, [], .running 0⟩) ∈ s.tasks := by
      simp [htasks]
    obtain ⟨t, hrun, hhere', hsame⟩ := hbegun.kept.dropAndGiveBack hmember rfl hhere rfl
    refine ⟨t, _, hbegun.steps hrun, hhere', rfl, List.mem_singleton_self 0, ?_, ?_⟩
    · rw [World.owner?_of_calls hsame]
      unfold World.owner?
      rw [hcalls]
      rfl
    · rw [World.ended?_of_calls hsame]
      unfold World.ended?
      rw [hcalls]
      rfl

end Aftermath
end SandboxPool
