import SandboxPool.Proofs.Pool.Balance
import SandboxPool.Proofs.Pool.Housing

/-!
# Contexts are neither lost nor doubled

Every reachable scene has its pools in balance with the tasks in it: `World.Balanced` holds at the
start and every step keeps it. So whoever has a permit finds a context, whoever gives one back
finds room for it, and nobody waits for a permit while a context is idle that nobody has been
promised.
-/

namespace SandboxPool

/-! ## Counting tasks -/

namespace Task

/-- The task has a permit of the pool at a place and has not taken a context yet. -/
def isPermitted (q : Nat) : Task → Bool
  | permitted place _ => place = q
  | _ => false

/-- The task owes the pool at a place a permit. -/
def isDue (q : Nat) : Task → Bool
  | queued place _ => place = q
  | _ => false

/-- The context that the task keeps out of the queue at a place. -/
def keeps? (q : Nat) (t : Task) : Option ContextId := if t.place = q then t.context? else none

/-- The name under which the task waits for a permit of the pool at a place. -/
def waits? (q : Nat) (t : Task) : Option Waiter := if t.place = q then t.waiter? else none

end Task

/-- How many tasks are at which point with the pool at a place. -/
def tally (q : Nat) (tasks : List Task) : Tally where
  permitted := tasks.countP (Task.isPermitted q)
  due := tasks.countP (Task.isDue q)
  out := (tasks.filterMap (Task.keeps? q)).length
  keeps c := (tasks.filterMap (Task.keeps? q)).count c
  waits v := (tasks.filterMap (Task.waits? q)).count v

section tally

variable {q place : Nat} {scope : ScopeId} {c : ContextId} {v : Waiter} {t : Task}
  {l r tasks tasks' : List Task}

/-- The order of the tasks does not matter. -/
theorem tally_perm (h : tasks.Perm tasks') : tally q tasks = tally q tasks' := by
  have hkept := h.filterMap (Task.keeps? q)
  have hwaits := h.filterMap (Task.waits? q)
  unfold tally
  congr 1
  · exact h.countP_eq _
  · exact h.countP_eq _
  · exact hkept.length_eq
  · exact funext fun c => hkept.count_eq c
  · exact funext fun v => hwaits.count_eq v

/-- A task somewhere among the others counts as if it came first. -/
theorem tally_middle : tally q (l ++ t :: r) = tally q (t :: (l ++ r)) :=
  tally_perm List.perm_middle

/-- A task that has to do with another pool does not count. -/
theorem tally_elsewhere (h : t.place ≠ q) : tally q (t :: tasks) = tally q tasks := by
  have hpermitted : t.isPermitted q = false := by
    cases t <;> simp [Task.isPermitted, Task.place] at h ⊢
    exact h
  have hdue : t.isDue q = false := by
    cases t <;> simp [Task.isDue, Task.place] at h ⊢
    exact h
  simp [tally, hpermitted, hdue, Task.keeps?, Task.waits?, h]

theorem tally_asking : tally q (.asking place scope :: tasks) = tally q tasks := by
  simp [tally, Task.isPermitted, Task.isDue, Task.keeps?, Task.waits?, Task.context?,
    Task.waiter?]

theorem tally_permitted :
    tally q (.permitted q scope :: tasks) = (tally q tasks).permit := by
  simp [tally, Tally.permit, Task.isPermitted, Task.isDue, Task.keeps?, Task.waits?,
    Task.context?, Task.waiter?]

theorem tally_queued : tally q (.queued q c :: tasks) = (tally q tasks).owing := by
  simp [tally, Tally.owing, Task.isPermitted, Task.isDue, Task.keeps?, Task.waits?,
    Task.context?, Task.waiter?]

theorem tally_waiting :
    tally q (.waiting q scope v :: tasks) = (tally q tasks).waiting v := by
  have hnames : Task.waits? q (.waiting q scope v) = some v := by
    simp [Task.waits?, Task.place, Task.waiter?]
  simp only [tally, Tally.waiting, List.filterMap_cons_some hnames, count_cons_eq]
  simp [Task.isPermitted, Task.isDue, Task.keeps?, Task.context?]

/-- A task that has a context keeps it out of the queue, whatever it does with it. -/
theorem tally_keeping (tasks : List Task) (hhere : t.place = q) (hhas : t.context? = some c) :
    tally q (t :: tasks) = (tally q tasks).keeping c := by
  have hkept : t.keeps? q = some c := by simp [Task.keeps?, hhere, hhas]
  have hpermitted : t.isPermitted q = false := by cases t <;> simp [Task.context?] at hhas <;> rfl
  have hdue : t.isDue q = false := by cases t <;> simp [Task.context?] at hhas <;> rfl
  have hwaits : t.waits? q = none := by
    cases t <;> simp [Task.context?] at hhas <;> simp [Task.waits?, Task.waiter?]
  simp only [tally, Tally.keeping, List.filterMap_cons_some hkept, count_cons_eq]
  simp [hpermitted, hdue, hwaits]

end tally

/-- A pool that is new is in balance with nobody. -/
theorem Pool.ofContexts_balanced (id q : Nat) {contexts : List ContextId}
    (hdistinct : contexts.Nodup) : (Pool.ofContexts id contexts).Balanced (tally q []) where
  shut := rfl
  balance _ := rfl
  whole _ := rfl
  bounded := Nat.zero_le _
  emptied hclosed := by cases hclosed
  apart c := List.nodup_iff_count.mp hdistinct c
  starved hline := absurd rfl hline
  waiting _ := rfl
  single _ := Nat.zero_le _

/-! ## What every step keeps -/

/-- The pools of a world are in balance with those who are in the middle of something, and who
waits has a name that nobody gets again. -/
structure World.Balanced (w : World) (tasks : List Task) : Prop where
  pool : ∀ {q : Nat} {p : Pool}, w.pools[q]? = some p → p.Balanced (tally q tasks)
  named : ∀ {t : Task} {v : Waiter}, t ∈ tasks → t.waiter? = some v → v < w.nextWaiter

namespace World.Balanced

variable {w w' : World} {place : Nat} {scope : ScopeId} {c : ContextId} {v : Waiter} {t : Task}
  {rest tasks tasks' : List Task}

/-- The balance does not depend on the order of the tasks. -/
theorem perm (h : w.Balanced tasks) (horder : tasks.Perm tasks') : w.Balanced tasks' where
  pool hfound := tally_perm horder ▸ h.pool hfound
  named hmember := h.named (horder.mem_iff.mpr hmember)

/-- Counters do not matter. -/
theorem recount (h : w.Balanced tasks) (hpools : w.Recounts w')
    (hnames : w'.nextWaiter = w.nextWaiter) : w'.Balanced tasks where
  pool {q p'} hfound := by
    obtain ⟨f, hf⟩ := hpools
    rw [hf, Option.map_eq_some_iff] at hfound
    obtain ⟨p, hp, rfl⟩ := hfound
    exact (h.pool hp).count (f q)
  named hmember hname := by
    rw [hnames]
    exact h.named hmember hname

/-- A new task that keeps no context and waits for nothing does not matter. -/
theorem asking (h : w.Balanced tasks) : w.Balanced (.asking place scope :: tasks) where
  pool hfound := by
    rw [tally_asking]
    exact h.pool hfound
  named hmember hname := by
    rcases List.mem_cons.mp hmember with rfl | hmember
    · simp [Task.waiter?] at hname
    · exact h.named hmember hname

/-- A task goes on, and what it does to its pool keeps the balance. -/
theorem goOn (h : w.Balanced (t :: rest)) (tasks' : List Task)
    (hfollows : ∀ u ∈ tasks', u.place = t.place)
    (hothers : ∀ {q}, q ≠ t.place → w'.pools[q]? = w.pools[q]?)
    (hhere : ∀ {p'}, w'.pools[t.place]? = some p' → p'.Balanced (tally t.place (tasks' ++ rest)))
    (hnames : w.nextWaiter ≤ w'.nextWaiter)
    (hfresh : ∀ u ∈ tasks', ∀ v, u.waiter? = some v → v < w'.nextWaiter) :
    w'.Balanced (tasks' ++ rest) where
  pool {q p} hfound := by
    by_cases hq : q = t.place
    · rw [hq] at hfound ⊢
      exact hhere hfound
    · rw [hothers hq] at hfound
      -- the tasks that come count as little elsewhere as the one that goes
      have haway : tally q (tasks' ++ rest) = tally q rest := by
        clear hhere hfresh
        induction tasks' with
        | nil => rfl
        | cons u us ih =>
          rw [List.cons_append, tally_elsewhere, ih fun u hu => hfollows u (by simp [hu])]
          rw [hfollows u (by simp)]
          exact Ne.symm hq
      rw [haway, ← tally_elsewhere (Ne.symm hq)]
      exact h.pool hfound
  named {u v} hmember hname := by
    rcases List.mem_append.mp hmember with hmember | hmember
    · exact hfresh u hmember v hname
    · exact Nat.lt_of_lt_of_le (h.named (List.mem_cons_of_mem _ hmember) hname) hnames

/-- A task is over, and its pool keeps the balance without it. -/
theorem finish (h : w.Balanced (t :: rest))
    (hothers : ∀ {q}, q ≠ t.place → w'.pools[q]? = w.pools[q]?)
    (hhere : ∀ {p'}, w'.pools[t.place]? = some p' → p'.Balanced (tally t.place rest))
    (hnames : w.nextWaiter ≤ w'.nextWaiter) : w'.Balanced rest :=
  h.goOn [] (by simp) hothers hhere hnames (by simp)

/-- Nobody waits under a name that was not given yet. -/
theorem waits_fresh (h : w.Balanced tasks) (q : Nat) (hnew : w.nextWaiter ≤ v) :
    (tally q tasks).waits v = 0 := by
  refine List.count_eq_zero.mpr fun hmember => ?_
  obtain ⟨t, ht, hwaits⟩ := List.mem_filterMap.mp hmember
  unfold Task.waits? at hwaits
  split at hwaits
  · exact Nat.not_lt.mpr hnew (h.named ht hwaits)
  · cases hwaits

/-- A task that has a context gives way to another that has the same. -/
theorem keep {t' : Task} (h : w.Balanced (t :: rest)) (hplace : t'.place = t.place)
    (hhas : t.context? = some c) (hhas' : t'.context? = some c) : w.Balanced (t' :: rest) := by
  refine h.goOn [t'] (by simp [hplace]) (fun _ => rfl) (fun hfound => ?_)
    (Nat.le_refl _) ?_
  · rw [List.singleton_append, tally_keeping rest hplace hhas', ← tally_keeping rest rfl hhas]
    exact h.pool hfound
  · intro u hmember v hname
    rw [List.mem_singleton.mp hmember] at hname
    cases t' with
    | waiting => cases hhas'
    | _ => cases hname

/-! ## Borrowing -/

theorem ask (h : w.Balanced (.asking place scope :: rest)) {asked : World.Asked}
    (hfound : w.ask place scope = (asked, w')) :
    w'.Balanced ((Task.ofAsked place scope asked).toList ++ rest) := by
  have hdropped : w.Balanced rest :=
    h.finish (fun _ => rfl) (fun hp => tally_asking ▸ h.pool hp) (Nat.le_refl _)
  -- The task is dropped first, which costs nothing; what it has become is added to what is left.
  rcases ask_cases hfound with ⟨⟨cause, rfl⟩, rfl⟩ | ⟨p, p', got, hhere, hanswer, rfl, rfl⟩
  · exact hdropped
  · have hbefore : p.Balanced (tally place rest) := hdropped.pool hhere
    refine h.goOn _ ?_ (fun hq => setPool_other hq) (fun hfound => ?_) (Nat.le_succ _) ?_
    · cases got <;> simp [World.Asked.ofAnswer, Task.ofAsked, Task.place]
    · rw [setPool_same hfound]
      cases got with
      | given => exact tally_permitted ▸ hbefore.request_given hanswer
      -- A new waiter has a number that nobody else has.
      | wait =>
        have hfresh := hdropped.waits_fresh place (Nat.le_refl _)
        exact tally_waiting ▸ hbefore.request_wait hfresh hanswer
      | closed => exact hbefore.request_closed hanswer ▸ hbefore
    · cases got <;> simp [World.Asked.ofAnswer, Task.ofAsked, Task.waiter?, setPool]

theorem giveUp (h : w.Balanced (.waiting place scope v :: rest)) :
    (w.giveUp place v).Balanced rest := by
  refine h.finish (fun {q} hq => ?_) (fun {p'} hfound => ?_) (Nat.le_refl _)
  · unfold World.giveUp
    rw [modifyPool_pools]
    exact if_neg hq
  · unfold World.giveUp at hfound
    rw [modifyPool_pools] at hfound
    obtain ⟨p, hhere, rfl⟩ := Option.map_eq_some_iff.mp ((if_pos rfl).symm.trans hfound)
    exact (tally_waiting ▸ h.pool hhere).giveUp

theorem askAgain (h : w.Balanced (.waiting place scope v :: rest)) {asked : World.Asked}
    (hfound : w.askAgain place scope v = (asked, w')) :
    w'.Balanced ((Task.ofAsked place scope asked).toList ++ rest) := by
  -- A pool that is gone, a waiter that is refused, and an answer from the line.
  rcases askAgain_cases hfound with
    ⟨⟨cause, rfl⟩, ⟨hnone, rfl⟩ | rfl⟩ | ⟨p, p', got, hhere, hanswer, rfl, rfl⟩
  · exact h.finish (fun _ => rfl) (fun hfound => absurd (hnone.symm.trans hfound) (by simp))
      (Nat.le_refl _)
  · exact h.giveUp
  · have hbefore : p.Balanced ((tally place rest).waiting v) := tally_waiting ▸ h.pool hhere
    refine h.goOn _ ?_ (fun hq => setPool_other hq) (fun hfound => ?_) (Nat.le_refl _) ?_
    · cases got <;> simp [World.Asked.ofAnswer, Task.ofAsked, Task.place]
    · rw [setPool_same hfound]
      cases got with
      | given => exact tally_permitted ▸ hbefore.look_given hanswer
      | wait => exact hbefore.look_wait hanswer ▸ tally_waiting ▸ hbefore
      | closed => exact hbefore.look_closed hanswer
    · have hname := h.named List.mem_cons_self rfl
      cases got <;> simp [World.Asked.ofAnswer, Task.ofAsked, Task.waiter?, setPool, hname]

/-- A permit becomes a context that is out, or nothing where the pool was closed. -/
theorem handOut (h : w.Balanced (.permitted place scope :: rest)) {taken : Outcome ContextId}
    (hfound : w.handOut place scope = (taken, w')) :
    w'.Balanced ((Task.ofTaken place scope taken).toList ++ rest) := by
  rcases handOut_cases hfound with
    ⟨hnone, rfl, rfl⟩ | ⟨p, p', hhere, hanswer, ⟨e, rfl, rfl⟩ | ⟨c, event, rfl, rfl⟩⟩
  · exact h.finish (fun _ => rfl) (fun hfound => absurd (hnone.symm.trans hfound) (by simp))
      (Nat.le_refl _)
  · refine h.finish (fun hq => setPool_other hq) (fun hfound => ?_) (Nat.le_refl _)
    rw [setPool_same hfound]
    exact Pool.Balanced.takeIdle_error (tally_permitted ▸ h.pool hhere) hanswer
  · refine h.goOn _ (by simp [Task.ofTaken, Task.place]) (fun hq => setPool_other hq)
      (fun hfound => ?_) (Nat.le_refl _) (by simp [Task.ofTaken, Task.waiter?])
    -- The permit is spent on the context that is handed out.
    rw [setPool_same hfound]
    have hbefore : p.Balanced (tally place rest).permit := tally_permitted ▸ h.pool hhere
    have hkept := tally_keeping (q := place) (t := .holding place scope c none) rest
      rfl rfl
    exact hkept ▸ (hbefore.takeIdle_ok hanswer).count _

/-! ## Giving back -/

/-- A context that comes back owes a permit, or is disposed of. -/
theorem enqueue (h : w.Balanced (.returning place c :: rest)) {p : Pool} {x : Context}
    (hhere : w.pools[place]? = some p) (hthere : w.contexts[c]? = some x)
    {returned : Option Pool.Returned} (hfound : w.enqueue place c = (returned, w')) :
    w'.Balanced ((Task.ofReturned place c returned).toList ++ rest) := by
  have hkept := tally_keeping (q := place) (t := .returning place c) rest rfl rfl
  have hbefore : p.Balanced ((tally place rest).keeping c) := hkept ▸ h.pool hhere
  rcases enqueue_cases hfound with ⟨hnone | hnone, -, -⟩ |
    ⟨p₁, got, p', hhere', hanswer, rfl, ⟨rfl, event, rfl⟩ | ⟨hlive, rfl⟩⟩
  · rw [hhere] at hnone
    cases hnone
  · rw [hthere] at hnone
    cases hnone
  all_goals obtain rfl := Option.some.inj (hhere.symm.trans hhere')
  · refine h.finish (fun hq => setPool_other hq) (fun hfound => ?_) (Nat.le_refl _)
    rw [setPool_same hfound]
    exact (hbefore.pushIdle_disposed hanswer).count _
  · -- there is room for a context that was out
    obtain rfl : got = .queued := by
      rw [hbefore.pushIdle_eq] at hanswer
      split at hanswer
      · exact absurd (Prod.mk.inj hanswer).1.symm hlive
      · exact (Prod.mk.inj hanswer).1.symm
    refine h.goOn _ (by simp [Task.ofReturned, Task.place]) (fun hq => setPool_other hq)
      (fun hfound => ?_) (Nat.le_refl _) (by simp [Task.ofReturned, Task.waiter?])
    rw [setPool_same hfound]
    exact tally_queued ▸ hbefore.pushIdle_queued hanswer

/-- The permit that was owed is given. -/
theorem announce (h : w.Balanced (.queued place c :: rest)) {p : Pool} {x : Context}
    (hhere : w.pools[place]? = some p) (hthere : w.contexts[c]? = some x) :
    (w.announce place c).Balanced rest := by
  obtain ⟨event, hsame⟩ := announce_eq hhere hthere
  rw [hsame]
  refine h.finish (fun hq => setPool_other hq) (fun hfound => ?_) (Nat.le_refl _)
  rw [setPool_same hfound]
  have hbefore : p.Balanced (tally place rest).owing := tally_queued ▸ h.pool hhere
  exact (hbefore.count _).addPermit

theorem close (h : w.Balanced tasks) : (w.close place).Balanced tasks := by
  rcases close_cases (w := w) place with hsame | ⟨p, p', disposed, event, hhere, hcloses, hsame⟩
  · rw [hsame]
    exact h
  · rw [hsame]
    refine ⟨fun {q p''} hfound => ?_, h.named⟩
    by_cases hq : q = place
    · subst hq
      rw [setPool_same hfound]
      exact (h.pool hhere).close hcloses
    · exact h.pool ((setPool_other hq).symm.trans hfound)

/-- Whoever has a context may begin to execute something. -/
theorem execute {l r : List Task} {scope : ScopeId}
    (h : w.Balanced (l ++ .holding place scope c none :: r)) (e : Execution) :
    w.Balanced (l ++ .holding place scope c (some e) :: r) := by
  have hnext : w.Balanced (.holding place scope c (some e) :: (l ++ r)) :=
    (h.perm List.perm_middle).keep rfl rfl rfl
  exact hnext.perm List.perm_middle.symm

end World.Balanced

namespace Scene

variable {s t : Scene}

/-- Where one task goes on, the order of the tasks does not matter. -/
theorem perm_option (l r : List Task) (o : Option Task) :
    (o.toList ++ (l ++ r)).Perm (l ++ o.toList ++ r) := by
  rw [List.append_assoc]
  exact List.perm_append_comm_assoc _ _ _

/-- Every step keeps the balance. -/
theorem Step.balanced (hstep : Step s t) (hhoused : s.world.Housed s.tasks)
    (h : s.world.Balanced s.tasks) : t.world.Balanced t.tasks := by
  -- the task that moves may as well come first
  have hfirst {t : Task} {l r : List Task} (htask : s.tasks = l ++ t :: r) :
      s.world.Balanced (t :: (l ++ r)) := h.perm (htask ▸ List.perm_middle)
  cases hstep with
  | scope | fire _ | gate _ | elsewhere _ => exact ⟨h.pool, h.named⟩
  | carry id fuel shut =>
    have hcarried := s.world.carryFor_carried (fun _ => fuel) shut id
    exact h.recount (.of_eq hcarried.pools) hcarried.nextWaiter
  | enter _ _ => exact h.asking
  | ask htask hfound => exact ((hfirst htask).ask hfound).perm (perm_option _ _ _)
  | look htask hfound => exact ((hfirst htask).askAgain hfound).perm (perm_option _ _ _)
  | giveUp htask => exact (hfirst htask).giveUp
  | take htask hfound => exact ((hfirst htask).handOut hfound).perm (perm_option _ _ _)
  | touch _ _ _ => exact h.recount (.of_eq rfl) rfl
  | prepare htask _ => exact (htask ▸ h).execute _
  | @poll l r place scope c e late polled w htask hfound =>
    have hnext : s.world.Balanced (.holding place scope c polled.rest :: (l ++ r)) :=
      (hfirst htask).keep rfl rfl rfl
    have hnext := hnext.perm List.perm_middle.symm
    rcases World.pollWith_looked hfound with ⟨-, -, rfl⟩ | ⟨x, -, hlooked⟩
    · exact hnext
    · exact hnext.recount hlooked.calm.pools hlooked.calm.nextWaiter
  | @release l r place scope c record w htask hfound =>
    have hnext : s.world.Balanced (Task.ofLetGo place scope c record :: (l ++ r)) := by
      refine (hfirst htask).keep (c := c) ?_ rfl ?_ <;> cases record <;> rfl
    have hnext := hnext.perm List.perm_middle.symm
    obtain ⟨-, rfl⟩ := Prod.mk.inj hfound
    exact hnext.recount (.of_eq rfl) rfl
  | @settle l r place scope c call htask _ =>
    have hnext : s.world.Balanced (.returning place c :: (l ++ r)) :=
      (hfirst htask).keep rfl rfl rfl
    have hcounted := World.count_calm (w := s.world) c Counters.settle
    exact (hnext.perm List.perm_middle.symm).recount hcounted.pools hcounted.nextWaiter
  | @enqueue l r place c returned w htask hfound =>
    have hmine : .returning place c ∈ s.tasks := by simp [htask]
    obtain ⟨x, p, hthere, hhere, -⟩ := hhoused.there hmine rfl
    exact ((hfirst htask).enqueue hhere hthere hfound).perm (perm_option _ _ _)
  | @announce l r place c htask =>
    have hmine : .queued place c ∈ s.tasks := by simp [htask]
    obtain ⟨x, p, hthere, hhere, -⟩ := hhoused.there hmine rfl
    exact (hfirst htask).announce hhere hthere
  | close place => exact h.close
  | fault place => exact h.recount (World.modifyPool_recounts _) rfl

/-- In every reachable scene the pools are in balance. -/
theorem Reachable.balanced (h : Reachable s) : s.world.Balanced s.tasks := by
  -- that contexts are at home is what lets one that comes back find its pool
  induction h with
  | @start w hfresh =>
    refine ⟨fun {q p} hhere => ?_, fun hmember => by cases hmember⟩
    obtain ⟨hnew, hdistinct, -⟩ := hfresh.pool hhere
    rw [hnew]
    exact Pool.ofContexts_balanced p.id q hdistinct
  | step hbefore hnext ih => exact hnext.balanced hbefore.housed ih

/-- Contexts are at home, and the pools are in balance. -/
structure Sound (s : Scene) : Prop where
  housed : s.world.Housed s.tasks
  balanced : s.world.Balanced s.tasks

theorem Step.sound (hstep : Step s t) (h : s.Sound) : t.Sound where
  housed hhas := by
    rw [hstep.home]
    exact h.housed (hstep.has hhas)
  balanced := hstep.balanced h.housed h.balanced

theorem Sound.execute (h : s.Sound) {l r : List Task} {place : Nat} {scope : ScopeId}
    {c : ContextId} (htask : s.tasks = l ++ .holding place scope c none :: r) (e : Execution) :
    Sound { s with tasks := l ++ .holding place scope c (some e) :: r } where
  housed hhas := h.housed (World.Keeps.has (.of_eq rfl) (.of_next htask (by rfl) (by rfl)) hhas)
  balanced := (htask ▸ h.balanced).execute e

theorem Reachable.sound (h : Reachable s) : s.Sound := ⟨h.housed, h.balanced⟩

/-! ## What follows -/

/-- A task among others counts as if it came first. -/
theorem tally_of_mem {t : Task} (q : Nat) (hmember : t ∈ s.tasks) :
    ∃ rest, tally q s.tasks = tally q (t :: rest) := by
  obtain ⟨l, r, htask⟩ := List.append_of_mem hmember
  exact ⟨l ++ r, htask ▸ tally_middle⟩

/-- One who has a permit gets the first context of the queue, or finds the pool closed. -/
theorem Reachable.handOut_answer (h : Reachable s) {q : Nat} {p : Pool} {scope : ScopeId}
    (hhere : s.world.pools[q]? = some p) (hmember : .permitted q scope ∈ s.tasks) :
    (p.closed = true ∧ (s.world.handOut q scope).1 = refuse .shuttingDown) ∨
      (p.closed = false ∧ ∃ c, p.idle.head? = some c ∧ (s.world.handOut q scope).1 = .ok c) := by
  obtain ⟨rest, hsame⟩ := tally_of_mem q hmember
  have hbefore : p.Balanced (tally q rest).permit :=
    tally_permitted ▸ hsame ▸ h.balanced.pool hhere
  rcases hfound : s.world.handOut q scope with ⟨taken, w⟩
  rcases World.handOut_cases hfound with ⟨hnone, -⟩ | ⟨p₁, p', hhere', hanswer, -⟩
  · rw [hhere] at hnone
    cases hnone
  · obtain rfl := Option.some.inj (hhere.symm.trans hhere')
    -- the balance tells that the queue is not empty as long as the pool is open
    cases hclosed : p.closed with
    | true =>
      rw [hbefore.takeIdle_of_closed hclosed] at hanswer
      exact .inl ⟨rfl, (Prod.mk.inj hanswer).1.symm⟩
    | false =>
      obtain ⟨c, p'', hok⟩ := hbefore.takeIdle_of_open hclosed
      rw [hok] at hanswer
      refine .inr ⟨rfl, c, ?_, (Prod.mk.inj hanswer).1.symm⟩
      rw [Pool.takeIdle_idle hok]
      rfl

/-- Who comes with a context finds room for it, unless the pool is closed. -/
theorem Sound.pushIdle_eq (h : s.Sound) {q : Nat} {p : Pool} {c : ContextId}
    (hhere : s.world.pools[q]? = some p) (hmember : .returning q c ∈ s.tasks) :
    p.pushIdle c =
      if p.closed then (.disposed, p) else (.queued, { p with idle := p.idle ++ [c] }) := by
  obtain ⟨rest, hsame⟩ := tally_of_mem q hmember
  have hkept := tally_keeping (q := q) (t := .returning q c) rest rfl rfl
  have hbefore : p.Balanced ((tally q rest).keeping c) := hkept ▸ hsame ▸ h.balanced.pool hhere
  exact hbefore.pushIdle_eq

/-- As long as the pool is open, the context is the last one in the queue afterwards. -/
theorem Sound.enqueue_eq (h : s.Sound) {q : Nat} {p : Pool} {c : ContextId}
    (hhere : s.world.pools[q]? = some p) (hmember : .returning q c ∈ s.tasks)
    (hopened : p.closed = false) :
    s.world.enqueue q c =
      (some .queued, (s.world.clear c).setPool q { p with idle := p.idle ++ [c] }) := by
  obtain ⟨x, -, hthere, -⟩ := World.Housed.there h.housed hmember rfl
  have hanswer : p.pushIdle c = (.queued, { p with idle := p.idle ++ [c] }) := by
    rw [h.pushIdle_eq hhere hmember]
    exact if_neg (by simp [hopened])
  rcases hfound : s.world.enqueue q c with ⟨returned, w⟩
  rcases World.enqueue_cases hfound with ⟨hnone | hnone, -⟩ |
    ⟨p₁, got, p', hhere', hanswer', rfl, ⟨rfl, -⟩ | ⟨-, rfl⟩⟩
  · rw [hhere] at hnone
    cases hnone
  · rw [hthere] at hnone
    cases hnone
  -- What the queue answers is settled by its being open, so only one case is left.
  all_goals
    obtain rfl := Option.some.inj (hhere.symm.trans hhere')
    cases hanswer.symm.trans hanswer'
  rfl

/-- One who gives a context back finds room for it, or the pool closed. -/
theorem Reachable.enqueue_answer (h : Reachable s) {q : Nat} {p : Pool} {c : ContextId}
    (hhere : s.world.pools[q]? = some p) (hmember : .returning q c ∈ s.tasks) :
    (s.world.enqueue q c).1 = some (if p.closed then .disposed else .queued) := by
  obtain ⟨x, -, hthere, -⟩ := h.there hmember rfl
  rcases hfound : s.world.enqueue q c with ⟨returned, w⟩
  rcases World.enqueue_cases hfound with ⟨hnone | hnone, -⟩ | ⟨p₁, got, p', hhere', hanswer, rfl, -⟩
  · rw [hhere] at hnone
    cases hnone
  · rw [hthere] at hnone
    cases hnone
  · obtain rfl := Option.some.inj (hhere.symm.trans hhere')
    rw [h.sound.pushIdle_eq hhere hmember] at hanswer
    cases hclosed : p.closed with
    | true => rw [hclosed] at hanswer; exact congrArg some (Prod.mk.inj hanswer).1.symm
    | false => rw [hclosed] at hanswer; exact congrArg some (Prod.mk.inj hanswer).1.symm

/-- A context that is out is kept by a task at its home. -/
theorem Sound.count_context (h : s.Sound) {q : Nat} {c : ContextId}
    (hhome : s.world.home? c = some q) :
    (s.tasks.filterMap Task.context?).count c = (tally q s.tasks).keeps c := by
  show _ = (s.tasks.filterMap (Task.keeps? q)).count c
  rw [List.count_filterMap, List.count_filterMap]
  refine List.countP_congr fun t hmember => ?_
  -- whoever has the context is at its home
  simp only [beq_iff_eq, Task.keeps?]
  constructor
  · intro hhas
    have hthere := h.housed (.of_task hmember (Task.subject?_of_context? hhas))
    rw [if_pos (Option.some.inj (hthere.symm.trans hhome)), hhas]
  · intro hkept
    split at hkept
    · exact hkept
    · cases hkept

/-- A context is in one place at a time: in the queue, or with one task. -/
theorem Sound.count_le_one (h : s.Sound) {q : Nat} {p : Pool} {c : ContextId}
    (hhere : s.world.pools[q]? = some p) (hhome : s.world.home? c = some q) :
    p.idle.count c + (s.tasks.filterMap Task.context?).count c ≤ 1 := by
  rw [h.count_context hhome]
  exact (h.balanced.pool hhere).apart c

/-- No two tasks have the same context. -/
theorem Sound.distinct (h : s.Sound) : (s.tasks.filterMap Task.context?).Nodup := by
  rw [List.nodup_iff_count]
  intro c
  by_cases hout : c ∈ s.tasks.filterMap Task.context?
  · obtain ⟨t, hmember, hhas⟩ := List.mem_filterMap.mp hout
    have hhome := h.housed (.of_task hmember (Task.subject?_of_context? hhas))
    obtain ⟨-, p, -, hhere, -⟩ := World.home?_eq_some hhome
    have hone := h.count_le_one hhere hhome
    omega
  · rw [List.count_eq_zero.mpr hout]
    omega

/-- No other task has the context of a task. -/
theorem Sound.others (h : s.Sound) {t : Task} {l r : List Task} {c : ContextId}
    (htask : s.tasks = l ++ t :: r) (hhas : t.context? = some c) :
    ∀ u ∈ l ++ r, u.context? ≠ some c := by
  have hdistinct : ((t :: (l ++ r)).filterMap Task.context?).Nodup :=
    (List.perm_middle.filterMap _).nodup_iff.mp (htask ▸ h.distinct)
  rw [List.filterMap_cons_some hhas, List.nodup_cons] at hdistinct
  exact fun u hmember hsame => hdistinct.1 (List.mem_filterMap.mpr ⟨u, hmember, hsame⟩)

/-- Nobody has a context that somebody else has. -/
theorem Reachable.others (h : Reachable s) {t : Task} {l r : List Task} {c : ContextId}
    (htask : s.tasks = l ++ t :: r) (hhas : t.context? = some c) :
    ∀ u ∈ l ++ r, u.context? ≠ some c := h.sound.others htask hhas

/-- Two tasks with the same context are one. -/
theorem Sound.unique (h : s.Sound) {t u : Task} {c : ContextId} (hmember : t ∈ s.tasks)
    (hmember' : u ∈ s.tasks) (hhas : t.context? = some c) (hhas' : u.context? = some c) :
    u = t := by
  obtain ⟨l, r, htask⟩ := List.append_of_mem hmember
  rcases Task.eq_or_rest htask hmember' with hsame | hrest
  · exact hsame
  · exact absurd hhas' (h.others htask hhas u hrest)

theorem Reachable.unique (h : Reachable s) {t u : Task} {c : ContextId} (hmember : t ∈ s.tasks)
    (hmember' : u ∈ s.tasks) (hhas : t.context? = some c) (hhas' : u.context? = some c) : u = t :=
  h.sound.unique hmember hmember' hhas hhas'

/-- No task has an idle context. -/
theorem Sound.idle_apart (h : s.Sound) {q : Nat} {p : Pool} {c : ContextId}
    (hhere : s.world.pools[q]? = some p) (hidle : c ∈ p.idle) :
    c ∉ s.tasks.filterMap Task.context? := by
  intro hout
  have hone := h.count_le_one hhere (h.housed (.inl ⟨p, hhere, hidle⟩))
  have := List.count_pos_iff.mpr hidle
  have := List.count_pos_iff.mpr hout
  omega

theorem Sound.nodup (h : s.Sound) {q : Nat} {p : Pool}
    (hhere : s.world.pools[q]? = some p) : (p.idle ++ s.tasks.filterMap Task.context?).Nodup := by
  refine List.nodup_append.mpr ⟨?_, h.distinct, fun c hidle d hout hsame => ?_⟩
  · rw [List.nodup_iff_count]
    intro c
    have hone := (h.balanced.pool hhere).apart c
    omega
  · exact h.idle_apart hhere hidle (hsame ▸ hout)

theorem Reachable.distinct (h : Reachable s) : (s.tasks.filterMap Task.context?).Nodup :=
  h.sound.distinct

/-- A context in the queue is nobody's. -/
theorem Reachable.idle_apart (h : Reachable s) {q : Nat} {p : Pool} {c : ContextId}
    (hhere : s.world.pools[q]? = some p) (hidle : c ∈ p.idle) :
    c ∉ s.tasks.filterMap Task.context? := h.sound.idle_apart hhere hidle

/-- No context is out twice, or out and in the queue. -/
theorem Reachable.nodup (h : Reachable s) {q : Nat} {p : Pool}
    (hhere : s.world.pools[q]? = some p) : (p.idle ++ s.tasks.filterMap Task.context?).Nodup :=
  h.sound.nodup hhere

/-- One who waits and has been granted nothing waits because no permit is free. -/
theorem Reachable.waiting_free (h : Reachable s) {q : Nat} {p : Pool} {scope : ScopeId}
    {v : Waiter} (hhere : s.world.pools[q]? = some p) (hmember : .waiting q scope v ∈ s.tasks)
    (hnone : v ∉ p.permits.granted) : p.permits.free = 0 := by
  obtain ⟨rest, hsame⟩ := tally_of_mem q hmember
  have hbefore : p.Balanced ((tally q rest).waiting v) :=
    tally_waiting ▸ hsame ▸ h.balanced.pool hhere
  have hone := hbefore.counts_of_waiting.1
  rw [List.count_eq_zero.mpr hnone] at hone
  -- without a promise it is in line
  refine hbefore.starved fun hline => ?_
  rw [hline] at hone
  cases hone

/-- In every reachable scene, with `p` the pool at a place: while it is open, there is an idle
context for every permit that is free, granted, taken or still due; one who has a permit finds a
context, and one who gives a context back finds room, unless the pool is closed; every context is
in one place, and at most as many are out as there are; and who waits without a permit waits
because none is free, so that every idle context is promised or its permit is still due. -/
theorem Reachable.conserved (h : Reachable s) {q : Nat} {p : Pool}
    (hhere : s.world.pools[q]? = some p) :
    (p.closed = false → p.idle.length =
      p.permits.free + (p.permits.granted.length + s.tasks.countP (Task.isPermitted q)) +
        s.tasks.countP (Task.isDue q)) ∧
    (∀ scope, .permitted q scope ∈ s.tasks →
      (p.closed = true ∧ (s.world.handOut q scope).1 = refuse .shuttingDown) ∨
      (p.closed = false ∧ ∃ c, p.idle.head? = some c ∧ (s.world.handOut q scope).1 = .ok c)) ∧
    (∀ c, .returning q c ∈ s.tasks →
      (s.world.enqueue q c).1 = some (if p.closed then .disposed else .queued)) ∧
    (p.idle ++ s.tasks.filterMap Task.context?).Nodup ∧
    (s.tasks.filterMap (Task.keeps? q)).length ≤ p.capacity ∧
    (p.closed = false →
      p.idle.length + (s.tasks.filterMap (Task.keeps? q)).length = p.capacity) ∧
    (∀ scope v, .waiting q scope v ∈ s.tasks → v ∉ p.permits.granted → p.permits.free = 0 ∧
      (p.closed = false → p.idle.length = p.permits.granted.length +
        s.tasks.countP (Task.isPermitted q) + s.tasks.countP (Task.isDue q))) := by
  have hbalanced := h.balanced.pool hhere
  refine ⟨hbalanced.balance, fun scope => h.handOut_answer hhere, fun c => h.enqueue_answer hhere,
    h.nodup hhere, hbalanced.bounded, hbalanced.whole, fun scope v hmember hnone => ?_⟩
  have hfree := h.waiting_free hhere hmember hnone
  refine ⟨hfree, fun hopened => ?_⟩
  have hall := hbalanced.balance hopened
  rw [hfree, Nat.zero_add] at hall
  exact hall

/-- Two callers ask a pool of one context; the second waits. -/
theorem one_waits (guest : GuestInstance) (services : Services) :
    ∃ s : Scene, s.Reachable ∧ s.tasks = [.waiting 0 1 1, .permitted 0 1] ∧
      s.world.pools[0]? = some ⟨1, 1, [0], ⟨0, [1], [], false⟩, false, .zero⟩ := by
  have hstart := Reachable.start (World.ofGuest_fresh guest services)
  have hmade := hstart.step .scope
  have hfirst := (hmade.step (.enter 0 (List.mem_singleton_self 1) rfl)).step
    (.ask (l := []) (r := []) rfl rfl)
  have hsecond := (hfirst.step (.enter 0 (List.mem_singleton_self 1) rfl)).step
    (.ask (l := []) (r := [.permitted 0 1]) rfl rfl)
  exact ⟨_, hsecond, rfl, rfl⟩

/-- The idle context is promised to the first of the two. -/
theorem conserved_one_waits : ∃ s : Scene, s.Reachable ∧ .waiting 0 1 1 ∈ s.tasks ∧
    ∃ p : Pool, s.world.pools[0]? = some p ∧ p.idle.length = 1 ∧ p.permits.free = 0 ∧
      s.tasks.countP (Task.isPermitted 0) = 1 := by
  obtain ⟨s, h, htasks, hhere⟩ := one_waits (.script ⟨"guest", none, [], []⟩ none .empty) default
  have hwaits : Task.waiting 0 1 1 ∈ s.tasks := by rw [htasks]; exact List.mem_cons_self
  obtain ⟨-, -, -, -, -, -, hwaiting⟩ := h.conserved hhere
  exact ⟨s, h, hwaits, _, hhere, rfl, (hwaiting 1 1 hwaits (by simp)).1, by rw [htasks]; rfl⟩

end Scene

end SandboxPool
