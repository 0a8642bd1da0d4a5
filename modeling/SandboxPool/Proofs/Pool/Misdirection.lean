import SandboxPool.Proofs.Pool.Dropping
import SandboxPool.Proofs.Pool.Opening
import SandboxPool.Proofs.Pool.Visits

/-!
# Contexts given to the wrong pool

A pool refuses a context of another pool, and changes nothing. But whoever gave the context away
has it no more, and the pool that lent it never hears of it. `Astray` is a scene in which this may
happen, with those who did so. For the pool at home they are borrowers who never come back: it
behaves as if they still had their contexts and did nothing with them (`Astray.Steps.standing`).
`Astray.Reachable.refused_context_lost` says what that costs it for the rest of its life.
-/

namespace SandboxPool

/-! ## The order of tasks -/

namespace Scene

variable {s s' t : Scene}

/-- The same world, and the same tasks in some other order. -/
structure Alike (s s' : Scene) : Prop where
  world : s'.world = s.world
  scopes : s'.scopes = s.scopes
  joined : s'.joined = s.joined
  tasks : s.tasks.Perm s'.tasks

theorem Alike.refl (s : Scene) : s.Alike s := ⟨rfl, rfl, rfl, .refl _⟩

theorem Alike.trans {u : Scene} (h : s.Alike t) (h' : t.Alike u) : s.Alike u :=
  ⟨h'.world.trans h.world, h'.scopes.trans h.scopes, h'.joined.trans h.joined,
    h.tasks.trans h'.tasks⟩

theorem Alike.symm (h : s.Alike t) : t.Alike s :=
  ⟨h.world.symm, h.scopes.symm, h.joined.symm, h.tasks.symm⟩

/-- A task stands in both, among the same others. -/
theorem Alike.split (h : s.Alike s') {l r : List Task} {task : Task}
    (hbefore : s.tasks = l ++ task :: r) :
    ∃ l' r', s'.tasks = l' ++ task :: r' ∧ (l ++ r).Perm (l' ++ r') := by
  have hmember : task ∈ s'.tasks := h.tasks.mem_iff.mp (by simp [hbefore])
  obtain ⟨l', r', hthere⟩ := List.append_of_mem hmember
  refine ⟨l', r', hthere, ?_⟩
  have hboth : (l ++ task :: r).Perm (l' ++ task :: r') := hbefore ▸ hthere ▸ h.tasks
  exact (List.perm_middle.symm.trans (hboth.trans List.perm_middle)).cons_inv

/-- What comes in a task's place may stand anywhere. -/
theorem perm_among {l r l' r' : List Task} (hothers : (l ++ r).Perm (l' ++ r')) (us : List Task) :
    (l ++ us ++ r).Perm (l' ++ us ++ r') := by
  have hfront (a b : List Task) : (a ++ us ++ b).Perm (us ++ (a ++ b)) := by
    rw [← List.append_assoc]
    exact List.perm_append_comm.append_right b
  exact (hfront l r).trans ((hothers.append_left us).trans (hfront l' r').symm)

theorem perm_middle_of {l r l' r' : List Task} (hothers : (l ++ r).Perm (l' ++ r')) (u : Task) :
    (l ++ u :: r).Perm (l' ++ u :: r') := by
  rw [List.append_cons l, List.append_cons l']
  exact perm_among hothers [u]

/-- Whatever may happen next may happen in any order of the tasks. -/
theorem Step.alike (hstep : Step s t) (h : s.Alike s') : ∃ t', Step s' t' ∧ t.Alike t' := by
  obtain ⟨hworld, hscopes, hjoined, htasks⟩ := h
  obtain ⟨w, us, made, done⟩ := s'
  subst hworld hscopes hjoined
  -- The same step is possible with the tasks in another order, wherever its own task stands.
  have h : s.Alike ⟨s.world, us, s.scopes, s.joined⟩ := ⟨rfl, rfl, rfl, htasks⟩
  cases hstep with
  | scope => exact ⟨_, .scope, rfl, rfl, rfl, htasks⟩
  | fire hmade => exact ⟨_, .fire hmade, rfl, rfl, rfl, htasks⟩
  | gate gate => exact ⟨_, .gate gate, rfl, rfl, rfl, htasks⟩
  | elsewhere services => exact ⟨_, .elsewhere services, rfl, rfl, rfl, htasks⟩
  | carry id fuel shut => exact ⟨_, .carry id fuel shut, rfl, rfl, rfl, htasks⟩
  | enter place hmade hfound => exact ⟨_, .enter place hmade hfound, rfl, rfl, rfl, htasks.cons _⟩
  | ask hbefore hfound =>
    obtain ⟨l', r', hthere, hothers⟩ := h.split hbefore
    exact ⟨_, .ask hthere hfound, rfl, rfl, rfl, perm_among hothers _⟩
  | look hbefore hfound =>
    obtain ⟨l', r', hthere, hothers⟩ := h.split hbefore
    exact ⟨_, .look hthere hfound, rfl, rfl, rfl, perm_among hothers _⟩
  | giveUp hbefore =>
    obtain ⟨l', r', hthere, hothers⟩ := h.split hbefore
    exact ⟨_, .giveUp hthere, rfl, rfl, rfl, hothers⟩
  | take hbefore hfound =>
    obtain ⟨l', r', hthere, hothers⟩ := h.split hbefore
    exact ⟨_, .take hthere hfound, rfl, rfl, rfl, perm_among hothers _⟩
  | touch hmember hfound htouched =>
    exact ⟨_, .touch (htasks.mem_iff.mp hmember) hfound htouched, rfl, rfl, rfl, htasks⟩
  | prepare hbefore hfound =>
    obtain ⟨l', r', hthere, hothers⟩ := h.split hbefore
    exact ⟨_, .prepare hthere hfound, rfl, rfl, rfl, perm_middle_of hothers _⟩
  | poll hbefore hfound =>
    obtain ⟨l', r', hthere, hothers⟩ := h.split hbefore
    exact ⟨_, .poll hthere hfound, rfl, rfl, rfl, perm_middle_of hothers _⟩
  | release hbefore hfound =>
    obtain ⟨l', r', hthere, hothers⟩ := h.split hbefore
    exact ⟨_, .release hthere hfound, rfl, rfl, rfl, perm_middle_of hothers _⟩
  | settle hbefore hpast =>
    obtain ⟨l', r', hthere, hothers⟩ := h.split hbefore
    exact ⟨_, .settle hthere hpast, rfl, rfl, rfl, perm_middle_of hothers _⟩
  | enqueue hbefore hfound =>
    obtain ⟨l', r', hthere, hothers⟩ := h.split hbefore
    exact ⟨_, .enqueue hthere hfound, rfl, rfl, rfl, perm_among hothers _⟩
  | announce hbefore =>
    obtain ⟨l', r', hthere, hothers⟩ := h.split hbefore
    exact ⟨_, .announce hthere, rfl, rfl, rfl, hothers⟩
  | close place => exact ⟨_, .close place, rfl, rfl, rfl, htasks⟩
  | fault place => exact ⟨_, .fault place, rfl, rfl, rfl, htasks⟩

/-! ## The numbers of pools -/

/-- Pools keep their numbers. -/
theorem Step.ids (hstep : Step s t) (q : Nat) :
    (t.world.pools[q]?).map Pool.id = (s.world.pools[q]?).map Pool.id := by
  -- A pool is changed in place and keeps its number, or there is none before and after.
  have hkept {w w' : World} (hkeeps : w.Keeps w') :
      (w'.pools[q]?).map Pool.id = (w.pools[q]?).map Pool.id := by
    rcases hkeeps q with ⟨hnone, hnone'⟩ | ⟨p, p', hhere, hhere', hsame⟩
    · rw [hnone, hnone']
    · rw [hhere, hhere', Option.map_some, Option.map_some, hsame.id]
  cases hstep with
  | scope | fire _ | gate _ | elsewhere _ | enter _ _ _ | prepare _ _ | touch _ _ _ => rfl
  | carry id fuel shut =>
    exact hkept (.of_eq (s.world.carryFor_carried (fun _ => fuel) shut id).pools)
  | ask _ hfound => exact hkept (World.ask_keeps hfound)
  | look _ hfound => exact hkept (World.askAgain_keeps hfound)
  | giveUp _ => exact hkept (World.giveUp_keeps _ _)
  | take _ hfound => exact hkept (World.handOut_keeps hfound)
  | poll _ hfound =>
    rcases World.pollWith_looked hfound with ⟨-, -, rfl⟩ | ⟨x, -, hlooked⟩
    · rfl
    · exact hkept hlooked.calm.pools.keeps
  | release _ hfound => exact hkept (.of_eq (World.letGo_pools hfound))
  | settle _ _ => exact hkept (World.count_recounts _ _).keeps
  | @enqueue l r place c returned w htask hfound =>
    rcases World.enqueue_cases hfound with ⟨-, -, rfl⟩ |
      ⟨p, got, p', hhere, hanswer, -, ⟨-, event, rfl⟩ | ⟨-, rfl⟩⟩
    · rfl
    · have hsame : (p'.count Counters.takeBack).id = p.id := (Pool.pushIdle_kept hanswer).1
      exact World.setPool_map (w := s.world.clear c) hhere hsame q
    · exact World.setPool_map (w := s.world.clear c) hhere (Pool.pushIdle_kept hanswer).1 q
  | announce _ => exact hkept (World.announce_keeps _ _)
  | close place => exact hkept (World.close_keeps place)
  | fault place => exact hkept (World.modifyPool_recounts _).keeps

/-- No two pools have the same number. -/
theorem Reachable.apart_ids (h : s.Reachable) {q other : Nat} {p b : Pool}
    (hhere : s.world.pools[q]? = some p) (hthere : s.world.pools[other]? = some b)
    (hsame : b.id = p.id) : other = q := by
  induction h generalizing p b with
  | start hfresh =>
    have hindex := (hfresh.pool hhere).2.2
    have hindex' := (hfresh.pool hthere).2.2
    rw [hsame] at hindex'
    exact Option.some.inj (hindex'.symm.trans hindex)
  -- Numbers stay where they are, so two pools with one number would have had it before.
  | step hbefore hnext ih =>
    have hnumber := hnext.ids q
    have hnumber' := hnext.ids other
    rw [hhere, Option.map_some] at hnumber
    rw [hthere, Option.map_some] at hnumber'
    obtain ⟨p₀, hhere₀, hp⟩ := Option.map_eq_some_iff.mp hnumber.symm
    obtain ⟨b₀, hthere₀, hb⟩ := Option.map_eq_some_iff.mp hnumber'.symm
    exact ih hhere₀ hthere₀ (hb.trans (hsame.trans hp.symm))

end Scene

/-! ## Contexts that go astray -/

/-- A borrow whose context was given to another pool. -/
structure Strayed where
  place : Nat
  scope : ScopeId
  context : ContextId

/-- The borrow as it would stand if nothing had been given away. -/
def Strayed.task (x : Strayed) : Task := .holding x.place x.scope x.context none

/-- A scene, with the borrows whose contexts went astray in the course of it. -/
structure Astray where
  scene : Scene
  lost : List Strayed

namespace Astray

/-- What may happen next where a context may be given to any pool. -/
inductive Step : Astray → Astray → Prop where
  /-- Everything goes on; contexts go back to their own pools. -/
  | goes {s : Astray} {t : Scene} (hnext : s.scene.Step t) : Step s { s with scene := t }
  /-- A context is given to another pool. Whatever the answer, its borrower has it no more. -/
  | misdirects {s : Astray} {l r place scope c other b answer w}
      (htask : s.scene.tasks = l ++ .holding place scope c none :: r) (helsewhere : other ≠ place)
      (hthere : s.scene.world.pools[other]? = some b)
      (hfound : s.scene.world.release other c = (answer, w)) :
      Step s ⟨{ s.scene with world := w, tasks := l ++ r }, ⟨place, scope, c⟩ :: s.lost⟩

/-- Any number of steps. -/
abbrev Steps : Astray → Astray → Prop := Relation.ReflTransGen Step

/-- What can come of a world that nobody has used. -/
inductive Reachable : Astray → Prop where
  | start {w : World} (hfresh : w.Fresh) : Reachable ⟨.ofWorld w, []⟩
  | step {s t : Astray} (hbefore : Reachable s) (hnext : Step s t) : Reachable t

/-- The scene as if every context had stayed with its borrower. -/
def whole (s : Astray) : Scene := s.scene.beside (s.lost.map Strayed.task) []

/-- How many contexts of the pool at a place have gone astray. -/
def gone (s : Astray) (q : Nat) : Nat := s.lost.countP fun x => x.place = q

/-- On how many of them an abandoned call is recorded. -/
def stuck (s : Astray) (q : Nat) : Nat :=
  s.lost.countP fun x => x.place = q ∧ (s.scene.world.inFlight? x.context).isSome

variable {s t u : Astray} {v : Scene} {q other : Nat} {scope : ScopeId} {c : ContextId}
  {p p' b : Pool} {l r : List Task} {lost : List Strayed}

/-- Without mistakes everything is as it was. -/
theorem Reachable.of_scene {s : Scene} (h : s.Reachable) : Reachable ⟨s, []⟩ := by
  induction h with
  | start hfresh => exact .start hfresh
  | step _ hnext ih => exact ih.step (.goes hnext)

theorem whole_tasks {task : Task} (hbefore : s.scene.tasks = l ++ task :: r) :
    s.whole.tasks = l ++ task :: (r ++ s.lost.map Strayed.task) := by
  show s.scene.tasks ++ s.lost.map Strayed.task = _
  rw [hbefore, List.append_assoc, List.cons_append]

/-! ## Counting what went astray -/

theorem out_lost (lost : List Strayed) :
    (tally q (lost.map Strayed.task)).out = lost.countP fun x => x.place = q := by
  show ((lost.map Strayed.task).filterMap (Task.keeps? q)).length = _
  rw [List.length_filterMap_eq_countP, List.countP_map]
  refine List.countP_congr fun x _ => ?_
  by_cases hhere : x.place = q <;>
    simp [Strayed.task, Task.keeps?, Task.place, Task.context?, hhere]

theorem countP_isOut_lost (lost : List Strayed) :
    (lost.map Strayed.task).countP (Task.isOut q) = lost.countP fun x => x.place = q := by
  rw [List.countP_map]
  refine List.countP_congr fun x _ => ?_
  simp [Strayed.task, Task.isOut, Task.place, Task.subject?]

theorem countP_isLeft_lost (lost : List Strayed) (w : World) :
    (lost.map Strayed.task).countP (Task.isLeft q w) =
      lost.countP fun x => x.place = q ∧ (w.inFlight? x.context).isSome := by
  rw [List.countP_map]
  rfl

/-! ## The refusal -/

/-- A pool that has not lent a context refuses it, and nothing changes. -/
theorem release_refused (h : v.Reachable) (halike : s.whole.Alike v)
    (htask : s.scene.tasks = l ++ .holding q scope c none :: r) (helsewhere : other ≠ q)
    (hhere : s.scene.world.pools[q]? = some p) (hthere : s.scene.world.pools[other]? = some b) :
    s.scene.world.release other c =
      (refuse (.internal ("context from pool " ++ toString p.id ++ " released into pool " ++
        toString b.id)), s.scene.world) := by
  have hmember : .holding q scope c none ∈ v.tasks :=
    halike.tasks.mem_iff.mp (by simp [whole_tasks htask])
  have hsame : v.world = s.scene.world := halike.world
  obtain ⟨x, p₀, hknown, hhere₀, hmine⟩ := h.there hmember rfl
  have hhere₀ : v.world.pools[q]? = some p₀ := hhere₀
  obtain rfl : p₀ = p := Option.some.inj (hhere₀.symm.trans (hsame ▸ hhere))
  have hforeign : x.pool ≠ b.id := fun hown =>
    helsewhere (h.apart_ids hhere₀ (hsame ▸ hthere) (hown.symm.trans hmine))
  rw [hsame] at hknown
  unfold World.release
  rw [hthere, hknown]
  dsimp only
  rw [if_pos hforeign, hmine]

/-! ## As if every context had stayed -/

/-- More have gone astray, and more of those that an abandoned call is on. -/
structure Worse (q : Nat) (s t : Astray) : Prop where
  gone : s.gone q ≤ t.gone q
  stuck : s.stuck q ≤ t.stuck q
  lost : s.lost ⊆ t.lost

/-- A step, seen as if every context had stayed with its borrower. -/
theorem Step.standing (hstep : Step s t) (q : Nat) (h : v.Reachable) (halike : s.whole.Alike v) :
    ∃ v', v.Steps v' ∧ t.whole.Alike v' ∧ Worse q s t := by
  have hstands {s : Astray} {v : Scene} (halike : s.whole.Alike v) :
      s.lost.map Strayed.task ⊆ v.tasks := fun task hmember =>
    halike.tasks.mem_iff.mp (List.mem_append_right _ hmember)
  cases hstep with
  | @goes t hnext =>
    -- those who lost their contexts stay where they are, and so do the records on the contexts
    obtain ⟨v', hnext', halike'⟩ := (hnext.beside (s.lost.map Strayed.task) []).alike halike
    have hkept := hnext'.countP_left_kept (q := q) h (hstands halike)
      (hstands (s := { s with scene := t }) halike')
    rw [show v.world = s.scene.world from halike.world,
      show v'.world = t.world from halike'.world, countP_isLeft_lost, countP_isLeft_lost] at hkept
    exact ⟨v', .single hnext', halike', Nat.le_refl _, hkept.ge, fun _ hmember => hmember⟩
  | @misdirects l r place scope c other b answer w htask helsewhere hthere hfound =>
    have hmember : .holding place scope c none ∈ v.tasks :=
      halike.tasks.mem_iff.mp (by simp [whole_tasks htask])
    obtain ⟨-, p, -, hhere, -⟩ := h.there hmember rfl
    have hhere : v.world.pools[place]? = some p := hhere
    rw [show v.world = s.scene.world from halike.world] at hhere
    rw [release_refused h halike htask helsewhere hhere hthere] at hfound
    obtain ⟨-, rfl⟩ := Prod.mk.inj hfound
    have horder : (l ++ r ++ .holding place scope c none :: s.lost.map Strayed.task).Perm
        s.whole.tasks := by
      rw [whole_tasks htask]
      refine List.perm_middle.trans ?_
      rw [List.append_assoc]
      exact List.perm_middle.symm
    have hmore := List.sublist_cons_self (⟨place, scope, c⟩ : Strayed) s.lost
    exact ⟨v, .refl, ⟨halike.world, halike.scopes, halike.joined, horder.trans halike.tasks⟩,
      hmore.countP_le, hmore.countP_le, hmore.subset⟩

/-- A run, seen as if every context had stayed with its borrower. -/
theorem Steps.standing (hrun : Steps s t) (q : Nat) (h : v.Reachable) (halike : s.whole.Alike v) :
    ∃ v', v.Steps v' ∧ t.whole.Alike v' ∧ Worse q s t := by
  induction hrun with
  | refl => exact ⟨v, .refl, halike, Nat.le_refl _, Nat.le_refl _, fun _ hmember => hmember⟩
  | tail _ hnext ih =>
    obtain ⟨v₁, hrun₁, halike₁, hworse⟩ := ih
    obtain ⟨v₂, hrun₂, halike₂, hmore⟩ := hnext.standing q (h.steps hrun₁) halike₁
    exact ⟨v₂, hrun₁.trans hrun₂, halike₂, hworse.gone.trans hmore.gone,
      hworse.stuck.trans hmore.stuck,
      fun _ hmember => hmore.lost (hworse.lost hmember)⟩

theorem Reachable.standing (h : s.Reachable) : ∃ v : Scene, v.Reachable ∧ s.whole.Alike v := by
  induction h with
  | @start w hfresh => exact ⟨.ofWorld w, .start hfresh, .refl _⟩
  | step _ hnext ih =>
    obtain ⟨v, h, halike⟩ := ih
    obtain ⟨v', hrun, halike', -⟩ := hnext.standing 0 h halike
    exact ⟨v', h.steps hrun, halike'⟩

theorem there_of_alike (halike : s.whole.Alike v) (hhere : s.scene.world.pools[q]? = some p) :
    v.world.pools[q]? = some p :=
  (congrArg (fun w : World => w.pools[q]?) halike.world).trans hhere

/-- What a run comes to for a pool, seen as if every context had stayed with its borrower. -/
theorem Reachable.later (h : s.Reachable) (hrun : Steps s u)
    (hhere : s.scene.world.pools[q]? = some p) (hhere' : u.scene.world.pools[q]? = some p') :
    ∃ v : Scene, v.Reachable ∧ u.whole.Alike v ∧ Worse q s u ∧ p'.capacity = p.capacity := by
  obtain ⟨v, hreachable, halike⟩ := h.standing
  obtain ⟨v', hrun', halike', hworse⟩ := hrun.standing q hreachable halike
  exact ⟨v', hreachable.steps hrun', halike', hworse,
    hreachable.capacity hrun' (there_of_alike halike hhere) (there_of_alike halike' hhere')⟩

/-! ## What it costs -/

/-- For the pool at home, what went astray is out. -/
theorem out_whole (halike : s.whole.Alike v) :
    (tally q v.tasks).out = (tally q s.scene.tasks).out + s.gone q := by
  have hsame : tally q v.tasks = tally q s.whole.tasks := tally_perm halike.tasks.symm
  have hsplit : (tally q s.whole.tasks).out =
      (tally q s.scene.tasks).out + (tally q (s.lost.map Strayed.task)).out :=
    Aftermath.out_append s.scene.tasks (s.lost.map Strayed.task)
  rw [hsame, hsplit, out_lost]
  rfl

section standing

variable (h : v.Reachable) (halike : s.whole.Alike v) (hhere : s.scene.world.pools[q]? = some p)
include h halike hhere

/-- Every context of an open pool is idle, with somebody, or astray. -/
theorem shared (hopened : p.closed = false) :
    p.idle.length + (tally q s.scene.tasks).out + s.gone q = p.capacity := by
  have hall := (h.balanced.pool (there_of_alike halike hhere)).whole hopened
  rw [out_whole halike, ← Nat.add_assoc] at hall
  exact hall

/-- No more contexts are idle than have stayed. -/
theorem room : p.idle.length + s.gone q ≤ p.capacity := by
  cases hclosed : p.closed with
  | false =>
    have hall := shared h halike hhere hclosed
    omega
  | true =>
    have hbalanced := h.balanced.pool (there_of_alike halike hhere)
    have hbounded := hbalanced.bounded
    rw [out_whole halike] at hbounded
    -- a pool that is closed has nothing idle
    rw [hbalanced.emptied hclosed, List.length_nil, Nat.zero_add]
    exact (Nat.le_add_left _ _).trans hbounded

/-- The counters count what went astray as well. -/
theorem counted (hsmall : p.capacity < 2 ^ 64) :
    p.counters.borrowed.toNat = s.scene.tasks.countP (Task.isOut q) + s.gone q ∧
      p.counters.settling.toNat =
        s.scene.tasks.countP (Task.isLeft q s.scene.world) + s.stuck q := by
  obtain ⟨hborrowed, hsettling⟩ := h.toNat_counted (there_of_alike halike hhere) hsmall
  have hworld : v.world = s.scene.world := halike.world
  have happend (f : Task → Bool) : v.tasks.countP f =
      s.scene.tasks.countP f + (s.lost.map Strayed.task).countP f := by
    rw [← halike.tasks.countP_eq]
    exact List.countP_append
  rw [happend, countP_isOut_lost] at hborrowed
  rw [happend, hworld, countP_isLeft_lost] at hsettling
  exact ⟨hborrowed, hsettling⟩

/-- What went astray is neither idle nor with anybody. -/
theorem nowhere {x : Strayed} (hmember : x ∈ s.lost) :
    x.context ∉ p.idle ∧ ∀ task ∈ s.scene.tasks, task.context? ≠ some x.context := by
  have hdistinct : (p.idle ++ s.whole.tasks.filterMap Task.context?).Nodup :=
    ((halike.tasks.filterMap Task.context?).append_left p.idle).nodup_iff.mpr
      (h.sound.nodup (there_of_alike halike hhere))
  have hsplit : s.whole.tasks.filterMap Task.context? =
      s.scene.tasks.filterMap Task.context? ++
        (s.lost.map Strayed.task).filterMap Task.context? := List.filterMap_append
  have hmine : x.context ∈ (s.lost.map Strayed.task).filterMap Task.context? :=
    List.mem_filterMap.mpr ⟨x.task, List.mem_map_of_mem hmember, rfl⟩
  rw [hsplit, List.nodup_append, List.nodup_append] at hdistinct
  obtain ⟨-, ⟨-, -, hapart⟩, hidle⟩ := hdistinct
  refine ⟨fun hthere => hidle _ hthere _ (List.mem_append_right _ hmine) rfl, ?_⟩
  intro task hmember hhas
  exact hapart _ (List.mem_filterMap.mpr ⟨task, hmember, hhas⟩) _ hmine rfl

end standing

/-- Let somebody who has a context of the pool at one place, and executes nothing on it, give it to
the pool at another place. Its own pool would take it. The other one refuses and names both pools,
and no pool changes. From then on, whatever anybody does, the context is neither idle nor lent:
what is idle and lent at an open pool adds up to the capacity less all that went astray, this one
among them, and so no more can be available, nor lent at one time. The counters keep looking
balanced, for the pool counts what went astray as lent; an abandoned call that was recorded on the
context is counted as settling for good, whether or not it ends. -/
theorem Reachable.refused_context_lost (h : s.Reachable)
    (htask : s.scene.tasks = l ++ .holding q scope c none :: r) (helsewhere : other ≠ q)
    (hhere : s.scene.world.pools[q]? = some p) (hthere : s.scene.world.pools[other]? = some b)
    (hsmall : p.capacity < 2 ^ 64) :
    (s.scene.world.release q c).1 = .ok () ∧
    s.scene.world.release other c =
      (refuse (.internal ("context from pool " ++ toString p.id ++ " released into pool " ++
        toString b.id)), s.scene.world) ∧
    ∃ t, s.Step t ∧ t.scene = { s.scene with tasks := l ++ r } ∧ t.gone q = s.gone q + 1 ∧
      ∀ {u p'}, t.Steps u → u.scene.world.pools[q]? = some p' →
        (c ∉ p'.idle ∧ ∀ task ∈ u.scene.tasks, task.context? ≠ some c) ∧
        t.gone q ≤ u.gone q ∧
        (p'.closed = false →
          p'.metrics.available + (tally q u.scene.tasks).out + u.gone q = p.capacity) ∧
        p'.metrics.available + u.gone q ≤ p.capacity ∧
        p'.metrics.counters.borrowed.toNat =
          u.scene.tasks.countP (Task.isOut q) + u.gone q ∧
        (p'.closed = false → u.scene.NonePutBack q → p'.metrics.accounted = p.capacity) ∧
        p'.metrics.counters.settling.toNat =
          u.scene.tasks.countP (Task.isLeft q u.scene.world) + u.stuck q ∧
        ((s.scene.world.inFlight? c).isSome → 0 < u.stuck q) := by
  obtain ⟨v, hreachable, halike⟩ := h.standing
  -- The world is that of a scene in which the lost borrows are still held.
  have hrefused := release_refused hreachable halike htask helsewhere hhere hthere
  have hmember : .holding q scope c none ∈ v.tasks :=
    halike.tasks.mem_iff.mp (by simp [whole_tasks htask])
  have htaken := hreachable.release_ok hmember
  rw [show v.world = s.scene.world from halike.world] at htaken
  have hstep : s.Step ⟨{ s.scene with tasks := l ++ r }, ⟨q, scope, c⟩ :: s.lost⟩ :=
    .misdirects htask helsewhere hthere hrefused
  refine ⟨htaken, hrefused, _, hstep, rfl, by simp [gone], fun {u p'} hrun hhere' => ?_⟩
  obtain ⟨v', hlater, halike', hworse, hcapacity⟩ := (h.step hstep).later hrun hhere hhere'
  have hshared := shared hlater halike' hhere'
  have hroom := room hlater halike' hhere'
  obtain ⟨hborrowed, hsettling⟩ := counted hlater halike' hhere' (hcapacity ▸ hsmall)
  rw [hcapacity] at hshared hroom
  refine ⟨nowhere hlater halike' hhere' (hworse.lost (.head _)), hworse.gone, hshared, hroom,
    hborrowed, fun hopened hquiet => ?_, hsettling, fun hrecorded => ?_⟩
  -- None of the tasks is on its way back, so what is counted is what is out.
  · have hdue := hquiet.due
    have hout := Scene.countP_isOut q u.scene.tasks
    have hall := hshared hopened
    show p'.idle.length + p'.counters.borrowed.toNat = p.capacity
    simp only [tally] at hall
    omega
  · refine Nat.lt_of_lt_of_le ?_ hworse.stuck
    exact List.countP_pos_iff.mpr ⟨_, .head _, decide_eq_true ⟨rfl, hrecorded⟩⟩

/-! ## Two pools -/

end Astray

/-- A world with two pools, and in each of them one context with a guest. -/
def World.ofTwoPools (guest : GuestInstance) (services : Services) : World :=
  ({ ofEngine (.scripts []) services with nextPool := 3, nextScope := 1 }.withPool 1
    [⟨1, 0, [], .ofMillis 30000, guest, .empty, 0, none⟩]).withPool 2
      [⟨2, 0, [], .ofMillis 30000, guest, .empty, 0, none⟩]

theorem World.ofTwoPools_fresh (guest : GuestInstance) (services : Services) :
    (World.ofTwoPools guest services).Fresh := by
  have hbuilt (pool : Nat) : ∀ x ∈ [(⟨pool, 0, [], .ofMillis 30000, guest, .empty, 0, none⟩ :
      Context)], x.Built pool 1 True := by
    intro x hmember
    rw [List.mem_singleton.mp hmember]
    exact ⟨rfl, rfl, Nat.one_pos, fun _ => rfl⟩
  have hempty : Unused { ofEngine (.scripts []) services with nextPool := 3, nextScope := 1 } :=
    (ofEngine_unused (.scripts []) services).renew services .empty
      (show 1 ≤ 3 by decide) (show 0 ≤ 1 by decide)
  have hone := hempty.withPool (hbuilt 1) (fun hhere => by cases hhere) (show 1 < 3 by decide)
  have htwo := hone.withPool (hbuilt 2) (fun {q p} hhere => by
      obtain ⟨hinside, rfl⟩ := Array.getElem?_eq_some_iff.mp hhere
      obtain rfl : q = 0 := Nat.lt_one_iff.mp hinside
      show 1 < 2
      decide) (show 2 < 3 by decide)
  exact htwo.fresh

namespace Astray

/-- One caller has the context of the first of two pools, and has left a call behind on it. -/
theorem one_left_behind : ∃ (s : Scene) (p b : Pool), s.Reachable ∧
    s.tasks = [.holding 0 1 0 none] ∧ s.world.inFlight? 0 = some 0 ∧
      s.world.pools[0]? = some p ∧ p.capacity = 1 ∧ s.world.pools[1]? = some b := by
  let guest : GuestInstance := .script ⟨"guest", none, [], [("run", [])]⟩ none .empty
  have hexported : guest.function "run" = .ok () := by
    simp [guest, GuestInstance.function, GuestInstance.hasFunction]
  have hstarts : guest.start "run" [] = .ok (.script ⟨[], [], [], .empty⟩ (some (.ofPages 0))) := by
    simp [guest, GuestInstance.start]
  have hstart := Scene.Reachable.start (World.ofTwoPools_fresh guest default)
  have hmade := hstart.step .scope
  have hasked := (hmade.step (.enter 0 (List.mem_singleton_self 1) rfl)).step
    (.ask (l := []) (r := []) rfl rfl)
  have htaken := hasked.step (.take (l := []) (r := []) rfl rfl)
  -- A call is abandoned, so that the context is released with a record.
  have hbegun := htaken.begin (l := []) rfl rfl rfl rfl hexported hstarts
  have hfired := hbegun.step (.fire (List.mem_singleton_self 1))
  obtain ⟨t, hnext, htasks, ⟨f, hpools⟩, -, -, -, -, hthere⟩ :=
    hfired.loseCall (l := []) rfl rfl rfl rfl rfl
  exact ⟨t, _, _, hfired.step hnext, htasks, World.inFlight?_eq hthere, hpools 0, rfl, hpools 1⟩

/-- The only context of a pool is given to another one with a call on it: nobody gets it any more,
and the call is counted as settling for good. -/
theorem refused_context_lost_left_behind : ∃ (s t : Astray) (p b : Pool), s.Reachable ∧
    s.scene.tasks = [.holding 0 1 0 none] ∧ s.scene.world.pools[0]? = some p ∧ p.capacity = 1 ∧
      s.scene.world.pools[1]? = some b ∧ s.Step t ∧ t.scene.tasks = [] ∧
        ∀ {u p'}, t.Steps u → u.scene.world.pools[0]? = some p' →
          p'.metrics.available = 0 ∧ 0 < p'.metrics.counters.settling.toNat := by
  obtain ⟨s, p, b, h, htasks, hrecorded, hhere, hone, hthere⟩ := one_left_behind
  obtain ⟨-, -, t, hstep, hscene, hgone, hrest⟩ :=
    (Reachable.of_scene h).refused_context_lost (l := []) htasks
    (Nat.one_ne_zero) hhere hthere (by rw [hone]; decide)
  refine ⟨⟨s, []⟩, t, p, b, .of_scene h, htasks, hhere, hone, hthere, hstep, ?_, ?_⟩
  · rw [hscene]
    rfl
  · intro u p' hrun hhere'
    obtain ⟨-, hmore, -, hroom, -, -, hsettling, hstuck⟩ := hrest hrun hhere'
    have hlost := hstuck (by rw [hrecorded]; rfl)
    omega

/-- A misdirected release does cost the slot: once the context was given to the other pool, which
refuses it, the pool that lent it is never full again, and a call settles for ever. -/
theorem slot_lost : ∃ (s t : Astray) (p : Pool), s.Reachable ∧ s.Step t ∧
    s.scene.tasks = [.holding 0 1 0 none] ∧ (s.scene.world.release 1 0).1 ≠ .ok () ∧
      t.scene.world = s.scene.world ∧ s.scene.world.pools[0]? = some p ∧ p.capacity = 1 ∧
        ∀ u p', t.Steps u → u.scene.world.pools[0]? = some p' →
          p'.metrics.available ≠ p'.metrics.capacity ∧
            p'.metrics.counters.settling.toNat ≠ 0 := by
  obtain ⟨s, p, b, h, htasks, hrecorded, hhere, hone, hthere⟩ := one_left_behind
  have hstart := Reachable.of_scene h
  obtain ⟨v, hreachable, halike⟩ := hstart.standing
  have hrefused := release_refused (l := []) (r := []) hreachable halike htasks
    Nat.one_ne_zero hhere hthere
  have hstep : Step ⟨s, []⟩ ⟨{ s with tasks := [] }, [⟨0, 1, 0⟩]⟩ :=
    .misdirects (l := []) (r := []) htasks Nat.one_ne_zero hthere hrefused
  refine ⟨⟨s, []⟩, _, p, hstart, hstep, htasks, ?_, rfl, hhere, hone, fun u p' hrun hhere' => ?_⟩
  · rw [hrefused]
    exact nofun
  · obtain ⟨v', hlater, halike', hworse, hcapacity⟩ := (hstart.step hstep).later hrun hhere hhere'
    have hroom := room hlater halike' hhere'
    have hgone : 1 ≤ u.gone 0 := hworse.gone
    obtain ⟨-, hsettling⟩ := counted hlater halike' hhere' (by rw [hcapacity, hone]; decide)
    have hstuck : 0 < u.stuck 0 := by
      refine Nat.lt_of_lt_of_le ?_ hworse.stuck
      exact List.countP_pos_iff.mpr ⟨_, .head _, decide_eq_true ⟨rfl, by rw [hrecorded]; rfl⟩⟩
    constructor
    · show p'.idle.length ≠ p'.capacity
      omega
    · show p'.counters.settling.toNat ≠ 0
      omega

end Astray
end SandboxPool
