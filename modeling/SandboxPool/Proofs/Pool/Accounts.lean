import SandboxPool.Proofs.Pool.Abandonment
import SandboxPool.Proofs.Pool.Counting

/-!
# Pools keep their accounts

A pool counts how many of its contexts are lent or on their way back, and how many abandoned calls
nobody has joined. Both numbers can be read off the tasks of a scene, and every step changes the
tasks and the counters alike, by one at most (`Scene.Step.tallied`). So the counters tell the
truth in every reachable scene, and none of them is ever counted down from zero
(`Scene.Reachable.accounts_kept`).
-/

namespace SandboxPool

namespace Task

/-- The task has to do with a context of the pool at a place, and the context is counted. -/
def isOut (q : Nat) (t : Task) : Bool := t.place = q ∧ t.subject?.isSome

/-- The task has to do with an abandoned call on a context of the pool at a place. -/
def isLeft (q : Nat) (w : World) (t : Task) : Bool := t.place = q ∧ (t.left? w).isSome

variable {w w' : World} {t : Task} {q : Nat}

/-- What was left on a task's context depends on that context only. -/
theorem left?_congr (hsame : ∀ c, t.context? = some c → w'.inFlight? c = w.inFlight? c) :
    t.left? w' = t.left? w := by
  cases t with
  | holding place scope c execution => exact hsame c rfl
  | _ => rfl

theorem left?_of_same (hsame : w'.inFlight? = w.inFlight?) (t : Task) : t.left? w' = t.left? w :=
  left?_congr fun c _ => congrFun hsame c

/-- Where one task writes on its own context, the others find their records as they were. -/
theorem left?_of_others {l r : List Task} {c : ContextId}
    (hothers : ∀ u ∈ l ++ r, u.context? ≠ some c)
    (hsame : ∀ d, d ≠ c → w'.inFlight? d = w.inFlight? d) :
    ∀ u ∈ l ++ r, u.left? w' = u.left? w := by
  refine fun u hmember => left?_congr fun d hhas => hsame d ?_
  rintro rfl
  exact hothers u hmember hhas

theorem isLeft_of_same (hsame : w'.inFlight? = w.inFlight?) : isLeft q w' = isLeft q w := by
  funext t
  unfold isLeft
  rw [left?_of_same hsame]

/-- Whoever has to do with an abandoned call has its context. -/
theorem isOut_of_isLeft (h : t.isLeft q w) : t.isOut q := by
  obtain ⟨hhere, hleft⟩ := of_decide_eq_true h
  refine decide_eq_true ⟨hhere, ?_⟩
  cases t with
  | holding | settling => rfl
  | _ => cases hleft

end Task

/-! ## Numbers and counters -/

/-- A counter stays, or goes to the next number or to the one before; it does not go round. -/
def Counter.Beside (k k' : Counter) : Prop :=
  k' = k ∨ k'.toNat = k.toNat + 1 ∨ k.toNat = k'.toNat + 1

/-- A number and the counter that stands for it change alike, by one at most; they grow only where
there is room. -/
inductive Moved (room : Prop) (n : Nat) (k : Counter) : Nat → Counter → Prop where
  | stays : Moved room n k n k
  | up (hfound : room) : Moved room n k (n + 1) (k + 1)
  | down {m} (hone : n = m + 1) : Moved room n k m (k - 1)

namespace Moved

variable {room : Prop} {n n' m : Nat} {k k' : Counter}

theorem add (h : Moved room n k n' k') (m : Nat) : Moved room (n + m) k (n' + m) k' := by
  cases h with
  | stays => exact .stays
  | up hfound =>
    rw [Nat.add_right_comm]
    exact .up hfound
  | down hone => exact .down (by omega)

theorem idle (hnone : n = 0) (hnone' : n' = 0) : Moved room n k n' k := by
  subst hnone hnone'
  exact .stays

/-- A counter that stands for a number goes on doing so. -/
theorem counts (h : Moved room n k n' k') (hbefore : k = UInt64.ofNat n) :
    k' = UInt64.ofNat n' := by
  subst hbefore
  cases h with
  | stays => rfl
  | up => exact (UInt64.ofNat_add n 1).symm
  | down hone =>
    subst hone
    rw [UInt64.ofNat_add]
    exact UInt64.add_sub_cancel _ _

theorem beside (h : Moved room n k n' k') (hbefore : k.toNat = n) (hafter : k'.toNat = n') :
    Counter.Beside k k' := by
  cases h with
  | stays => exact .inl rfl
  | up => exact .inr (.inl (by rw [hafter, hbefore]))
  | down hone => exact .inr (.inr (by rw [hafter, hbefore, hone]))

/-- Without room nothing grows. -/
theorem le (h : Moved room n k n' k') (hnone : ¬ room) : n' ≤ n := by
  cases h with
  | stays => exact Nat.le_refl n
  | up hfound => exact absurd hfound hnone
  | down hone => omega

end Moved

/-! ## Tasks and accounts change alike -/

/-- How tasks, and the account of the pool at a place, change together. -/
structure Tallied (q : Nat) (w w' : World) (tasks tasks' : List Task) (a a' : Account) :
    Prop where
  capacity : a'.capacity = a.capacity
  borrowed : Moved (w'.isOpen q) (tasks.countP (Task.isOut q)) a.borrowed
    (tasks'.countP (Task.isOut q)) a'.borrowed
  settling : Moved True (tasks.countP (Task.isLeft q w)) a.settling
    (tasks'.countP (Task.isLeft q w')) a'.settling

namespace Tallied

variable {q : Nat} {w w' : World} {tasks tasks' l r us : List Task} {task : Task}
  {a a' : Account}

/-- Where nothing that is counted changes. -/
theorem kept (hrecords : w'.inFlight? = w.inFlight?)
    (hout : tasks'.countP (Task.isOut q) = tasks.countP (Task.isOut q))
    (hleft : tasks'.countP (Task.isLeft q w) = tasks.countP (Task.isLeft q w)) :
    Tallied q w w' tasks tasks' a a := by
  refine ⟨rfl, ?_, ?_⟩
  · rw [hout]
    exact .stays
  · rw [Task.isLeft_of_same hrecords, hleft]
    exact .stays

/-- Where tasks stay and no record changes. -/
theorem same (hrecords : w'.inFlight? = w.inFlight?) : Tallied q w w' tasks tasks a a :=
  .kept hrecords rfl rfl

/-- Where one task moves, it alone matters: the others count as before. -/
theorem among (hbefore : tasks = l ++ task :: r) (hnext : tasks' = l ++ us ++ r)
    (hrecords : ∀ u ∈ l ++ r, u.left? w' = u.left? w) (h : Tallied q w w' [task] us a a') :
    Tallied q w w' tasks tasks' a a' := by
  have haround (f : Task → Bool) (us : List Task) :
      (l ++ us ++ r).countP f = us.countP f + (l ++ r).countP f := by
    simp only [List.countP_append]
    omega
  have hrest : (l ++ r).countP (Task.isLeft q w') = (l ++ r).countP (Task.isLeft q w) := by
    refine List.countP_congr fun u hmember => ?_
    unfold Task.isLeft
    rw [hrecords u hmember]
  rw [List.append_cons] at hbefore
  subst hbefore hnext
  refine ⟨h.capacity, ?_, ?_⟩
  · rw [haround, haround]
    exact h.borrowed.add _
  · rw [haround, haround, hrest]
    exact h.settling.add _

/-- Where one task moves, and the account of its pool with it. -/
theorem turn {f : Account → Account} (hbefore : tasks = l ++ task :: r)
    (hnext : tasks' = l ++ us ++ r) (haccount : w'.account? = w.booked task.place f)
    (hafter : w'.account? q = some a') (hrecords : ∀ u ∈ l ++ r, u.left? w' = u.left? w)
    (hfollows : ∀ u ∈ us, u.place = task.place) (hcapacity : ∀ a, (f a).capacity = a.capacity)
    (hborrowed : ∀ a : Account, Moved (w'.isOpen task.place)
      ([task].countP fun u => u.subject?.isSome) a.borrowed
      (us.countP fun u => u.subject?.isSome) (f a).borrowed)
    (hsettling : ∀ a : Account, Moved True ([task].countP fun u => (u.left? w).isSome) a.settling
      (us.countP fun u => (u.left? w').isSome) (f a).settling) :
    ∃ a, w.account? q = some a ∧ Tallied q w w' tasks tasks' a a' := by
  rw [haccount] at hafter
  have hmine : ∀ u ∈ [task], u.place = task.place := by simp
  -- at its own place the task is counted by what it has to do with, elsewhere not at all
  have hhere {us : List Task} {g : Task → Bool} (hall : ∀ u ∈ us, u.place = task.place) :
      us.countP (fun u => u.place = task.place ∧ g u) = us.countP g :=
    List.countP_congr fun u hmember => by simp [hall u hmember]
  have haway {us : List Task} {g : Task → Bool} (hall : ∀ u ∈ us, u.place = task.place)
      (hother : q ≠ task.place) : us.countP (fun u => u.place = q ∧ g u) = 0 :=
    List.countP_eq_zero.mpr fun u hmember => by simp [hall u hmember, Ne.symm hother]
  obtain ⟨a, hearlier, ⟨rfl, rfl⟩ | ⟨hother, rfl⟩⟩ := World.booked_eq_some hafter
  · refine ⟨a, hearlier, .among hbefore hnext hrecords ⟨hcapacity a, ?_, ?_⟩⟩
    · have hmoved := hborrowed a
      rw [← hhere hmine, ← hhere hfollows] at hmoved
      exact hmoved
    · have hmoved := hsettling a
      rw [← hhere hmine, ← hhere hfollows] at hmoved
      exact hmoved
  · refine ⟨a', hearlier, .among hbefore hnext hrecords ⟨rfl, ?_, ?_⟩⟩
    · exact .idle (haway hmine hother) (haway hfollows hother)
    · exact .idle (haway hmine hother) (haway hfollows hother)

/-- Where one task moves and nothing that is counted changes. -/
theorem quiet (hbefore : tasks = l ++ task :: r) (hnext : tasks' = l ++ us ++ r)
    (haccount : w'.account? = w.account?) (hafter : w'.account? q = some a')
    (hrecords : ∀ u ∈ l ++ r, u.left? w' = u.left? w) (hfollows : ∀ u ∈ us, u.place = task.place)
    (hout : (us.countP fun u => u.subject?.isSome) = [task].countP fun u => u.subject?.isSome)
    (hleft : (us.countP fun u => (u.left? w').isSome) =
      [task].countP fun u => (u.left? w).isSome) :
    ∃ a, w.account? q = some a ∧ Tallied q w w' tasks tasks' a a' := by
  refine turn (f := id) hbefore hnext (by rw [haccount, World.booked_id]) hafter hrecords hfollows
    (fun _ => rfl) (fun a => ?_) fun a => ?_
  · rw [hout]
    exact .stays
  · rw [hleft]
    exact .stays

end Tallied

namespace Scene

variable {s t : Scene} {q place : Nat} {scope : ScopeId} {c : ContextId} {a' : Account}

/-- A context is handed out by an open pool, which stays open. -/
theorem Reachable.handOut_open (h : s.Reachable) {w : World}
    (hfound : s.world.handOut place scope = (.ok c, w)) : w.isOpen place := by
  rcases World.handOut_cases hfound with
    ⟨-, hrefused, -⟩ | ⟨p, p', hhere, hanswer, ⟨e, hrefused, -⟩ | ⟨d, event, -, rfl⟩⟩
  · cases hrefused
  · cases hrefused
  · -- a closed pool has no context that could be handed out
    have hopened : p.closed = false := by
      cases hclosed : p.closed with
      | false => rfl
      | true =>
        have hqueue := Pool.takeIdle_idle hanswer
        rw [(h.balanced.pool hhere).emptied hclosed] at hqueue
        cases hqueue
    have hset : (s.world.setPool place (p'.count Counters.lend)).pools[place]? =
        some (p'.count Counters.lend) := World.setPool_get hhere
    show ((s.world.setPool place (p'.count Counters.lend)).pools[place]?).any _ = true
    have hsame : p'.closed = p.closed := Pool.takeIdle_closed hanswer
    rw [hset]
    simp [Pool.count, hsame, hopened]

/-- Every step changes the tasks and the accounts alike. -/
theorem Step.tallied (hstep : Step s t) (h : s.Reachable)
    (hafter : t.world.account? q = some a') :
    ∃ a, s.world.account? q = some a ∧ Tallied q s.world t.world s.tasks t.tasks a a' := by
  have hkept (haccount : t.world.account? = s.world.account?)
      (htallied : Tallied q s.world t.world s.tasks t.tasks a' a') :
      ∃ a, s.world.account? q = some a ∧ Tallied q s.world t.world s.tasks t.tasks a a' :=
    ⟨a', by rw [← haccount, hafter], htallied⟩
  cases hstep with
  | scope | fire _ | gate _ | elsewhere _ => exact hkept rfl (.same rfl)
  | carry id fuel shut =>
    have hcarried := s.world.carryFor_carried (fun _ => fuel) shut id
    exact hkept (World.account?_of_pools hcarried.pools)
      (.same (World.inFlight?_of_same hcarried.outline))
  | enter place _ _ =>
    refine hkept rfl (.kept rfl ?_ ?_)
    · exact List.countP_cons_of_neg (by simp [Task.isOut, Task.subject?])
    · exact List.countP_cons_of_neg (by simp [Task.isLeft, Task.left?])
  | @ask l r place scope asked w htask hfound =>
    have hrecords := World.inFlight?_of_same (World.ask_steady hfound).outline
    refine Tallied.quiet htask rfl (World.ask_account hfound) hafter
      (fun u _ => Task.left?_of_same hrecords u) ?_ ?_ ?_
    · cases asked <;> simp [Task.ofAsked, Task.place]
    · cases asked <;> rfl
    · cases asked <;> rfl
  | @look l r place scope v asked w htask hfound =>
    have hrecords := World.inFlight?_of_same (World.askAgain_steady hfound).outline
    refine Tallied.quiet htask rfl (World.askAgain_account hfound) hafter
      (fun u _ => Task.left?_of_same hrecords u) ?_ ?_ ?_
    · cases asked <;> simp [Task.ofAsked, Task.place]
    · cases asked <;> rfl
    · cases asked <;> rfl
  | @giveUp l r place scope v htask =>
    have hnext : l ++ r = l ++ [] ++ r := by rw [List.append_nil]
    exact Tallied.quiet htask hnext (World.giveUp_account place v) hafter (fun _ _ => rfl)
      (List.forall_mem_nil _) rfl rfl
  | @take l r place scope taken w htask hfound =>
    have houtline := World.handOut_outline hfound
    cases taken with
    | error e =>
      have hrecords := World.inFlight?_of_same houtline
      exact Tallied.quiet htask rfl (World.handOut_account_refused hfound) hafter
        (fun u _ => Task.left?_of_same hrecords u) (List.forall_mem_nil _) rfl rfl
    | ok c =>
      have hrecords : w.inFlight? = s.world.inFlight? :=
        World.inFlight?_of_kept houtline (by intro o; rfl)
      have hopened := h.handOut_open hfound
      have hclean : w.inFlight? c = none := by
        obtain ⟨p, hhere, hidle⟩ := World.handOut_idle hfound
        rw [hrecords, h.free_record (h.idle_free hhere hidle)]
      have hleft : (Task.holding place scope c none).left? w = none := hclean
      refine Tallied.turn htask rfl (World.handOut_account hfound) hafter
        (fun u _ => Task.left?_of_same hrecords u) (by simp [Task.ofTaken, Task.place])
        (fun _ => rfl) (fun _ => .up hopened) fun _ => ?_
      refine .idle rfl ?_
      simp [Task.ofTaken, hleft]
  | touch _ hfound htouched =>
    exact hkept rfl (.same (World.inFlight?_of_same (World.touch_outline hfound htouched)))
  | @prepare l r place scope c function args e htask hfound =>
    exact Tallied.quiet htask (List.append_cons ..) rfl hafter (fun _ _ => rfl)
      (by simp [Task.place]) rfl rfl
  | @poll l r place scope c e late polled w htask hfound =>
    have hmember : .holding place scope c (some e) ∈ s.tasks := by simp [htask]
    obtain ⟨rfl, x, hhere, hfits, hlooked⟩ := h.orderly.looked hmember hfound
    have hhome := h.housed (.of_task hmember rfl)
    have hrecords := Task.left?_of_others (h.others htask rfl) fun d => hlooked.inFlight?_other
    have hnext : l ++ Task.holding place scope e.context polled.rest :: r = l ++ [_] ++ r :=
      List.append_cons ..
    cases World.pollWith_booked hhome hhere hfits hfound with
    | nothing haccount hrecord =>
      refine Tallied.quiet htask hnext haccount hafter hrecords (by simp [Task.place]) rfl ?_
      simp [Task.left?, hrecord]
    | joins haccount hbefore hbehind =>
      refine Tallied.turn (f := .settle) htask hnext haccount hafter hrecords (by simp [Task.place])
        (fun _ => rfl) (fun _ => .stays) fun _ => ?_
      simp only [List.countP_singleton, Task.left?, hbefore, hbehind]
      exact .down rfl
    | records haccount hbefore hbehind =>
      refine Tallied.turn (f := .abandon) htask hnext haccount hafter hrecords
        (by simp [Task.place])
        (fun _ => rfl) (fun _ => .stays) fun _ => ?_
      simp only [List.countP_singleton, Task.left?, hbefore, hbehind]
      exact .up trivial
  | @release l r place scope c record w htask hfound =>
    have houtline := World.letGo_outline hfound
    have hrecords := Task.left?_of_others (h.others htask rfl) fun d =>
      World.inFlight?_of_marked houtline
    refine Tallied.quiet htask (List.append_cons ..)
      (World.account?_of_pools (World.letGo_pools hfound)) hafter hrecords ?_ ?_ ?_
    · cases record <;> simp [Task.ofLetGo, Task.place]
    · cases record <;> rfl
    · -- the record goes along with the task
      have hhanded : (Task.holding place scope c none).left? s.world = record :=
        (World.letGo_record hfound).symm
      simp only [List.countP_singleton, hhanded]
      cases record <;> rfl
  | @settle l r place scope c call htask hpast =>
    have hhome := h.housed (.of_task (t := .settling place scope c call) (by simp [htask]) rfl)
    have hsteady := World.count_steady (w := s.world) c Counters.settle
    have hrecords := World.inFlight?_of_same hsteady.outline
    exact Tallied.turn (f := .settle) htask (List.append_cons ..)
      (World.count_account hhome fun _ => rfl) hafter (fun u _ => Task.left?_of_same hrecords u)
      (by simp [Task.place]) (fun _ => rfl) (fun _ => .stays) fun _ => .down rfl
  | @enqueue l r place c returned w htask hfound =>
    have hmember : .returning place c ∈ s.tasks := by simp [htask]
    obtain ⟨x, p, -, hhere, -⟩ := h.there hmember rfl
    have hhere : s.world.pools[place]? = some p := hhere
    have hanswer := h.enqueue_answer hhere hmember
    rw [hfound] at hanswer
    have hanswer : returned = some (if p.closed then .disposed else .queued) := hanswer
    have haccount := World.enqueue_account hfound
    have hrecords : w.inFlight? = s.world.inFlight? :=
      World.inFlight?_of_kept (World.enqueue_outline hfound) (by intro o; rfl)
    cases hclosed : p.closed with
    | true =>
      rw [hclosed, if_pos rfl] at hanswer
      subst hanswer
      exact Tallied.turn (f := .takeBack) htask rfl haccount hafter
        (fun u _ => Task.left?_of_same hrecords u) (List.forall_mem_nil _) (fun _ => rfl)
        (fun _ => .down rfl)
        fun _ => .stays
    | false =>
      rw [hclosed, if_neg Bool.false_ne_true] at hanswer
      subst hanswer
      exact Tallied.quiet htask rfl haccount hafter (fun u _ => Task.left?_of_same hrecords u)
        (by simp [Task.ofReturned, Task.place]) rfl rfl
  | @announce l r place c htask =>
    have hmember : .queued place c ∈ s.tasks := by simp [htask]
    obtain ⟨x, p, hthere, hhere, -⟩ := h.there hmember rfl
    have hnext : l ++ r = l ++ [] ++ r := by rw [List.append_nil]
    have hsteady := World.announce_steady (w := s.world) place c
    have hrecords := World.inFlight?_of_same hsteady.outline
    exact Tallied.turn htask hnext (World.announce_account hhere hthere) hafter
      (fun u _ => Task.left?_of_same hrecords u) (List.forall_mem_nil _) (fun _ => rfl)
      (fun _ => .down rfl)
      fun _ => .stays
  | close place =>
    exact hkept (World.close_account place)
      (.same (World.inFlight?_of_same (World.close_steady place).outline))
  | fault place => exact hkept (World.modifyPool_account_kept fun _ => rfl) (.same rfl)

theorem Step.pool_tallied (hstep : Step s t) (h : s.Reachable) {p' : Pool}
    (hhere' : t.world.pools[q]? = some p') :
    ∃ p, s.world.pools[q]? = some p ∧
      Tallied q s.world t.world s.tasks t.tasks p.account p'.account := by
  obtain ⟨a, hearlier, htallied⟩ := hstep.tallied h (World.account?_eq hhere')
  obtain ⟨p, hhere, rfl⟩ := Option.map_eq_some_iff.mp hearlier
  exact ⟨p, hhere, htallied⟩

/-! ## Counters tell the truth -/

/-- The contexts that are counted are out of the queue, or in it with their permits still due. -/
theorem countP_isOut (q : Nat) (tasks : List Task) :
    tasks.countP (Task.isOut q) =
      (tasks.filterMap (Task.keeps? q)).length + tasks.countP (Task.isDue q) := by
  rw [List.length_filterMap_eq_countP]
  induction tasks with
  | nil => rfl
  | cons t rest ih =>
    have hone : (if t.isOut q then 1 else 0) =
        (if (t.keeps? q).isSome then 1 else 0) + if t.isDue q then 1 else 0 := by
      by_cases hhere : t.place = q <;> cases t <;> simp only [Task.place] at hhere <;>
        simp [Task.isOut, Task.keeps?, Task.isDue, Task.subject?, Task.context?, Task.place, hhere]
    simp only [List.countP_cons, ih, hone]
    omega

/-- No more contexts are counted than there are, even while a pool is being closed. -/
theorem Reachable.out_le (h : s.Reachable) {p : Pool} (hhere : s.world.pools[q]? = some p) :
    s.tasks.countP (Task.isOut q) ≤ p.capacity := by
  induction h generalizing p with
  | start _ => exact Nat.zero_le _
  | @step s t hbefore hnext ih =>
    cases hclosed : p.closed with
    | false =>
      have hbalanced := (hbefore.step hnext).balanced.pool hhere
      have hwhole := hbalanced.whole hclosed
      have hbalance := hbalanced.balance hclosed
      rw [countP_isOut]
      simp only [tally] at hwhole hbalance
      omega
    | true =>
      obtain ⟨p₀, hhere₀, htallied⟩ := hnext.pool_tallied hbefore hhere
      -- a pool that is closed lends no more
      have hshut : ¬ t.world.isOpen q := by
        unfold World.isOpen
        rw [hhere]
        simp [hclosed]
      have hsame : p.capacity = p₀.capacity := htallied.capacity
      calc t.tasks.countP (Task.isOut q) ≤ s.tasks.countP (Task.isOut q) :=
        htallied.borrowed.le hshut
        _ ≤ p₀.capacity := ih hhere₀
        _ = p.capacity := hsame.symm

/-- Every counter is the number it stands for, up to going round. -/
theorem Reachable.counted (h : s.Reachable) {p : Pool} (hhere : s.world.pools[q]? = some p) :
    p.counters.borrowed = UInt64.ofNat (s.tasks.countP (Task.isOut q)) ∧
      p.counters.settling = UInt64.ofNat (s.tasks.countP (Task.isLeft q s.world)) := by
  induction h generalizing p with
  | start hfresh =>
    obtain ⟨hnew, -⟩ := hfresh.pool hhere
    rw [hnew]
    exact ⟨rfl, rfl⟩
  | step hbefore hnext ih =>
    obtain ⟨p₀, hhere₀, htallied⟩ := hnext.pool_tallied hbefore hhere
    obtain ⟨hborrowed, hsettling⟩ := ih hhere₀
    exact ⟨htallied.borrowed.counts hborrowed, htallied.settling.counts hsettling⟩

/-- Tasks with contexts are as many as the contexts they have. -/
theorem Reachable.encard_contexts (h : s.Reachable) {f : Task → Bool}
    (hhas : ∀ t ∈ s.tasks, f t → t.context?.isSome) :
    {c | ∃ t ∈ s.tasks, f t ∧ t.context? = some c}.encard = s.tasks.countP f := by
  have hdistinct : ((s.tasks.filter f).filterMap Task.context?).Nodup :=
    h.distinct.sublist (List.filter_sublist.filterMap _)
  have hsame : {c | ∃ t ∈ s.tasks, f t ∧ t.context? = some c} =
      ((s.tasks.filter f).filterMap Task.context?).toFinset := by
    ext c
    simp [and_assoc]
  have hlength : ((s.tasks.filter f).filterMap Task.context?).length = s.tasks.countP f := by
    rw [List.length_filterMap_eq_countP, List.countP_filter]
    refine List.countP_congr fun t hmember => ?_
    rw [Bool.and_eq_true]
    exact ⟨fun hboth => hboth.2, fun hcounted => ⟨hhas t hmember hcounted, hcounted⟩⟩
  rw [hsame, Set.encard_coe_eq_coe_finsetCard, List.toFinset_card_of_nodup hdistinct, hlength]

/-- The context is lent, or was given back while an abandoned call was on it. -/
def Out (s : Scene) (q : Nat) (c : ContextId) : Prop :=
  (∃ scope, s.Lent q scope c) ∨ ∃ scope call, .settling q scope c call ∈ s.tasks

/-- Nobody is in the middle of putting a context back into the queue. -/
def NonePutBack (s : Scene) (q : Nat) : Prop :=
  ∀ c, .returning q c ∉ s.tasks ∧ .queued q c ∉ s.tasks

theorem NonePutBack.due (hquiet : s.NonePutBack q) : s.tasks.countP (Task.isDue q) = 0 := by
  refine List.countP_eq_zero.mpr fun t hmember hdue => ?_
  cases t with
  | queued place c =>
    obtain rfl : place = q := of_decide_eq_true hdue
    exact (hquiet c).2 hmember
  | _ => cases hdue

/-- The contexts that are counted as lent, unless somebody is in the middle of putting one back. -/
theorem Reachable.encard_out (h : s.Reachable) (hquiet : s.NonePutBack q) :
    {c | s.Out q c}.encard = s.tasks.countP (Task.isOut q) := by
  rw [← h.encard_contexts]
  · congr 1
    ext c
    constructor
    · rintro (⟨scope, execution, hmember⟩ | ⟨scope, call, hmember⟩)
      · exact ⟨_, hmember, decide_eq_true ⟨rfl, rfl⟩, rfl⟩
      · exact ⟨_, hmember, decide_eq_true ⟨rfl, rfl⟩, rfl⟩
    · rintro ⟨t, hmember, hout, hhas⟩
      obtain ⟨rfl, -⟩ := of_decide_eq_true hout
      cases t with
      | holding place scope d execution =>
        obtain rfl := Option.some.inj hhas
        exact .inl ⟨scope, execution, hmember⟩
      | settling place scope d call =>
        obtain rfl := Option.some.inj hhas
        exact .inr ⟨scope, call, hmember⟩
      | returning place d => exact absurd hmember (hquiet d).1
      | _ => cases hhas
  · intro t hmember hout
    obtain ⟨rfl, hsubject⟩ := of_decide_eq_true hout
    cases t with
    | holding | settling | returning => rfl
    | queued place d => exact absurd hmember (hquiet d).2
    | _ => cases hsubject

/-- The contexts with calls that are left behind. -/
theorem Reachable.encard_left (h : s.Reachable) :
    {c | s.world.home? c = some q ∧ s.LeftBehind c}.encard =
      s.tasks.countP (Task.isLeft q s.world) := by
  rw [← h.encard_contexts]
  · congr 1
    ext c
    show s.world.home? c = some q ∧ s.LeftBehind c ↔ _
    rw [h.leftBehind_iff]
    constructor
    · rintro ⟨hhome, t, hmember, hleft, hhas⟩
      have hthere := h.housed (.of_task hmember (Task.subject?_of_context? hhas))
      have hhere : t.place = q := Option.some.inj (hthere.symm.trans hhome)
      exact ⟨t, hmember, decide_eq_true ⟨hhere, hleft⟩, hhas⟩
    · rintro ⟨t, hmember, hcounted, hhas⟩
      obtain ⟨rfl, hleft⟩ := of_decide_eq_true hcounted
      exact ⟨h.housed (.of_task hmember (Task.subject?_of_context? hhas)), t, hmember, hleft, hhas⟩
  · intro t hmember hcounted
    obtain ⟨-, hleft⟩ := of_decide_eq_true hcounted
    cases t with
    | holding | settling => rfl
    | _ => cases hleft

/-! ## Accounts are kept -/

/-- The counters of a pool are the numbers they stand for. -/
theorem Reachable.toNat_counted (h : s.Reachable) {p : Pool} (hhere : s.world.pools[q]? = some p)
    (hsmall : p.capacity < 2 ^ 64) :
    p.counters.borrowed.toNat = s.tasks.countP (Task.isOut q) ∧
      p.counters.settling.toNat = s.tasks.countP (Task.isLeft q s.world) := by
  obtain ⟨hborrowed, hsettling⟩ := h.counted hhere
  have hout := h.out_le hhere
  have hleft : s.tasks.countP (Task.isLeft q s.world) ≤ s.tasks.countP (Task.isOut q) :=
    List.countP_mono_left fun _ _ => Task.isOut_of_isLeft
  constructor
  · rw [hborrowed]
    exact UInt64.toNat_ofNat_of_lt' (Nat.lt_of_le_of_lt hout hsmall)
  · rw [hsettling]
    exact UInt64.toNat_ofNat_of_lt' (Nat.lt_of_le_of_lt (hleft.trans hout) hsmall)

/-- A pool keeps its capacity. -/
theorem Reachable.capacity (h : s.Reachable) (hrun : Steps s t) {p p' : Pool}
    (hhere : s.world.pools[q]? = some p) (hhere' : t.world.pools[q]? = some p') :
    p'.capacity = p.capacity := by
  induction hrun generalizing p' with
  | refl => rw [Option.some.inj (hhere'.symm.trans hhere)]
  | @tail t u hrun hnext ih =>
    obtain ⟨p₀, hhere₀, htallied⟩ := hnext.pool_tallied (h.steps hrun) hhere'
    exact htallied.capacity.trans (ih hhere₀)

/-- In every reachable scene, with `p` the pool at a place, whose capacity is a 64-bit number like
its counters: unless somebody is in the middle of putting a context back, the contexts that are
idle or counted as lent are all contexts of an open pool, and as many are counted as lent as are
lent or wait for an abandoned call, also after the pool was closed; as many abandoned calls are
counted as there are contexts with a call that was left behind; whoever may count down finds
something counted; and the next step changes each counter by one at most, without going round. -/
theorem Reachable.accounts_kept (h : s.Reachable) {p : Pool} (hhere : s.world.pools[q]? = some p)
    (hsmall : p.capacity < 2 ^ 64) :
    (s.NonePutBack q → (p.closed = false → p.metrics.accounted = p.capacity) ∧
      {c | s.Out q c}.encard = p.metrics.counters.borrowed.toNat) ∧
    {c | s.world.home? c = some q ∧ s.LeftBehind c}.encard =
      p.metrics.counters.settling.toNat ∧
    (∀ task ∈ s.tasks, task.place = q →
      (task.subject?.isSome → 0 < p.metrics.counters.borrowed.toNat) ∧
      ((task.left? s.world).isSome → 0 < p.metrics.counters.settling.toNat)) ∧
    ∀ {t : Scene} {p' : Pool}, Step s t → t.world.pools[q]? = some p' →
      Counter.Beside p.metrics.counters.borrowed p'.metrics.counters.borrowed ∧
      Counter.Beside p.metrics.counters.settling p'.metrics.counters.settling := by
  obtain ⟨hborrowed, hsettling⟩ := h.toNat_counted hhere hsmall
  refine ⟨fun hquiet => ⟨fun hopened => ?_, ?_⟩, ?_, fun task hmember hplace => ⟨fun hout => ?_,
    fun hleft => ?_⟩, fun hstep hhere' => ?_⟩
  · have hwhole := (h.balanced.pool hhere).whole hopened
    have hdue := hquiet.due
    have hall := countP_isOut q s.tasks
    show p.idle.length + p.counters.borrowed.toNat = p.capacity
    simp only [tally] at hwhole
    omega
  · rw [h.encard_out hquiet]
    exact congrArg Nat.cast hborrowed.symm
  · rw [h.encard_left]
    exact congrArg Nat.cast hsettling.symm
  · show 0 < p.counters.borrowed.toNat
    rw [hborrowed]
    exact List.countP_pos_iff.mpr ⟨task, hmember, decide_eq_true ⟨hplace, hout⟩⟩
  · show 0 < p.counters.settling.toNat
    rw [hsettling]
    exact List.countP_pos_iff.mpr ⟨task, hmember, decide_eq_true ⟨hplace, hleft⟩⟩
  · rename_i t p'
    obtain ⟨p₀, hhere₀, htallied⟩ := hstep.pool_tallied h hhere'
    obtain rfl := Option.some.inj (hhere.symm.trans hhere₀)
    have hsame : p'.capacity = p.capacity := htallied.capacity
    obtain ⟨hborrowed', hsettling'⟩ := (h.step hstep).toNat_counted hhere' (hsame ▸ hsmall)
    exact ⟨htallied.borrowed.beside hborrowed hborrowed',
      htallied.settling.beside hsettling hsettling'⟩

/-- A pool whose only context was given back while an abandoned call is on it counts the context as
lent and the call as left behind. -/
theorem accounts_kept_left_behind : ∃ (s : Scene) (p : Pool), s.Reachable ∧
    s.tasks = [.settling 0 1 0 0] ∧ s.world.pools[0]? = some p ∧ p.capacity = 1 ∧
      s.NonePutBack 0 ∧ {c | s.Out 0 c}.encard = p.metrics.counters.borrowed.toNat ∧
        {c | s.world.home? c = some 0 ∧ s.LeftBehind c}.encard =
          p.metrics.counters.settling.toNat ∧
        0 < p.metrics.counters.borrowed.toNat ∧ 0 < p.metrics.counters.settling.toNat := by
  let guest : GuestInstance := .script ⟨"guest", none, [], [("run", [])]⟩ none .empty
  have hexported : guest.function "run" = .ok () := by
    simp [guest, GuestInstance.function, GuestInstance.hasFunction]
  have hstarts : guest.start "run" [] = .ok (.script ⟨[], [], [], .empty⟩ (some (.ofPages 0))) := by
    simp [guest, GuestInstance.start]
  have hstart := Reachable.start (World.ofGuest_fresh guest default)
  have hmade := hstart.step .scope
  have hasked := (hmade.step (.enter 0 (List.mem_singleton_self 1) rfl)).step
    (.ask (l := []) (r := []) rfl rfl)
  have htaken := hasked.step (.take (l := []) (r := []) rfl rfl)
  have hbegun := htaken.begin (l := []) rfl rfl rfl rfl hexported hstarts
  have hfired := hbegun.step (.fire (List.mem_singleton_self 1))
  obtain ⟨s, hrun, htasks, -⟩ := hfired.leaveBehind (l := []) rfl rfl rfl rfl rfl
  have h := hfired.steps hrun
  have hmember : .settling 0 1 0 0 ∈ s.tasks := by
    rw [htasks]
    exact List.mem_singleton_self _
  obtain ⟨-, p, -, hhere, -⟩ := h.there hmember rfl
  have hone : p.capacity = 1 := hfired.capacity hrun rfl hhere
  have hquiet : s.NonePutBack 0 := fun c => by simp [htasks]
  obtain ⟨hsettled, hleft, hpositive, -⟩ := h.accounts_kept hhere (by rw [hone]; decide)
  obtain ⟨hborrowed, hsettling⟩ := hpositive _ hmember rfl
  exact ⟨s, p, h, htasks, hhere, hone, hquiet, (hsettled hquiet).2, hleft, hborrowed rfl,
    hsettling rfl⟩

end Scene
end SandboxPool
