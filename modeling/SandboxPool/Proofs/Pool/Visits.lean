import SandboxPool.Proofs.Pool.Callbacks
import SandboxPool.Proofs.Pool.Closing

/-!
# What a visit leaves behind

One who runs a callback changes nothing but permits as long as no context was lent, and if nobody
else uses the pool meanwhile, a visit that gets no context leaves the pool exactly as it was. One
who got a context gives it back: once the call that may be left on it is over, as many contexts are
idle, lent and waiting for a call as before, and the faults have grown by the panics that the visit
has seen. In a `Visit.QuietStep` the others may still do anything that leaves this one pool alone.
-/

namespace SandboxPool

/-- The standing of a pool that has counted so many faults more. -/
def Standing.faulted (n : Nat) (s : Standing) : Standing :=
  { s with faults := s.faults + UInt64.ofNat n }

/-- A pool `p'` has as many contexts idle, lent and left behind as `p` had, and has counted so many
faults more. -/
structure Pool.Restored (p p' : Pool) (faults : Nat) : Prop where
  available : p'.metrics.available = p.metrics.available
  borrowed : p'.metrics.counters.borrowed = p.metrics.counters.borrowed
  settling : p'.metrics.counters.settling = p.metrics.counters.settling
  faults : p'.metrics.counters.faults = p.metrics.counters.faults + UInt64.ofNat faults

namespace Standing

variable {s : Standing} {m n : Nat}

@[simp] theorem faulted_zero : s.faulted 0 = s := by
  show { s with faults := s.faults + 0 } = s
  rw [UInt64.add_zero]

@[simp] theorem map_faulted_zero (o : Option Standing) : o.map (faulted 0) = o := by
  cases o <;> simp

/-- Faults that are counted one after another add up. -/
theorem faulted_faulted : (s.faulted m).faulted n = s.faulted (m + n) := by
  unfold faulted
  rw [UInt64.ofNat_add, UInt64.add_assoc]

end Standing

namespace Pool

variable {p p' : Pool} {v : Waiter}

/-- A pool that does not refuse is open. -/
theorem request_open {got : PermitAnswer} (hfound : p.request v = (got, p'))
    (hlive : got ≠ .closed) : p.closed = false := by
  unfold request at hfound
  cases hclosed : p.closed with
  | false => rfl
  | true =>
    rw [hclosed, if_pos rfl] at hfound
    exact absurd (Prod.mk.inj hfound).1.symm hlive

/-- One who has to wait is the last in line. -/
theorem request_wait_eq (hfound : p.request v = (.wait, p')) :
    p' = { p with permits := { p.permits with line := p.permits.line ++ [v] } } := by
  unfold request Permits.request at hfound
  split at hfound
  · cases (Prod.mk.inj hfound).1
  · dsimp only at hfound
    split at hfound
    · cases (Prod.mk.inj hfound).1
    · split at hfound
      · cases (Prod.mk.inj hfound).1
      · exact (Prod.mk.inj hfound).2.symm

/-- One who was put in line, under a name that nobody had, and gives up leaves no trace. -/
theorem giveUp_request (hfound : p.request v = (.wait, p')) (hline : v ∉ p.permits.line)
    (hgranted : v ∉ p.permits.granted) : p'.giveUp v = p := by
  have hothers : ¬ p.permits.granted.contains v := by simpa using hgranted
  rw [request_wait_eq hfound]
  unfold giveUp Permits.giveUp
  dsimp only
  rw [if_neg hothers, List.erase_append_right _ hline]
  simp

end Pool

namespace World

variable {w w' : World} {place : Nat} {c : ContextId} {e : Execution} {x : Context} {late : Bool}
  {polled : Polled}

/-! ## Faults -/

theorem count_standing_kept {g : Counters → Counters}
    (hkept : ∀ p : Pool, (p.count g).standing = p.standing) (c : ContextId) :
    (w.count c g).standing? = w.standing? := funext (count_map hkept c)

/-- A panic of a callback is counted at the pool itself. -/
theorem modifyPool_faulted :
    (w.modifyPool place (·.count Counters.fault)).standing? place =
      (w.standing? place).map (.faulted 1) := by
  unfold standing?
  rw [modifyPool_pools, if_pos rfl, Option.map_map, Option.map_map]
  rfl

/-- A panic that is counted for a context is counted at its home. -/
theorem count_faulted (hhome : w.home? c = some place) :
    (w.count c Counters.fault).standing? place = (w.standing? place).map (.faulted 1) := by
  rw [count_of_home hhome]
  exact modifyPool_faulted

theorem BeginFound.standing (hfound : w.BeginFound (fun w _ => w) e x polled w') :
    w'.standing? = w.standing? := by
  cases hfound <;> rfl

/-- An execution behind an earlier call finds no panic of its own. -/
theorem EarlierFound.standing {earlier : CallId}
    (hfound : w.EarlierFound (fun w _ => w) e x earlier late polled w') :
    w'.standing? = w.standing? := by
  cases hfound with
  | settled _ hfound =>
    have hsettled := count_standing_kept (g := Counters.settle)
      (w := w.modifyContext e.context fun x => { x with inFlight := none }) (fun _ => rfl) e.context
    exact hfound.standing.trans hsettled
  | cancelled | timedOut => exact count_standing_kept (fun _ => rfl) e.context
  | waits => rfl

/-- An execution that ends while its call goes on leaves the call to itself. -/
theorem abandon_standing (c : ContextId) (call : CallId) :
    (w.abandon c call).standing? = w.standing? :=
  count_standing_kept (g := Counters.abandon) (fun _ => rfl) c

/-- Where no panic is found the standing has to be the same. -/
theorem standing_of_none (hnone : w.panics e = 0) (hsame : w'.standing? = w.standing?) :
    w'.standing? place = (w.standing? place).map (.faulted (w.panics e)) := by
  rw [hnone, hsame, Standing.map_faulted_zero]

/-- A look at an execution without a call of its own finds no panic. -/
theorem panics_of_own_none (hmine : e.own? = none) : w.panics e = 0 := by
  unfold panics
  rw [hmine]
  rfl

/-- One whose call has ended in a panic counts it; any other look counts none. -/
theorem OwnFound.faulted {own : CallId} (hphase : e.phase = .running own)
    (hhome : w.home? e.context = some place) (hfound : w.OwnFound e x own late polled w') :
    w'.standing? place = (w.standing? place).map (.faulted (w.panics e)) := by
  have hpanics : w.panics e = ((w.ended? own).map CallEnd.panics).getD 0 := by
    unfold panics Execution.own?
    rw [hphase]
    rfl
  cases hfound with
  | panicked hpast =>
    rw [hpanics, hpast]
    exact count_faulted hhome
  | returned hpast =>
    rw [hpast] at hpanics
    exact standing_of_none hpanics (count_standing_kept (fun _ => rfl) e.context)
  | cancelled hlive | timedOut hlive =>
    rw [hlive] at hpanics
    refine standing_of_none hpanics ((abandon_standing e.context own).trans ?_)
    exact count_standing_kept (w := w.log _) (fun _ => rfl) e.context
  | waits hlive =>
    rw [hlive] at hpanics
    exact standing_of_none hpanics rfl

/-- A look counts a fault if it finds that the guest has panicked, and only then. -/
theorem pollWith_faulted (hhome : w.home? e.context = some place)
    (hfound : w.pollWith (fun w _ => w) e late = (polled, w')) :
    w'.standing? place = (w.standing? place).map (.faulted (w.panics e)) := by
  -- Only an execution with a call of its own can find that it panicked.
  cases pollWith_found hfound with
  | missing hnowhere =>
    obtain ⟨x, -, hhere, -⟩ := home?_eq_some hhome
    cases hnowhere.symm.trans hhere
  | nobody _ hmine _ hfound => exact standing_of_none (panics_of_own_none hmine) hfound.standing
  | earlier _ hmine _ hfound => exact standing_of_none (panics_of_own_none hmine) hfound.standing
  | own _ hphase hfound => exact hfound.faulted hphase hhome

end World

namespace Scene

variable {s t : Scene} {q : Nat} {scope : ScopeId} {c : ContextId} {β : Type}

/-- Whoever stays where it is finds what it left as it was. -/
theorem Step.left_kept (hstep : Step s t) (h : s.Reachable) {task : Task} (hbefore : task ∈ s.tasks)
    (hafter : task ∈ t.tasks) : task.left? t.world = task.left? s.world :=
  Task.left?_congr fun _ hhas => hstep.record_kept h hbefore hafter hhas

/-- So those who stay have left as many contexts to a call as before. -/
theorem Step.countP_left_kept (hstep : Step s t) (h : s.Reachable) {tasks : List Task}
    (hbefore : tasks ⊆ s.tasks) (hafter : tasks ⊆ t.tasks) :
    tasks.countP (Task.isLeft q t.world) = tasks.countP (Task.isLeft q s.world) := by
  refine List.countP_congr fun task hmember => ?_
  unfold Task.isLeft
  rw [hstep.left_kept h (hbefore hmember) (hafter hmember)]

/-! ## The callback's own result -/

/-- A context that is given back is taken. -/
theorem Reachable.release_ok (h : s.Reachable) (hmember : .holding q scope c none ∈ s.tasks) :
    (s.world.release q c).1 = .ok () := by
  obtain ⟨x, p, hthere, hhere, hmine⟩ := h.there hmember rfl
  obtain ⟨l, r, htask⟩ := List.append_of_mem hmember
  have hhere : s.world.pools[q]? = some p := hhere
  rcases hletGo : s.world.letGo c with ⟨record, w⟩
  have hgone := h.step (.release htask hletGo)
  obtain ⟨event, hreleased⟩ := World.release_own hhere hthere hmine hletGo
  rw [hreleased]
  cases record with
  | none => exact hgone.requeue_ok (by simp [Task.ofLetGo])
  | some call => rfl

/-- The end of a callback is what is reported, whether its context goes back into the queue, waits
for a call or is disposed of. -/
theorem Reachable.conclude_outcome (h : s.Reachable) (hmember : .holding q scope c none ∈ s.tasks)
    (ended : World.CallbackEnd β) : (s.world.conclude q c ended).1 = ended.outcome := by
  have htaken := h.release_ok hmember
  unfold World.conclude
  rcases hfound : s.world.release q c with ⟨released, w⟩
  rw [hfound] at htaken
  obtain rfl : released = .ok () := htaken
  cases ended <;> rfl

end Scene

namespace Visit

variable {β : Type} {q : Nat} {scope : ScopeId} {u v t : Visit q scope β} {callback : Callback β}
  {s : Scene} {p : Pool}

/-- What happens next to a visit while nobody else uses the pool. -/
def QuietStep (v t : Visit q scope β) : Prop :=
  v.Move t ∨ v.Aside t ∧ t.world.pools[q]? = v.world.pools[q]?

/-- Whole runs in which nobody else uses the pool. -/
abbrev QuietSteps : Visit q scope β → Visit q scope β → Prop := Relation.ReflTransGen QuietStep

theorem QuietSteps.steps (hrun : QuietSteps u v) : Steps u v :=
  Relation.ReflTransGen.mono (fun _ _ hstep => hstep.imp_right And.left) u v hrun

/-- A run of a visit is a run of the scene that it is part of. -/
theorem Steps.scene (hrun : Steps u v) : Scene.Steps u.scene v.scene := by
  induction hrun with
  | refl => exact .refl
  | tail _ hnext ih =>
    rcases hnext with hmove | haside
    · rcases hmove.scene with hsame | hstep
      · rwa [hsame]
      · exact ih.tail hstep
    · exact ih.tail haside.scene

theorem Move.others (hmove : v.Move t) : t.others = v.others := by
  cases hmove <;> rfl

/-! ## What a visit counts -/

/-- The faults that a visit has counted: the panics of the guest that it has found, and the one of
its callback. -/
def faults (v : Visit q scope β) : Nat := v.panics + v.stage.faults

/-- From one moment to the other the pool has counted the faults by which those of the visit have
grown. -/
def Counts (v t : Visit q scope β) : Prop :=
  ∃ n, t.faults = v.faults + n ∧ t.world.standing? q = (v.world.standing? q).map (.faulted n)

/-- Where neither the visit nor the pool has more faults than before, they agree. -/
theorem counts_none (hpanics : t.panics = v.panics) (hstage : t.stage.faults = v.stage.faults)
    (hsame : t.world.standing? = v.world.standing?) : v.Counts t := by
  refine ⟨0, ?_, ?_⟩
  · unfold Visit.faults
    rw [hpanics, hstage, Nat.add_zero]
  · rw [hsame, Standing.map_faulted_zero]

/-- Going on, like every move, counts the faults that it adds to those of the visit. -/
theorem counts_goes {notes : Stage.Notes} {w : World} {stage : Stage β}
    (hgoes : Stage.Goes q scope v.world v.stage notes w stage) (h : v.scene.Reachable) :
    v.Counts (v.noting notes w stage) := by
  cases hgoes with
  | turnsAway hstage _ | misses hstage _ | prepares hstage _ | reports hstage =>
    exact counts_none rfl (by rw [hstage]; rfl) rfl
  | @asks _ asked w hstage hfound =>
    exact counts_none rfl (by rw [hstage]; cases asked <;> rfl) (World.ask_standing hfound)
  | @looks _ _ asked w hstage hfound =>
    exact counts_none rfl (by rw [hstage]; cases asked <;> rfl) (World.askAgain_standing hfound)
  | @takes _ taken w hstage hfound =>
    exact counts_none rfl (by rw [hstage]; cases taken <;> rfl) (World.handOut_standing hfound)
  -- Polling is the one step at which a panic is found; everything else leaves the standing alone.
  | @polls c e next late polled w hstage hfound =>
    have hmember : .holding q scope c (some e) ∈ v.scene.tasks := mem_of_task (by rw [hstage]; rfl)
    obtain ⟨rfl, -⟩ := h.orderly.looked hmember hfound
    refine ⟨v.world.panics e, ?_, World.pollWith_faulted (h.housed (.of_task hmember rfl)) hfound⟩
    have hnone : (Stage.ofPolled e.context next polled).faults = v.stage.faults := by
      rw [hstage]
      cases polled <;> rfl
    show v.panics + v.world.panics e + (Stage.ofPolled e.context next polled).faults =
      v.panics + v.stage.faults + v.world.panics e
    rw [hnone]
    omega
  | @enqueues c ended returned w hstage hfound =>
    refine counts_none rfl ?_ (World.enqueue_standing hfound)
    rw [hstage]
    rcases returned with _ | (_ | _ | _) <;> rfl
  | announces hstage => exact counts_none rfl (by rw [hstage]; rfl) (World.announce_standing _ _)

/-- So does every other move. -/
theorem Move.faulted (hmove : v.Move t) (h : v.scene.Reachable) : v.Counts t := by
  cases hmove with
  | goes hgoes => exact counts_goes hgoes h
  | enters hstage _ _ => exact counts_none rfl (by rw [hstage]; rfl) rfl
  | givesUp hstage => exact counts_none rfl (by rw [hstage]; rfl) (World.giveUp_standing _ _)
  | @releases c ended record w hstage _ hfound =>
    refine counts_none rfl ?_ (World.standing?_of_pools (World.letGo_pools hfound))
    rw [hstage]
    cases record <;> rfl
  -- The callback has panicked, and this is where it is counted.
  | @faults back message hstage =>
    refine ⟨1, ?_, World.modifyPool_faulted⟩
    unfold Visit.faults
    rw [hstage]
    rfl
  | settles _ _ => exact counts_none rfl rfl (World.count_standing_kept (fun _ => rfl) _)
  | putsBack _ hfound => exact counts_none rfl rfl (World.enqueue_standing hfound)
  | permits _ => exact counts_none rfl rfl (World.announce_standing _ _)

/-! ## A visit that nobody disturbs -/

/-- Around a visit everything is as it was when the pool was `p`: the others keep what `p` counted
as lent or left behind, and the visit itself has counted faults only. -/
structure Quiet (p : Pool) (v : Visit q scope β) : Prop where
  out : UInt64.ofNat (v.others.countP (Task.isOut q)) = p.counters.borrowed
  left : UInt64.ofNat (v.others.countP (Task.isLeft q v.world)) = p.counters.settling
  whole : p.closed = false → p.idle.length + (tally q v.others).out = p.capacity
  standing : v.world.standing? q = some (p.standing.faulted v.faults)

theorem quiet_start (h : s.Reachable) (hhere : s.world.pools[q]? = some p)
    (callback : Callback β) : (start q scope s callback).Quiet p where
  out := (h.counted hhere).1.symm
  left := (h.counted hhere).2.symm
  whole := (h.balanced.pool hhere).whole
  standing := by
    show (s.world.pools[q]?).map Pool.standing = some (p.standing.faulted 0)
    rw [hhere, Standing.faulted_zero]
    rfl

/-- Counters that count the visit and the others together count the others alike as long as the
visit counts the same. -/
theorem others_counted {f g : Task → Bool} {own others others' : List Task}
    (hmine : own.countP g = own.countP f)
    (hsame : UInt64.ofNat ((own ++ others').countP g) = UInt64.ofNat ((own ++ others).countP f)) :
    UInt64.ofNat (others'.countP g) = UInt64.ofNat (others.countP f) := by
  rw [List.countP_append, List.countP_append, hmine, UInt64.ofNat_add, UInt64.ofNat_add] at hsame
  exact (UInt64.add_right_inj _).mp hsame

/-- A move keeps a visit quiet, whatever it counts. -/
theorem Quiet.move (hquiet : v.Quiet p) (h : v.scene.Reachable) (hmove : v.Move t) :
    t.Quiet p := by
  have hothers := hmove.others
  obtain ⟨n, hmore, hstanding⟩ := hmove.faulted h
  refine ⟨?_, ?_, ?_, ?_⟩
  · rw [hothers]
    exact hquiet.out
  · rw [hothers]
    refine Eq.trans (congrArg UInt64.ofNat ?_) hquiet.left
    -- A move of the visit is no step of the others, so what they hold is left as it was.
    rcases hmove.scene with hsame | hstep
    · have hsame : t.world = v.world := congrArg Scene.world hsame
      rw [hsame]
    · refine hstep.countP_left_kept h (List.subset_append_right _ _) ?_
      rw [← hothers]
      exact List.subset_append_right _ _
  · rw [hothers]
    exact hquiet.whole
  · rw [hstanding, hquiet.standing, Option.map_some, Standing.faulted_faulted, hmore]

/-- So does everything that the others do apart from this pool. -/
theorem Quiet.aside (hquiet : v.Quiet p) (h : v.scene.Reachable) (haside : v.Aside t)
    (huntouched : t.world.pools[q]? = v.world.pools[q]?) : t.Quiet p := by
  obtain ⟨p', hhere, hstanding⟩ := Option.map_eq_some_iff.mp hquiet.standing
  have hstep := haside.scene
  have hhere' : t.scene.world.pools[q]? = some p' := huntouched.trans hhere
  have h' := h.step hstep
  obtain ⟨hout, hleft⟩ := h.counted hhere
  obtain ⟨hout', hleft'⟩ := h'.counted hhere'
  cases haside with
  | @intro w others scopes joined _ =>
    -- The pool has not been touched, so whatever the others did adds up to the same numbers.
    refine ⟨?_, ?_, fun hopened => ?_, ?_⟩
    · exact (others_counted rfl (hout'.symm.trans hout)).trans hquiet.out
    · have hmine : v.own.countP (Task.isLeft q w) = v.own.countP (Task.isLeft q v.world) :=
        hstep.countP_left_kept h (List.subset_append_left _ _) (List.subset_append_left _ _)
      exact (others_counted hmine (hleft'.symm.trans hleft)).trans hquiet.left
    · have hopened' : p'.closed = false := (congrArg Standing.closed hstanding).trans hopened
      have hwhole : p'.idle.length + (tally q (v.own ++ v.others)).out = p'.capacity :=
        (h.balanced.pool hhere).whole hopened'
      have hwhole' : p'.idle.length + (tally q (v.own ++ others)).out = p'.capacity :=
        (h'.balanced.pool hhere').whole hopened'
      have hbefore := hquiet.whole hopened
      simp only [tally, List.filterMap_append, List.length_append] at hwhole hwhole' hbefore ⊢
      omega
    · show (w.pools[q]?).map Pool.standing = _
      have hsame : w.pools[q]? = v.world.pools[q]? := huntouched
      rw [hsame]
      exact hquiet.standing

/-- As long as nobody else uses the pool, the visit is quiet. -/
theorem QuietSteps.quiet (h : s.Reachable) (hhere : s.world.pools[q]? = some p)
    (hrun : QuietSteps (start q scope s callback) v) : v.Quiet p := by
  induction hrun with
  | refl => exact quiet_start h hhere callback
  | tail hrun hnext ih =>
    have h' := (QuietSteps.steps hrun).reachable h
    rcases hnext with hmove | ⟨haside, huntouched⟩
    · exact ih.move h' hmove
    · exact ih.aside h' haside huntouched

/-- One who has come to the end, and has nothing left to be done, leaves the pool as it was but for
the faults. -/
theorem QuietSteps.restored (h : s.Reachable) (hhere : s.world.pools[q]? = some p)
    (hrun : QuietSteps (start q scope s callback) v) (hdone : v.stage.task? q scope = none)
    (hrest : v.rest = .nothing) :
    ∃ p', v.world.pools[q]? = some p' ∧ p.Restored p' v.faults := by
  have hquiet := hrun.quiet h hhere
  have h' := hrun.steps.reachable h
  obtain ⟨p', hhere', hstanding⟩ := Option.map_eq_some_iff.mp hquiet.standing
  have htasks : v.scene.tasks = v.others := by
    rw [tasks_of_none hdone, hrest]
    rfl
  obtain ⟨hout, hleft⟩ := h'.counted hhere'
  rw [htasks] at hout hleft
  -- The visit has no task any more, so the tasks of the others are all there are.
  refine ⟨p', hhere', ?_, hout.trans hquiet.out, hleft.trans hquiet.left, ?_⟩
  · show p'.idle.length = p.idle.length
    have hshut : p'.closed = p.closed := congrArg Standing.closed hstanding
    cases hclosed : p.closed with
    | true =>
      rw [(h.balanced.pool hhere).emptied hclosed,
        (h'.balanced.pool hhere').emptied (hshut.trans hclosed)]
    | false =>
      have hcapacity := h.capacity hrun.steps.scene hhere hhere'
      have hwhole := (h'.balanced.pool hhere').whole (hshut.trans hclosed)
      have hbefore := hquiet.whole hclosed
      rw [htasks] at hwhole
      omega
  · exact congrArg Standing.faults hstanding

/-! ## A visit that gets no context -/

/-- As long as a visit has no context, its pool is `p`, but for the place in line or the permit that
the visit has. -/
def Before (p : Pool) (v : Visit q scope β) : Prop :=
  match v.stage with
  | .outside _ | .asking _ | .finished none _ => v.world.pools[q]? = some p
  | .waiting waiter _ => ∃ p', v.world.pools[q]? = some p' ∧ p.request waiter = (.wait, p')
  | .permitted _ => ∃ p', v.world.pools[q]? = some p' ∧ p'.closed = false
  | _ => True

/-- One who waits in line, where the pool was `p` before it asked, is there once and has been
granted nothing. -/
theorem waiting_once (h : v.scene.Reachable) {waiter : Waiter} {p' : Pool}
    (hstage : v.stage = .waiting waiter callback) (hhere : v.world.pools[q]? = some p')
    (hasked : p.request waiter = (.wait, p')) :
    waiter ∉ p.permits.line ∧ waiter ∉ p.permits.granted := by
  have hmember : .waiting q scope waiter ∈ v.scene.tasks := mem_of_task (by rw [hstage]; rfl)
  obtain ⟨rest, hsame⟩ := Scene.tally_of_mem q hmember
  have hbalanced : p'.Balanced ((tally q rest).waiting waiter) :=
    tally_waiting ▸ hsame ▸ h.balanced.pool hhere
  have hone := hbalanced.counts_of_waiting.1
  rw [Pool.request_wait_eq hasked] at hone
  dsimp only at hone
  rw [count_concat, if_pos rfl] at hone
  exact ⟨List.count_eq_zero.mp (by omega), List.count_eq_zero.mp (by omega)⟩

/-- Giving up leaves the pool as it was before one asked. -/
theorem giveUp_waiting (h : v.scene.Reachable) {waiter : Waiter}
    (hstage : v.stage = .waiting waiter callback) (hbefore : v.Before p) :
    (v.world.giveUp q waiter).pools[q]? = some p := by
  unfold Before at hbefore
  rw [hstage] at hbefore
  obtain ⟨p', hhere, hasked⟩ := hbefore
  obtain ⟨hline, hgranted⟩ := waiting_once h hstage hhere hasked
  unfold World.giveUp
  rw [World.modifyPool_pools, if_pos rfl, hhere, Option.map_some,
    Pool.giveUp_request hasked hline hgranted]

/-- What a visit leaves to be done it leaves after it has had a context. -/
theorem Before.kept (htold : v.Told callback) (hleft : v.rest ≠ .nothing)
    (hstage : t.stage = v.stage) : t.Before p := by
  unfold Told at htold
  unfold Before
  rw [hstage]
  cases hsame : v.stage with
  | outside | asking | waiting | permitted =>
    rw [hsame] at htold
    exact absurd htold.2.rest hleft
  | finished ended result =>
    rw [hsame] at htold
    cases ended with
    | none => exact absurd htold.1.rest hleft
    | some ended => trivial
  | inside | executing | returning | queued | released => trivial

/-- Going on keeps the pool as it was before, as long as no context was lent. -/
theorem before_goes {notes : Stage.Notes} {w : World} {stage : Stage β}
    (hgoes : Stage.Goes q scope v.world v.stage notes w stage) (h : v.scene.Reachable)
    (hbefore : v.Before p) : (v.noting notes w stage).Before p := by
  have hearlier := hbefore
  unfold Before at hearlier
  cases hgoes with
  | turnsAway hstage _ =>
    rw [hstage] at hearlier
    exact hearlier
  | @asks callback' asked w hstage hfound =>
    rw [hstage] at hearlier
    rcases World.ask_cases hfound with ⟨⟨cause, rfl⟩, rfl⟩ | ⟨p₁, p', got, hhere, hanswer, rfl, rfl⟩
    · exact hearlier
    · obtain rfl := Option.some.inj (hhere.symm.trans hearlier)
      have hset : (World.setPool _ q p').pools[q]? = some p' :=
        World.setPool_get (w := { v.world with nextWaiter := v.world.nextWaiter + 1 }) hhere
      cases got with
      | given =>
        have hopened := Pool.request_open hanswer (by simp)
        refine ⟨p', hset, ?_⟩
        show p'.stock.closed = false
        rw [Pool.request_stock hanswer]
        exact hopened
      | wait => exact ⟨p', hset, hanswer⟩
      | closed =>
        obtain rfl := (h.balanced.pool hhere).request_closed hanswer
        exact hset
  | @looks waiter callback' asked w hstage hfound =>
    have hback := giveUp_waiting h hstage hbefore
    rw [hstage] at hearlier
    obtain ⟨p', hhere, hwaits⟩ := hearlier
    rcases World.askAgain_cases hfound with
      ⟨⟨cause, rfl⟩, ⟨hnone, rfl⟩ | rfl⟩ | ⟨p₁, p'', got, hhere', hanswer, rfl, rfl⟩
    · rw [hhere] at hnone
      cases hnone
    · exact hback
    · obtain rfl := Option.some.inj (hhere.symm.trans hhere')
      have hset : (v.world.setPool q p'').pools[q]? = some p'' := World.setPool_get hhere
      have hlast := Pool.request_wait_eq hwaits
      -- nobody has granted it anything, and nobody has closed the pool
      rcases (h.balanced.pool hhere).look_cases waiter with ⟨hshut, -⟩ | ⟨hgranted, -⟩ | ⟨-, hsame⟩
      · have hopened := Pool.request_open hwaits (by simp)
        rw [hlast] at hshut
        cases hopened.symm.trans hshut
      · rw [hlast] at hgranted
        exact absurd hgranted (waiting_once h hstage hhere hwaits).2
      · obtain ⟨rfl, rfl⟩ := Prod.mk.inj (hanswer.symm.trans hsame)
        exact ⟨_, hset, hwaits⟩
  | @takes callback' taken w hstage hfound =>
    rw [hstage] at hearlier
    obtain ⟨p', hhere, hopened⟩ := hearlier
    have hmember : .permitted q scope ∈ v.scene.tasks := mem_of_task (by rw [hstage]; rfl)
    cases taken with
    | ok c => trivial
    | error failure =>
      -- an open pool has a context for one who has a permit
      rcases h.handOut_answer hhere hmember with ⟨hshut, -⟩ | ⟨-, c, -, hlent⟩
      · cases hopened.symm.trans hshut
      · cases hlent.symm.trans (congrArg Prod.fst hfound)
  | misses _ _ | prepares _ _ | announces _ | reports _ => trivial
  | @polls c e next late polled w _ _ => cases polled <;> trivial
  | @enqueues c ended returned w _ _ => rcases returned with _ | (_ | _ | _) <;> trivial

/-- Every move does. -/
theorem Move.before (hmove : v.Move t) (h : v.scene.Reachable) (htold : v.Told callback)
    (hbefore : v.Before p) : t.Before p := by
  cases hmove with
  | goes hgoes => exact before_goes hgoes h hbefore
  | enters hstage _ _ =>
    unfold Before at hbefore
    rw [hstage] at hbefore
    exact hbefore
  | givesUp hstage => exact giveUp_waiting h hstage hbefore
  | faults _ => trivial
  | @releases c ended record w _ _ _ => cases record <;> trivial
  | settles hrest _ | putsBack hrest _ | permits hrest =>
    exact .kept htold (by rw [hrest]; simp) rfl

/-- What others do elsewhere does as well. -/
theorem Aside.before (haside : v.Aside t) (huntouched : t.world.pools[q]? = v.world.pools[q]?)
    (hbefore : v.Before p) : t.Before p := by
  cases haside with
  | intro _ =>
    unfold Before at hbefore ⊢
    dsimp only at huntouched ⊢
    rw [huntouched]
    exact hbefore

/-- If nobody else uses the pool, one who gets no context leaves it exactly as it was. -/
theorem QuietSteps.before (h : s.Reachable) (hhere : s.world.pools[q]? = some p)
    (hrun : QuietSteps (start q scope s callback) v) : v.Before p := by
  induction hrun with
  | refl => exact hhere
  | tail hrun hnext ih =>
    obtain ⟨h', htold⟩ := (QuietSteps.steps hrun).told h
    rcases hnext with hmove | ⟨haside, huntouched⟩
    · exact hmove.before h' htold ih
    · exact haside.before huntouched ih

/-- One who has borrowed nothing has done nothing that shows. -/
theorem Told.untouched (htold : v.Told callback) (hnone : v.borrowed = []) : v.Untouched := by
  -- A stage at which a context has been lent is out of the question.
  have hlent {c : ContextId} (hborrowed : v.borrowed = [c]) : v.Untouched := by
    cases hnone.symm.trans hborrowed
  unfold Told at htold
  cases hstage : v.stage with
  | outside | asking | waiting | permitted =>
    rw [hstage] at htold
    exact htold.2
  | inside | executing =>
    rw [hstage] at htold
    exact hlent htold.1.borrowed
  | returning | queued =>
    rw [hstage] at htold
    exact hlent htold.borrowed
  | released =>
    rw [hstage] at htold
    obtain ⟨-, c, hgave⟩ := htold
    exact hlent hgave.borrowed
  | finished ended result =>
    rw [hstage] at htold
    cases ended with
    | none => exact htold.1
    | some ended =>
      obtain ⟨-, c, hgave⟩ := htold
      exact hlent hgave.borrowed

/-- One who has borrowed nothing changes nothing but permits, whatever the others do. -/
theorem Move.stock (hmove : v.Move t) (htold : v.Told callback) (hnone : t.borrowed = []) :
    t.world.stock? = v.world.stock? := by
  -- What has been borrowed stays on the list, so nothing was borrowed before either.
  have hearly : v.borrowed = [] := by
    cases hmove with
    | goes _ => exact (List.append_eq_nil_iff.mp hnone).2
    | _ => exact hnone
  have hrest := (htold.untouched hearly).rest
  have hlent {c : ContextId} (hborrowed : v.borrowed = [c]) :
      t.world.stock? = v.world.stock? := by
    cases hearly.symm.trans hborrowed
  unfold Told at htold
  cases hmove with
  | goes hgoes =>
    cases hgoes with
    | turnsAway _ _ | misses _ _ | prepares _ _ | reports _ => rfl
    | asks _ hfound => exact World.ask_stock hfound
    | looks _ hfound => exact World.askAgain_stock hfound
    | @takes _ taken w _ hfound =>
      cases taken with
      | error failure => exact World.handOut_stock_refused hfound
      | ok c => cases hnone
    | polls hstage _ =>
      rw [hstage] at htold
      exact hlent htold.1.borrowed
    | enqueues hstage _ | announces hstage =>
      rw [hstage] at htold
      exact hlent htold.borrowed
  | enters _ _ _ => rfl
  | givesUp _ => exact World.giveUp_stock _ _
  | releases hstage _ _ =>
    rw [hstage] at htold
    exact hlent htold.1.borrowed
  -- After a release there was a context to release.
  | faults hstage =>
    rw [hstage] at htold
    obtain ⟨-, c, hgave⟩ := htold
    exact hlent hgave.borrowed
  | settles hleft _ | putsBack hleft _ | permits hleft => cases hleft.symm.trans hrest

end Visit

end SandboxPool
