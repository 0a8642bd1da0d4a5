import SandboxPool.Proofs.Pool.Opening
import SandboxPool.Proofs.Pool.Operations
import SandboxPool.Proofs.Program.Joining

/-!
# The callers of the program

`Program.runCallers` lets the callers begin one after another, carries each of them to its end when
its turn to be joined comes, and closes the pool. All this is one run of a `Hosting`
(`Hosting.runCallers_runs`): the calls that go on in between are steps of it, and so are the
contexts that go back when a call that was left on them is over. What holds of all runs, and so of
every order in which the callers come to their end, is `Hosting.callers_joined`.
-/

namespace SandboxPool
namespace World

variable {w w' : World} {c : ContextId} {place q : Nat} {scope : ScopeId} {e : Execution}

/-! ## Contexts on which no call was left -/

/-- No call was left on any context. -/
def Unladen (w : World) : Prop := ∀ c, (w.outline? c).bind Context.Outline.inFlight = none

theorem Unladen.of_outline (h : w.Unladen) (hsame : w'.outline? = w.outline?) : w'.Unladen := by
  unfold Unladen
  rw [hsame]
  exact h

/-- One who has got a permit takes a context, and leaves the others to themselves. -/
theorem handOut_unladen {taken : Outcome ContextId} (h : w.Unladen)
    (hfound : w.handOut place scope = (taken, w')) : w'.Unladen := by
  have houtline := handOut_outline hfound
  cases taken with
  | error e => exact h.of_outline houtline
  | ok c =>
    intro d
    rw [houtline]
    exact (marked_kept (f := .under scope) (·.bind Context.Outline.inFlight) (fun _ => rfl) d).trans
      (h d)

/-- Where a permit is free, one who borrows does not wait. -/
theorem borrow_of_spares {taken : Outcome ContextId} (h : w.Spares q 1)
    (hfound : w.borrow q scope = (taken, w')) :
    w.acquire q scope = (.answered taken, w') := by
  unfold borrow at hfound
  rcases hacquires : w.acquire q scope with ⟨borrowed, w₁⟩
  rw [hacquires] at hfound
  cases borrowed with
  | answered result =>
    obtain ⟨rfl, rfl⟩ := Prod.mk.inj hfound
    rfl
  -- With a permit to spare nobody is put in line.
  | waiting v =>
    unfold acquire at hacquires
    split at hacquires
    · rcases hasks : w.ask q scope with ⟨asked, w₂⟩
      rw [hasks] at hacquires
      rcases ask_spares h hasks with ⟨⟨cause, rfl⟩, -⟩ | ⟨rfl, -⟩ <;> cases hacquires
    · cases hacquires

/-- Looking for the first time at an execution, which is the first one on its context: its own call
is under way then, or it has ended. -/
theorem poll_fresh {late : Bool} {shut : List String} {polled : Polled} (hunladen : w.Unladen)
    (hfresh : e.phase = .fresh) (hfound : w.poll e late shut = (polled, w')) :
    w'.Unladen ∧ ∀ run, polled = .pending run → ∃ own, run.phase = .running own := by
  obtain ⟨w₁, hlook, hwent⟩ := pollWith_goOn hfound
  have hgoes (hunladen₁ : w₁.Unladen) : w'.Unladen := by
    rcases hwent with rfl | ⟨own, rfl⟩
    · exact hunladen₁
    · exact hunladen₁.of_outline (carryFor_carried GuestRun.budget shut own).outline
  have hmine : e.own? = none := by
    unfold Execution.own?
    rw [hfresh]
  rcases pollWith_looked hlook with ⟨-, ⟨result, rfl⟩, rfl⟩ | ⟨x, hhere, hlooked⟩
  · exact ⟨hgoes hunladen, fun run h => by cases h⟩
  · have hnone : e.awaits x = none := by
      have hrecord := hunladen e.context
      unfold outline? at hrecord
      rw [hhere] at hrecord
      unfold Execution.awaits
      rw [hfresh]
      exact hrecord
    -- What a look writes down about this context is that it has no call any more.
    have hmarked (houtline : w₁.outline? = w.marked e.context (.record Option.none)) :
        w₁.Unladen := by
      intro d
      rw [houtline]
      unfold World.marked
      split
      · cases w.outline? d <;> rfl
      · exact hunladen d
    -- No earlier call is awaited and none of its own is under way, so it begins or is refused.
    cases hlooked with
    | waits _ _ hawaits | givesUp _ _ hawaits => cases hnone.symm.trans hawaits
    | stays _ hown | joins _ hown | abandons _ hown => cases hmine.symm.trans hown
    | begins _ _ _ houtline _ =>
      refine ⟨hgoes (hmarked houtline), fun run h => ?_⟩
      obtain rfl := Polled.pending.inj h
      exact ⟨_, rfl⟩
    | refuses _ _ _ houtline _ => exact ⟨hgoes (hmarked houtline), fun run h => by cases h⟩

/-- A look at an execution whose own call is under way leaves it as it is. -/
theorem poll_running {late : Bool} {shut : List String} {own : CallId} {run : Execution}
    (hphase : e.phase = .running own) (hfound : w.poll e late shut = (.pending run, w')) :
    run = e := by
  cases pollWith_found hfound with
  | nobody _ hmine | earlier _ hmine => cases hmine.symm.trans (Execution.own?_eq_some.mpr hphase)
  | own _ _ hfound =>
    cases hfound with
    | waits => rfl

theorem pollFor_running {times : Nat} {shut : List String} {own : CallId} {run : Execution}
    (hphase : e.phase = .running own) (hfound : pollFor shut times w e = (.pending run, w')) :
    run = e := by
  induction times generalizing w with
  | zero => exact (Polled.pending.inj (Prod.mk.inj hfound).1).symm
  | succ times ih =>
    unfold pollFor at hfound
    rcases hlook : w.poll e false shut with ⟨polled, w₁⟩
    rw [hlook] at hfound
    cases polled with
    | done result => cases hfound
    | pending e' =>
      obtain rfl := poll_running hphase hlook
      exact ih hfound

/-- An execution whose own call is under way ends at its deadline at the latest. -/
theorem endsInTime_of_running {own : CallId} (hphase : e.phase = .running own) :
    w.EndsInTime e := by
  intro run w' hlooked
  obtain rfl := pollFor_running hphase hlooked
  exact w'.pollWith_running_late (carryOn []) hphase

end World

namespace Stage

variable {β : Type} {q : Nat} {scope : ScopeId} {callback : Callback β} {w w' : World}

/-! ## What a caller does in one go -/

theorem acquire_moves {taken : Outcome ContextId}
    (hfound : w.acquire q scope = (.answered taken, w')) :
    Moves q scope (w, outside callback) (w', ofTaken callback taken) := by
  cases hopen : w.isOpen q with
  | false =>
    rw [World.acquire_shut hopen] at hfound
    obtain ⟨hsame, rfl⟩ := Prod.mk.inj hfound
    obtain rfl := World.Borrowed.answered.inj hsame
    exact .single (.goes (.turnsAway rfl hopen))
  | true =>
    have hmoves : Moves q scope (w, asking callback) (w', ofTaken callback taken) :=
      (World.acquire_approaches hopen hfound).lift (fun a => (a.1, ofApplicant callback a.2))
        fun _ _ hmove => (Goes.of_approaches hmove callback).elim fun _ => .goes
    exact .head (.enters hopen) hmoves

theorem conclude_moves (w : World) (c : ContextId) (result : Outcome β) :
    Moves q scope (w, inside c (.ends (.returned result)))
      ((w.conclude q c (.returned result)).2,
        finished (some (.returned result)) (w.conclude q c (.returned result)).1) :=
  .tail (.single (.releases rfl)) (.goes (.reports rfl))

end Stage

namespace World

variable {w w' : World} {q : Nat} {scope : ScopeId}

theorem acquire_unladen {borrowed : Borrowed} (h : w.Unladen)
    (hfound : w.acquire q scope = (borrowed, w')) : w'.Unladen := by
  unfold acquire at hfound
  split at hfound
  · rcases hasks : w.ask q scope with ⟨asked, w₁⟩
    have hasked₁ : w₁.Unladen := h.of_outline (ask_steady hasks).outline
    rw [hasks] at hfound
    cases asked with
    | refused cause | inLine v =>
      obtain ⟨-, rfl⟩ := Prod.mk.inj hfound
      exact hasked₁
    | permitted =>
      rcases htakes : w₁.handOut q scope with ⟨result, w₂⟩
      unfold answer at hfound
      dsimp only at hfound
      rw [htakes] at hfound
      obtain ⟨-, rfl⟩ := Prod.mk.inj hfound
      exact handOut_unladen hasked₁ htakes
  · obtain ⟨-, rfl⟩ := Prod.mk.inj hfound
    exact h

end World

/-! ## One caller -/

/-- What every caller does with its context: it calls the export and reports what comes of it. -/
def Program.calls (function : String) (_ : Nat) : Callback (List Value) :=
  .executes function [] fun result => .ends (.returned result)

/-- The words for the failure of a caller. -/
def Program.failed (function : String) : String := "export '" ++ function ++ "' failed"

namespace Caller

/-- How far a caller has come. -/
def stage (caller : Caller) : Stage (List Value) :=
  match caller.state with
  | .error e => .finished none (.error e)
  | .ok (c, polled) => .ofPolled c (fun result => .ends (.returned result)) polled

/-- A caller as the program sees it. -/
def seat (caller : Caller) : Seat := ⟨caller.number, caller.scope, caller.stage⟩

/-- If it waits for an execution, the execution's own call is under way. -/
def Begun (caller : Caller) : Prop :=
  ∀ c run, caller.state = .ok (c, .pending run) → ∃ own, run.phase = .running own

end Caller

namespace Hosting

variable {q n : Nat} {words function : String} {callback : Nat → Callback (List Value)}
  {s t : Hosting} {l r : List Seat} {seat : Seat} {w w' : World} {c : ContextId} {e : Execution}
  {next : Outcome (List Value) → Callback (List Value)}

/-- A caller attends to its execution as anybody does. -/
theorem attends_runs {a b : World × Polled} (hrun : Relation.ReflTransGen World.Attends a b) :
    Runs q words callback (s.placed l seat r (a.1, .ofPolled c next a.2))
      (s.placed l seat r (b.1, .ofPolled c next b.2)) := by
  let waits (a : World × Polled) : Hosting := s.placed l seat r (a.1, .ofPolled c next a.2)
  have hone {a b : World × Polled} (hmove : World.Attends a b) :
      Runs q words callback (waits a) (waits b) := by
    rcases Stage.Goes.of_attends hmove c next with ⟨notes, hgoes⟩ | ⟨hbackground, hsame⟩
    · exact placed_runs (.single (.goes hgoes))
    · obtain ⟨w, polled⟩ := b
      obtain rfl : polled = a.2 := hsame
      exact .single (.background hbackground)
  exact hrun.lift' waits fun _ _ => hone

theorem startCaller_runs (words : String) {number : Nat} {due : List Nat} {caller : Caller}
    (hfollowing : s.due = number :: due) (hspares : s.world.Spares q 1) (hunladen : s.world.Unladen)
    (hfound : s.world.startCaller q function number = (caller, w)) :
    Runs q words (Program.calls function) s
        { s with world := w, due, seats := s.seats ++ [caller.seat] } ∧
      w.Unladen ∧ caller.Begun := by
  let w₀ := s.world.freshScope.2
  let scope := s.world.nextScope
  let seat : Seat := ⟨number, scope, .outside (Program.calls function number)⟩
  -- From here on the caller is one seat, and each operation one run of that seat.
  have hunladen₀ : w₀.Unladen := hunladen.of_outline rfl
  have hspawned : Runs q words (Program.calls function) s
      (placed { s with due } s.seats seat [] (w₀, seat.stage)) := .single (.spawns hfollowing)
  unfold World.startCaller at hfound
  rcases hborrows : w₀.borrow q scope with ⟨taken, w₁⟩
  have hborrows' : (s.world.freshScope.2).borrow q s.world.freshScope.1 = (taken, w₁) := hborrows
  have hacquires := World.borrow_of_spares (w := w₀) hspares hborrows
  have hunladen₁ := World.acquire_unladen hunladen₀ hacquires
  have hborrowed := hspawned.trans (placed_runs (Stage.acquire_moves hacquires))
  dsimp only at hfound
  rw [hborrows'] at hfound
  cases taken with
  | error failure =>
    obtain ⟨rfl, rfl⟩ := Prod.mk.inj hfound
    exact ⟨hborrowed, hunladen₁, fun c run h => by cases h⟩
  | ok c =>
    dsimp only at hfound
    cases hprepared : w₁.prepare c function [] with
    | error failure =>
      rw [hprepared] at hfound
      obtain ⟨rfl, rfl⟩ := Prod.mk.inj hfound
      have hmissed := hborrowed.trans (placed_runs (.single (.goes (.misses rfl hprepared))))
      exact ⟨hmissed, hunladen₁, fun c run h => by cases h⟩
    | ok e =>
      rw [hprepared] at hfound
      rcases hlooks : w₁.poll e false [] with ⟨polled, w₂⟩
      dsimp only at hfound
      rw [hlooks] at hfound
      obtain ⟨rfl, rfl⟩ := Prod.mk.inj hfound
      obtain rfl := World.prepare_eq hprepared
      -- The first look begins the call, since the context has no earlier one.
      obtain ⟨hunladen₂, hbegun⟩ := World.poll_fresh hunladen₁ rfl hlooks
      have hprepares := hborrowed.trans (placed_runs (.single (.goes (.prepares rfl hprepared))))
      refine ⟨hprepares.trans (attends_runs (World.poll_attends hlooks)), hunladen₂,
        fun c run h => ?_⟩
      exact hbegun run (Prod.mk.inj (Except.ok.inj h)).2

/-- The callers begin one after another. -/
theorem startCallers_runs (words : String) {callers : List Caller} (hrunning : s.exit = none)
    (hsupplied : s.Supplied q) (hunladen : s.world.Unladen)
    (hfound : World.startCallers q function s.due s.world = (callers, w)) :
    Runs q words (Program.calls function) s
        { s with world := w, due := [], seats := s.seats ++ callers.map Caller.seat } ∧
      ∀ caller ∈ callers, caller.Begun := by
  generalize hnumbers : s.due = due at hfound
  induction due generalizing s callers with
  | nil =>
    obtain ⟨rfl, rfl⟩ := Prod.mk.inj hfound
    obtain ⟨world, _, seats, joined, outcomes, exit⟩ := s
    obtain rfl := hnumbers
    rw [List.map_nil, List.append_nil]
    exact ⟨.refl, List.forall_mem_nil _⟩
  | cons number due ih =>
    unfold World.startCallers at hfound
    rcases hfirst : s.world.startCaller q function number with ⟨caller, w₁⟩
    rcases hothers : World.startCallers q function due w₁ with ⟨rest, w₂⟩
    rw [hfirst] at hfound
    dsimp only at hfound
    rw [hothers] at hfound
    obtain ⟨rfl, rfl⟩ := Prod.mk.inj hfound
    -- there is a permit for all that are due, and so for the first of them
    have hpermit : s.world.Spares q 1 := by
      refine hsupplied.spares.mono ?_
      unfold demand
      rw [hnumbers, List.length_cons]
      omega
    obtain ⟨hbegins, hunladen₁, hbegun⟩ := startCaller_runs words hnumbers hpermit hunladen hfirst
    have hsupplied₁ := hbegins.supplied (fun _ => hsupplied) hrunning
    obtain ⟨hbegin', hbegun'⟩ := ih
      (s := { s with world := w₁, due, seats := s.seats ++ [caller.seat] })
      hrunning hsupplied₁ hunladen₁ rfl hothers
    refine ⟨hbegins.trans ?_, List.forall_mem_cons.mpr ⟨hbegun, hbegun'⟩⟩
    rw [List.append_assoc] at hbegin'
    exact hbegin'

/-- A caller is carried to its end. -/
theorem finishCaller_runs {caller : Caller} {result : Outcome (List Value)} (hbegun : caller.Begun)
    (hfound : w.finishCaller q caller = (result, w')) :
    ∃ ended, Runs q words callback (s.placed l seat r (w, caller.stage))
      (s.placed l seat r (w', .finished ended result)) := by
  unfold World.finishCaller at hfound
  unfold Caller.stage
  -- Three ways to have started: no context, an answer at the first look, or a call that runs on.
  rcases hstate : caller.state with failure | ⟨c, result' | run⟩
  · rw [hstate] at hfound
    obtain ⟨rfl, rfl⟩ := Prod.mk.inj hfound
    exact ⟨none, .refl⟩
  · rw [hstate] at hfound
    obtain ⟨rfl, rfl⟩ := Prod.mk.inj hfound
    exact ⟨_, placed_runs (Stage.conclude_moves w c result')⟩
  · obtain ⟨own, hphase⟩ := hbegun c run hstate
    rw [hstate] at hfound
    rcases hdrives : w.drive run with ⟨result', w₁⟩
    dsimp only at hfound
    rw [hdrives] at hfound
    obtain ⟨rfl, rfl⟩ := Prod.mk.inj hfound
    let next (result : Outcome (List Value)) : Callback (List Value) := .ends (.returned result)
    have hdriven : Runs q words callback (s.placed l seat r (w, .executing c run next))
        (s.placed l seat r (w₁, .inside c (next result'))) :=
      attends_runs (World.drive_attends (World.endsInTime_of_running hphase) hdrives)
    exact ⟨_, hdriven.trans (placed_runs (Stage.conclude_moves w₁ c result'))⟩

/-- The callers are joined in the order in which they began. -/
theorem joinCallers_runs (words : String) (callback : Nat → Callback (List Value))
    {callers : List Caller} {joined : Joined} (hall : s.due = [])
    (hseats : s.seats = callers.map Caller.seat) (hbegun : ∀ caller ∈ callers, caller.Begun)
    (hfound : World.joinCallers q callers s.joined s.world = (joined, w)) :
    ∃ t, Runs q words callback s t ∧ t.world = w ∧ t.joined = joined ∧ t.due = [] ∧
      t.seats = [] ∧ t.exit = s.exit := by
  -- Callers are joined in the order of their numbers, one seat after the other.
  induction callers generalizing s with
  | nil =>
    obtain ⟨rfl, rfl⟩ := Prod.mk.inj hfound
    exact ⟨s, .refl, rfl, rfl, hall, hseats, rfl⟩
  | cons caller rest ih =>
    obtain ⟨hfirst, hothers⟩ := List.forall_mem_cons.mp hbegun
    unfold World.joinCallers at hfound
    rcases hfinishes : s.world.finishCaller q caller with ⟨result, w₁⟩
    rw [hfinishes] at hfound
    dsimp only at hfound
    let place := s.placed [] caller.seat (rest.map Caller.seat)
    obtain ⟨ended, hfinished⟩ : ∃ ended, Runs q words callback
        (place (s.world, caller.seat.stage)) (place (w₁, .finished ended result)) :=
      finishCaller_runs hfirst hfinishes
    rw [show place (s.world, caller.seat.stage) = s from placed_self hseats] at hfinished
    have hjoins := hfinished.tail (.joins (l := []) hall rfl rfl)
    -- The first failure fires the scopes of all who are left.
    have hfires (w : World) : (rest.foldl (fun w c => w.fire c.scope) w) =
        w.fireAll ((rest.map Caller.seat).map Seat.scope) := by
      unfold World.fireAll
      rw [List.map_map, List.foldl_map]
      rfl
    rw [hfires] at hfound
    obtain ⟨t, hrun, hworld, hsame, hdue, hnone, hexit⟩ := ih
      (s := (place (w₁, .finished ended result)).join caller.number result
        (rest.map Caller.seat)) hall rfl hothers hfound
    exact ⟨t, hjoins.trans hrun, hworld, hsame, hdue, hnone, hexit⟩

/-! ## The program -/

/-- A pool that was made has a permit for each caller at a time that its options allow. -/
theorem supplied_start {o : PoolOptions} {hosted : Bool} (hunused : w.Unused)
    (hmade : w.openPool o hosted = (.ok q, w')) : (start w' o.concurrency).Supplied q where
  spares := by
    obtain ⟨p, hhere, -, -, hidle, -⟩ := World.openPool_pool hmade
    have hfresh : w'.Fresh := by
      have hafter := (hunused.openPool o hosted).fresh
      rwa [hmade] at hafter
    refine ⟨p.front, ?_, ?_⟩
    · unfold World.front?
      rw [show (start w' o.concurrency).world = w' from rfl, hhere]
      rfl
    · have hdemand : (start w' o.concurrency).demand = o.concurrency := by simp [demand, start]
      rw [(hfresh.pool hhere).1, hdemand, ← hidle]
      exact ⟨rfl, rfl, rfl, Nat.le_refl _⟩
  free := List.forall_mem_nil _

/-- What the program does with a pool in one go is a run. -/
theorem runCallers_runs {config : HostConfig} {module : List UInt8} (hunused : w.Unused)
    (hmade : w.openPool (Program.poolOptions config module) true = (.ok q, w')) :
    ∃ t, Runs q (Program.failed function) (Program.calls function)
        (start w' config.pool.concurrency) t ∧
      t.exit = some (Program.runCallers config function module w).1 ∧
      t.world = (Program.runCallers config function module w).2 := by
  -- A pool that has just been opened holds no record of a call.
  have hunladen : w'.Unladen := by
    have hfresh := (hunused.openPool (Program.poolOptions config module) true).fresh
    rw [hmade] at hfresh
    intro c
    unfold World.outline?
    cases hthere : w'.contexts[c]? with
    | none => rfl
    | some x => exact (hfresh.unused hthere).1
  unfold Program.runCallers
  rw [hmade]
  dsimp only
  rcases hstarts : World.startCallers q function (List.range config.pool.concurrency) w' with
    ⟨callers, w₁⟩
  obtain ⟨hbegins, hbegun⟩ := startCallers_runs (Program.failed function)
    (s := start w' config.pool.concurrency) rfl (supplied_start hunused hmade) hunladen hstarts
  rcases hjoins : World.joinCallers q callers .nobody w₁ with ⟨joined, w₂⟩
  obtain ⟨t, hrun, rfl, rfl, hall, hnone, hexit⟩ := joinCallers_runs (Program.failed function)
    (Program.calls function)
    (s := ⟨w₁, [], [] ++ callers.map Caller.seat, .nobody, [], Option.none⟩) rfl rfl hbegun hjoins
  have hends := (hbegins.trans hrun).tail (.exits hall hnone hexit)
  refine ⟨t.finish q (Program.failed function), hends, ?_⟩
  unfold finish verdict Program.failed
  dsimp only
  cases t.joined.failure <;> exact ⟨rfl, rfl⟩

/-- What is true of the program with so many callers at a moment `t` of a run from `s`. -/
structure Orderly (q n : Nat) (words : String) (callback : Nat → Callback (List Value))
    (s t : Hosting) : Prop where
  /-- Every caller has been joined, is under way or is due, and only one of these. -/
  everyone : (t.outcomes.map Prod.fst ++ (t.seats.map Seat.number ++ t.due)).Perm (List.range n)
  /-- The pool is open until the program comes to its end, with what every caller came to. -/
  collected : t.world.closed? q = some t.exit.isSome ∧
    (t.exit.isSome → (t.outcomes.map Prod.fst).Perm (List.range n))
  /-- It ends well exactly if all callers did. -/
  succeeds : ∀ v, t.exit = some v → (v = .ok () ↔ ∀ o ∈ t.outcomes, Joined.Succeeded o)
  /-- If it does not, it reports the failure of the caller that was the first to fail among those
  joined. -/
  fails : ∀ reported, t.exit = some (.error reported) → ∃ earlier number e later,
    t.outcomes = earlier ++ (number, .error e) :: later ∧ (∀ o ∈ earlier, Joined.Succeeded o) ∧
      reported = .inContext words e
  /-- No scope fires before a caller was joined that failed, and then all others' scopes do. -/
  fired : (t.world.fired ≠ [] → ∃ o ∈ t.outcomes, ¬ Joined.Succeeded o) ∧
    ∀ o ∈ t.outcomes, ¬ Joined.Succeeded o → ∀ seat ∈ t.seats, seat.scope ∈ t.world.fired
  /-- That first failure arose before any scope fired: at a moment of the run at which none had, nor
  before, its caller had come to its end with it. -/
  produced : ∀ {earlier number e later}, t.outcomes = earlier ++ (number, .error e) :: later →
    (∀ o ∈ earlier, Joined.Succeeded o) → ∃ u,
      Runs q words callback s u ∧ Runs q words callback u t ∧ u.outcomes = earlier ∧
      (∀ v, Runs q words callback v u → v.world.fired = []) ∧
      ∃ seat ∈ u.seats, seat.number = number ∧ ∃ ended, seat.stage = .finished ended (.error e)

theorem Runs.orderly (hrun : Runs q words callback s t) (h : s.Lawful q n words)
    (hbegun : s.outcomes = []) : Orderly q n words callback s t where
  -- The fields are what every run keeps, read at its end.
  everyone := (hrun.lawful h).everyone
  collected := by
    have hlaw := hrun.lawful h
    refine ⟨hlaw.closed, fun hended => ?_⟩
    obtain ⟨v, hexit⟩ := Option.isSome_iff_exists.mp hended
    obtain ⟨hdue, hseats, -⟩ := hlaw.exits v hexit
    have hall := hlaw.everyone
    rw [hdue, hseats] at hall
    simpa using hall
  succeeds v hexit := by
    rw [((hrun.lawful h).exits v hexit).2.2]
    rcases Joined.of_cases t.outcomes with
      ⟨hall, hsame⟩ | ⟨earlier, number, e, later, hjoined, -, hsame⟩
    · rw [hsame]
      exact ⟨fun _ => hall, fun _ => rfl⟩
    · rw [hsame]
      refine ⟨fun hwrong => (by cases hwrong), fun hall => ?_⟩
      obtain ⟨values, hwrong⟩ := hall (number, .error e) (by simp [hjoined])
      cases hwrong
  fails reported hexit := by
    have hsame := ((hrun.lawful h).exits _ hexit).2.2
    rcases Joined.of_cases t.outcomes with
      ⟨-, hnone⟩ | ⟨earlier, number, e, later, hjoined, hall, hsome⟩
    · rw [hnone] at hsame
      cases hsame
    · rw [hsome] at hsame
      exact ⟨earlier, number, e, later, hjoined, hall, Except.error.inj hsame⟩
  fired := by
    have hlaw := hrun.lawful h
    refine ⟨fun hsome => ?_, hlaw.reached⟩
    by_contra hnone
    push Not at hnone
    exact hsome (hlaw.quiet hnone)
  produced := hrun.produced h hbegun

/-- Let the program send off any number of callers to run any callbacks with contexts of a pool
that is open, in any order and with everything else in between. At every moment of every run each
caller is joined, under way or due; the pool is open until all have been joined; the program ends
well exactly if all callers did, and otherwise reports the failure of the first one that failed
among those joined, in the order of joining; no scope fires before that one was joined, so its
failure arose before any scope had fired. If the pool has a permit for each of them, every order of
joining is possible, wherever the program stands. What the program does in one go with a pool that
it has made is such a run, and the pool has a permit for each of its callers. -/
theorem callers_joined (hopened : w.closed? q = some false) (hunfired : w.fired = []) (n : Nat)
    (words : String) (callback : Nat → Callback (List Value)) :
    (∀ t, Runs q words callback (start w n) t →
      Orderly q n words callback (start w n) t) ∧
    (w.Spares q n → ∀ t, Runs q words callback (start w n) t → t.exit = none →
      ∀ order : List Nat, order.Perm (t.seats.map Seat.number ++ t.due) →
        ∃ u, Runs q words callback t u ∧ u.exit.isSome ∧
          u.outcomes.map Prod.fst = t.outcomes.map Prod.fst ++ order) ∧
    ∀ {w₀ : World} {config : HostConfig} {function : String} {module : List UInt8}, w₀.Unused →
      w₀.openPool (Program.poolOptions config module) true = (.ok q, w) →
      w.Spares q config.pool.concurrency ∧
      ∃ t, Runs q (Program.failed function) (Program.calls function)
          (start w config.pool.concurrency) t ∧
        t.exit = some (Program.runCallers config function module w₀).1 ∧
        t.world = (Program.runCallers config function module w₀).2 := by
  have hdemand (n : Nat) : (start w n).demand = n := by simp [demand, start]
  refine ⟨fun t hrun => hrun.orderly (lawful_start hopened hunfired) rfl, ?_, ?_⟩
  · intro hspares t hrun hrunning order hperm
    have hsupplied : (start w n).Supplied q :=
      ⟨(hdemand n).symm ▸ hspares, List.forall_mem_nil _⟩
    exact completes hrunning (hrun.supplied (fun _ => hsupplied) hrunning) hperm
  · intro w₀ config function module hunused hmade
    have hspares := (supplied_start hunused hmade).spares
    rw [hdemand] at hspares
    exact ⟨hspares, runCallers_runs hunused hmade⟩

/-- Two callers share one context. The first panics while the second stands in line, and is joined.
The second finds that its scope has fired, and is joined too. -/
theorem cancelled_after_panic (guest : GuestInstance) (services : Services) (words : String) :
    ∃ t, Runs 0 words (fun _ => .ends (.panicked "boom"))
        (start (World.ofGuest guest services) 2) t ∧
      t.outcomes = [(0, refuse (.fault "boom")), (1, refuse .cancelled)] ∧
      t.exit = some (.error (.inContext words ⟨.fault "boom", []⟩)) := by
  have hrun : Runs 0 words (fun _ => .ends (.panicked "boom"))
    (start (World.ofGuest guest services) 2) _ := .single (.spawns rfl)
  have hrun := hrun.tail (.spawns rfl)
  have hrun := hrun.tail (.moves (l := []) rfl (.enters rfl))
  have hrun := hrun.tail (.moves (l := []) rfl (.goes (.asks rfl rfl)))
  have hrun := hrun.tail (.moves (l := []) rfl (.goes (.takes rfl rfl)))
  have hrun := hrun.tail (.moves (l := [_]) (r := []) rfl (.enters rfl))
  have hrun := hrun.tail (.moves (l := [_]) (r := []) rfl (.goes (.asks rfl rfl)))
  -- The first caller panics and is joined; the second, still in line, is cancelled.
  have hrun := hrun.tail (.moves (l := []) rfl (.releases rfl))
  have hrun := hrun.tail (.moves (l := []) rfl (.faults default))
  have hrun := hrun.tail (.joins (l := []) rfl rfl rfl)
  have hrun := hrun.tail (.moves (l := []) rfl (.goes (.looks rfl rfl)))
  have hrun := hrun.tail (.joins (l := []) rfl rfl rfl)
  have hrun := hrun.tail (.exits rfl rfl rfl)
  exact ⟨_, hrun, rfl, rfl⟩

/-- Settings for two callers at a time. -/
def pair : HostConfig :=
  ⟨{ PoolSection.standard with concurrency := 2 }, .standard, .standard, .counted⟩

/-- A world with one module, whose export does nothing. -/
def idleWorld : World := .ofEngine (.scripts [⟨"g", some 1, [], [("test", [])]⟩]) default

/-- The failure that is reported is the panic, which was there before any scope had fired. And a
pool as the program makes it for two callers: the program in one go is a run, and there is another
one that joins the second caller first. -/
theorem callers_joined_two :
    (∃ (w : World) (callback : Nat → Callback (List Value)) (t u : Hosting),
      Runs 0 "failed" callback (start w 2) u ∧ Runs 0 "failed" callback u t ∧
      t.outcomes = [(0, refuse (.fault "boom")), (1, refuse .cancelled)] ∧
      t.exit = some (.error (.inContext "failed" ⟨.fault "boom", []⟩)) ∧ u.world.fired = [] ∧
      ∃ seat ∈ u.seats, ∃ ended, seat.stage = .finished ended (refuse (.fault "boom"))) ∧
    ∃ (w : World) (t u : Hosting), idleWorld.Unused ∧
      idleWorld.openPool (Program.poolOptions pair [103]) true = (.ok 0, w) ∧
      Runs 0 "export 'test' failed" (Program.calls "test") (start w 2) t ∧
      t.exit = some (Program.runCallers pair "test" [103] idleWorld).1 ∧
      Runs 0 "export 'test' failed" (Program.calls "test") (start w 2) u ∧ u.exit.isSome ∧
      u.outcomes.map Prod.fst = [1, 0] := by
  constructor
  -- A callback that panics, and a program of two callers joined in the opposite order.
  · let guest : GuestInstance := .script ⟨"guest", none, [], [("run", [])]⟩ none .empty
    obtain ⟨t, hrun, houtcomes, hexit⟩ := cancelled_after_panic guest default "failed"
    obtain ⟨horderly, -, -⟩ := callers_joined (w := .ofGuest guest default) (q := 0) rfl rfl 2
      "failed" fun _ => .ends (.panicked "boom")
    have hfirst : t.outcomes = [] ++ (0, refuse (.fault "boom")) :: [(1, refuse .cancelled)] :=
      houtcomes
    obtain ⟨u, hbefore, hafter, -, hquiet, seat, hmember, -, hended⟩ :=
      (horderly t hrun).produced hfirst (List.forall_mem_nil _)
    exact ⟨_, _, t, u, hbefore, hafter, houtcomes, hexit, hquiet u .refl, seat, hmember, hended⟩
  · have hunused : idleWorld.Unused := World.ofEngine_unused _ _
    obtain ⟨w, hmade⟩ : ∃ w,
        idleWorld.openPool (Program.poolOptions pair [103]) true = (.ok 0, w) :=
      ⟨_, rfl⟩
    obtain ⟨p, hhere, -, hopened, -⟩ := World.openPool_pool hmade
    have hclosed : w.closed? 0 = some false :=
      (World.closed?_eq hhere).trans (congrArg some hopened)
    have hfresh := (hunused.openPool (Program.poolOptions pair [103]) true).fresh
    rw [hmade] at hfresh
    obtain ⟨-, hordered, hinOneGo⟩ :=
      callers_joined hclosed hfresh.quiet.2.2 2 "export 'test' failed"
      (Program.calls "test")
    obtain ⟨hspares, t, hrun, hexit, -⟩ := @hinOneGo _ _ "test" _ hunused hmade
    have hswapped : [1, 0].Perm (List.range 2) := by decide
    obtain ⟨u, hother, hdone, horder⟩ := hordered hspares _ .refl rfl [1, 0] hswapped
    exact ⟨w, t, u, hunused, hmade, hrun, hexit, hother, hdone, horder⟩

end Hosting
end SandboxPool
