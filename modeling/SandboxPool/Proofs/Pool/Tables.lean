import SandboxPool.Proofs.Handle.Generations
import SandboxPool.Proofs.Pool.Cancellation
import SandboxPool.Proofs.Pool.Opening

/-!
# What becomes of a context's handles

The handle table of a context changes in two ways only (`Scene.Step.handled`). Whoever has the
context, or a call on it that goes on, stores and drops buffers; and on the context's way back to
the queue the table is reset. So an idle context has no buffers (`Scene.Clean`), and nothing else
of its last borrower is left on it either.
-/

namespace SandboxPool

/-- A table in which nothing was stored since it was made or reset last. -/
def HandleTable.Bare (t : HandleTable) : Prop := t = ⟨t.generation, #[], []⟩

theorem HandleTable.reset_bare (t : HandleTable) : t.reset.Bare := rfl

namespace World

/-- The handle table of the context with a number. -/
def table? (w : World) (c : ContextId) : Option HandleTable :=
  (w.contexts[c]?).map Context.handles

variable {w w' : World} {place : Nat} {c d : ContextId} {scope : ScopeId} {id : CallId}
  {e : Execution} {late : Bool} {polled : Polled}

/-! ## Operations that leave all tables alone -/

theorem table?_of_contexts (hsame : w'.contexts = w.contexts) : w'.table? = w.table? := by
  funext d
  unfold table?
  rw [hsame]

theorem Steady.table (h : w.Steady w') : w'.table? = w.table? := table?_of_contexts h.contexts

theorem modifyContext_table (f : Context → Context) (d : ContextId) :
    (w.modifyContext c f).table? d =
      if d = c then (w.contexts[d]?).map fun x => (f x).handles else w.table? d := by
  unfold table?
  rw [modifyContext_contexts]
  split
  · rw [Option.map_map]
    rfl
  · rfl

/-- A change of something else on a context. -/
theorem modifyContext_table_kept {f : Context → Context} (hkept : ∀ x, (f x).handles = x.handles) :
    (w.modifyContext c f).table? = w.table? := by
  funext d
  rw [modifyContext_table]
  by_cases hd : d = c
  · rw [if_pos hd]
    unfold table?
    exact congrArg (Option.map · w.contexts[d]?) (funext hkept)
  · rw [if_neg hd]

theorem handOut_table {taken : Outcome ContextId} (hfound : w.handOut place scope = (taken, w')) :
    w'.table? = w.table? := by
  rcases handOut_cases hfound with
    ⟨-, -, rfl⟩ | ⟨p, p', -, -, ⟨e, -, rfl⟩ | ⟨c, event, -, rfl⟩⟩
  · rfl
  · rfl
  · exact modifyContext_table_kept (w := w.setPool place (p'.count Counters.lend)) fun _ => rfl

theorem letGo_table {record : Option CallId} (hfound : w.letGo c = (record, w')) :
    w'.table? = w.table? := by
  obtain ⟨-, rfl⟩ := Prod.mk.inj hfound
  exact modifyContext_table_kept (w := { w with nextScope := w.nextScope + 1 }) fun _ => rfl

theorem table_blind : Blind table? where
  count w c g := (count_steady (w := w) c g).table
  record _ _ _ := modifyContext_table_kept fun _ => rfl
  log _ _ := rfl
  calls _ _ := rfl

/-- A look at an execution begins calls and records them, and stores no buffers. -/
theorem pollWith_table (hfound : w.pollWith (fun w _ => w) e late = (polled, w')) :
    w'.table? = w.table? := table_blind.pollWith hfound

/-! ## Operations that change a table -/

/-- A context that comes back gets its table reset. -/
theorem enqueue_table {returned : Option Pool.Returned}
    (hfound : w.enqueue place c = (returned, w')) (d : ContextId) :
    w'.table? d = if d = c then (w.table? d).map HandleTable.reset else w.table? d := by
  have hcleared : (w.clear c).table? d =
      if d = c then (w.table? d).map HandleTable.reset else w.table? d := by
    unfold clear
    dsimp only [freshScope]
    rw [modifyContext_table]
    unfold table?
    rw [Option.map_map]
    rfl
  rcases enqueue_cases hfound with ⟨-, -, rfl⟩ |
    ⟨p, got, p', -, -, -, ⟨-, event, rfl⟩ | ⟨-, rfl⟩⟩ <;> exact hcleared

/-- A call that has ended does not go on. -/
theorem carryFor_of_ended (hpast : (w.ended? id).isSome) (fuel : GuestRun → Nat)
    (shut : List String) : w.carryFor fuel shut id = w := by
  obtain ⟨r, hpast⟩ := Option.isSome_iff_exists.mp hpast
  obtain ⟨call, hfound, hstate⟩ := ended?_eq_some.mp hpast
  unfold carryFor
  simp only [hfound, hstate]

/-- A call that goes on changes the table of the context it runs on, as guests change tables. -/
theorem carryFor_table (fuel : GuestRun → Nat) (shut : List String) (id : CallId) :
    (w.carryFor fuel shut id).table? = w.table? ∨
      ∃ c table table', w.site? id = some c ∧ w.ended? id = none ∧ w.table? c = some table ∧
        table.Worked table' ∧
          ∀ d, (w.carryFor fuel shut id).table? d = if d = c then some table' else w.table? d := by
  cases hpast : w.ended? id with
  | some r =>
    left
    rw [carryFor_of_ended (by rw [hpast]; rfl)]
  -- A call that is alive is carried by a slice of its guest, which works on the table of its home.
  | none =>
    have hsliced := w.carryFor_sliced HostState.stores_law fuel shut id
    generalize w.carryFor fuel shut id = w' at hsliced ⊢
    cases hsliced with
    | idle => exact .inl rfl
    | @slice call x g h state hfound hthere hkept =>
      right
      have hsite : w.site? id = some call.home := congrArg (Option.map Call.home) hfound
      have hhere : w.table? call.home = some x.handles :=
        congrArg (Option.map Context.handles) hthere
      refine ⟨call.home, x.handles, h.handles, hsite, rfl, hhere, hkept, fun d => ?_⟩
      show (w.absorb call.home g h).table? d = _
      unfold absorb
      rw [modifyContext_table]
      by_cases hd : d = call.home
      · rw [if_pos hd, if_pos hd, hd]
        exact congrArg (Option.map _) hthere
      · rw [if_neg hd, if_neg hd]
        rfl

/-- A context that is let go has no record any more. -/
theorem letGo_inFlight? {record : Option CallId} (hfound : w.letGo c = (record, w')) :
    w'.inFlight? c = none := by
  unfold inFlight?
  rw [letGo_outline hfound]
  unfold marked
  rw [if_pos rfl]
  cases w.outline? c <;> rfl

end World

namespace Task

variable {task other : Task} {tasks l us r : List Task}

/-- Where one task moves, the others stay. -/
theorem mem_of_ne (hbefore : tasks = l ++ task :: r) (hmember : other ∈ tasks)
    (hothers : other ≠ task) (us : List Task) : other ∈ l ++ us ++ r := by
  rcases eq_or_rest hbefore hmember with hsame | hrest
  · exact absurd hsame hothers
  · exact mem_among.mpr (.inr hrest)

end Task

namespace Scene

variable {s t : Scene} {c : ContextId} {table table' : HandleTable}

/-- What a step makes of the handle table of a context. -/
inductive Handled (s t : Scene) (c : ContextId) (table : HandleTable) : HandleTable → Prop where
  /-- Nothing. -/
  | stays (hreturns : ∀ q, .returning q c ∈ s.tasks → .returning q c ∈ t.tasks) :
      Handled s t c table table
  /-- Whoever has the context stores and drops buffers, or a call on it that goes on does. -/
  | works {ops table'} (htasks : t.tasks = s.tasks)
      (hused : (∃ q scope, s.Lent q scope c) ∨
        ∃ id, s.world.owner? id = some c ∧ s.world.ended? id = none)
      (hrun : table.Run ops table') : Handled s t c table table'
  /-- It is reset, on the context's way back to the queue. -/
  | clears {q} (hreturns : .returning q c ∈ s.tasks)
      (hgone : ∀ task ∈ t.tasks, task.context? ≠ some c) : Handled s t c table table.reset

/-- What whoever has a context does to its table are operations on tables. -/
theorem touched_run {x y : Context} (htouched : x.Touched y) :
    ∃ ops, x.handles.Run ops y.handles := by
  cases htouched with
  | insert hstored => exact ⟨_, .insert hstored (.nil _)⟩
  | discard handle => exact ⟨_, .discard (.nil _)⟩
  | write memory => exact ⟨[], .nil _⟩

/-- Every table after a step came of one before it in one of these ways. -/
theorem Step.handled (hstep : Step s t) (h : s.Reachable)
    (hthere : t.world.table? c = some table') :
    ∃ table, s.world.table? c = some table ∧ s.Handled t c table table' := by
  have hstays (hsame : t.world.table? = s.world.table?)
      (hreturns : ∀ q, .returning q c ∈ s.tasks → .returning q c ∈ t.tasks) :
      ∃ table, s.world.table? c = some table ∧ s.Handled t c table table' :=
    ⟨table', by rw [← hsame, hthere], .stays hreturns⟩
  cases hstep with
  | scope | fire _ | gate _ | elsewhere _ | fault _ => exact hstays rfl fun _ hmember => hmember
  | carry id fuel shut =>
    rcases World.carryFor_table (w := s.world) (fun _ => fuel) shut id with hsame |
      ⟨d, before, after, hsited, hlive, hhere, ⟨ops, hrun, -⟩, hchanged⟩
    · exact hstays hsame fun _ hmember => hmember
    · have howned : s.world.owner? id = some d := h.homely.calls ▸ hsited
      rw [hchanged] at hthere
      by_cases hd : c = d
      · rw [if_pos hd] at hthere
        subst hd
        obtain rfl := Option.some.inj hthere
        exact ⟨before, hhere, .works rfl (.inr ⟨id, howned, hlive⟩) hrun⟩
      · rw [if_neg hd] at hthere
        exact ⟨table', hthere, .stays fun _ hmember => hmember⟩
  | enter _ _ _ => exact hstays rfl fun _ hmember => .tail _ hmember
  | ask htask hfound =>
    exact hstays (World.ask_steady hfound).table fun _ hmember =>
      Task.mem_of_ne htask hmember nofun _
  | look htask hfound =>
    exact hstays (World.askAgain_steady hfound).table fun _ hmember =>
      Task.mem_of_ne htask hmember nofun _
  | @giveUp l r place scope v htask =>
    refine hstays rfl fun _ hmember => ?_
    rw [← List.append_nil l]
    exact Task.mem_of_ne htask hmember nofun []
  | take htask hfound =>
    exact hstays (World.handOut_table hfound) fun _ hmember => Task.mem_of_ne htask hmember nofun _
  | @touch place scope d execution x y htask hfound htouched =>
    rw [World.modifyContext_table] at hthere
    by_cases hd : c = d
    · subst hd
      rw [if_pos rfl, hfound] at hthere
      obtain rfl := Option.some.inj hthere
      obtain ⟨ops, hrun⟩ := touched_run htouched
      have hbefore : s.world.table? c = some x.handles :=
        congrArg (Option.map Context.handles) hfound
      exact ⟨x.handles, hbefore, .works rfl (.inl ⟨place, scope, execution, htask⟩) hrun⟩
    · rw [if_neg hd] at hthere
      exact ⟨table', hthere, .stays fun _ hmember => hmember⟩
  | prepare htask _ =>
    refine hstays rfl fun _ hmember => ?_
    rw [List.append_cons]
    exact Task.mem_of_ne htask hmember nofun [_]
  | poll htask hfound =>
    refine hstays (World.pollWith_table hfound) fun _ hmember => ?_
    rw [List.append_cons]
    exact Task.mem_of_ne htask hmember nofun [_]
  | release htask hfound =>
    refine hstays (World.letGo_table hfound) fun _ hmember => ?_
    rw [List.append_cons]
    exact Task.mem_of_ne htask hmember nofun [_]
  | settle htask _ =>
    refine hstays (World.count_steady _ _).table fun _ hmember => ?_
    rw [List.append_cons]
    exact Task.mem_of_ne htask hmember nofun [_]
  | @enqueue l r place d returned w htask hfound =>
    rw [World.enqueue_table hfound] at hthere
    by_cases hd : c = d
    · subst hd
      rw [if_pos rfl] at hthere
      obtain ⟨table, hbefore, rfl⟩ := Option.map_eq_some_iff.mp hthere
      refine ⟨table, hbefore, .clears (q := place) (by simp [htask]) fun u hmember => ?_⟩
      rcases Task.mem_among.mp hmember with hnew | hrest
      · -- a context that was queued is with nobody
        rw [Task.mem_ofReturned hnew]
        nofun
      · exact h.others htask rfl u hrest
    · rw [if_neg hd] at hthere
      refine ⟨table', hthere, .stays fun q hmember => Task.mem_of_ne htask hmember ?_ _⟩
      exact fun hsame => hd (Task.returning.inj hsame).2
  | @announce l r place d htask =>
    refine hstays (World.announce_steady _ _).table fun _ hmember => ?_
    rw [← List.append_nil l]
    exact Task.mem_of_ne htask hmember nofun []
  | close place => exact hstays (World.close_steady place).table fun _ hmember => hmember

/-! ## What is left on a context that nobody has -/

/-- Nobody has the context. -/
def Free (s : Scene) (c : ContextId) : Prop := ∀ task ∈ s.tasks, task.context? ≠ some c

/-- Nobody has an idle context. -/
theorem Reachable.idle_free (h : s.Reachable) {q : Nat} {p : Pool}
    (hhere : s.world.pools[q]? = some p) (hidle : c ∈ p.idle) : s.Free c := by
  intro task hmember hhas
  exact h.idle_apart hhere hidle (List.mem_filterMap.mpr ⟨task, hmember, hhas⟩)

/-- Whoever has a context keeps it, or hands it to the next who deals with it, up to the queue. -/
theorem Step.passes (hstep : Step s t) {task : Task} (hmember : task ∈ s.tasks)
    (hhas : task.context? = some c) :
    (∃ next ∈ t.tasks, next.context? = some c) ∨ ∃ q, task = .returning q c := by
  -- Either another task moved, or this one did and went on with its context.
  have hother {l r : List Task} {moves : Task} (hbefore : s.tasks = l ++ moves :: r)
      (hnone : moves.context? = .none) (us : List Task) (hafter : t.tasks = l ++ us ++ r) :
      ∃ next ∈ t.tasks, next.context? = some c := by
    refine ⟨task, hafter ▸ Task.mem_of_ne hbefore hmember ?_ us, hhas⟩
    rintro rfl
    rw [hnone] at hhas
    cases hhas
  have hgoesOn {l r : List Task} {moves next : Task} (hbefore : s.tasks = l ++ moves :: r)
      (hsame : next.context? = moves.context?) (hafter : t.tasks = l ++ next :: r) :
      ∃ next ∈ t.tasks, next.context? = some c := by
    rcases Task.eq_or_rest hbefore hmember with rfl | hrest
    · exact ⟨next, by simp [hafter], hsame.trans hhas⟩
    · exact ⟨task, hafter ▸ Task.mem_beside hrest, hhas⟩
  cases hstep with
  | scope | fire _ | gate _ | elsewhere _ | carry _ _ _ | touch _ _ _ | close _ | fault _ =>
    exact .inl ⟨task, hmember, hhas⟩
  | enter _ _ _ => exact .inl ⟨task, .tail _ hmember, hhas⟩
  | ask hbefore _ | look hbefore _ | take hbefore _ => exact .inl (hother hbefore rfl _ rfl)
  | giveUp hbefore | announce hbefore => exact .inl (hother hbefore rfl [] (by simp))
  | prepare hbefore _ | poll hbefore _ | settle hbefore _ =>
    exact .inl (hgoesOn hbefore (by rfl) rfl)
  | @release l r place scope d record w hbefore _ =>
    exact .inl (hgoesOn hbefore (by cases record <;> rfl) rfl)
  -- Only the last step of a return lets go of the context.
  | enqueue hbefore _ =>
    rcases Task.eq_or_rest hbefore hmember with rfl | hrest
    · obtain rfl := Option.some.inj hhas
      exact .inr ⟨_, rfl⟩
    · exact .inl ⟨task, Task.mem_among.mpr (.inr hrest), hhas⟩

/-- A context that nobody has after a step had nobody before, or was on its way to the queue. -/
theorem Step.freed (hstep : Step s t) (hfree : t.Free c) :
    s.Free c ∨ ∃ q, .returning q c ∈ s.tasks := by
  by_cases hbefore : s.Free c
  · exact .inl hbefore
  · right
    unfold Free at hbefore
    push Not at hbefore
    obtain ⟨task, hmember, hhas⟩ := hbefore
    rcases hstep.passes hmember hhas with ⟨next, hstill, hhas'⟩ | ⟨q, rfl⟩
    · exact absurd hhas' (hfree next hstill)
    · exact ⟨q, hmember⟩

/-- What is recorded on a context changes only as the task that has it moves; afterwards the record
is gone, or a caller has the context. -/
theorem Step.record_cases (hstep : Step s t) (h : s.Reachable) (c : ContextId) :
    t.world.inFlight? c = s.world.inFlight? c ∨
      ((∃ task ∈ s.tasks, ∃ next ∈ t.tasks, task.context? = some c ∧ next.context? = some c ∧
          next ≠ task) ∧
        (t.world.inFlight? c = none ∨ ∃ q scope, t.Lent q scope c)) := by
  cases hstep with
  | scope | fire _ | gate _ | elsewhere _ | enter _ _ _ | giveUp _ | prepare _ _ | fault _ =>
    exact .inl rfl
  | carry id fuel shut =>
    have hcarried := s.world.carryFor_carried (fun _ => fuel) shut id
    exact .inl (congrFun (World.inFlight?_of_same hcarried.outline) c)
  | ask _ hfound =>
    exact .inl (congrFun (World.inFlight?_of_same (World.ask_steady hfound).outline) c)
  | look _ hfound =>
    exact .inl (congrFun (World.inFlight?_of_same (World.askAgain_steady hfound).outline) c)
  | @take l r place scope taken w _ hfound =>
    have houtline := World.handOut_outline hfound
    cases taken with
    | ok d => exact .inl (congrFun (World.inFlight?_of_kept houtline (by intro o; rfl)) c)
    | error e => exact .inl (congrFun (World.inFlight?_of_same houtline) c)
  | touch _ hfound htouched =>
    exact .inl (congrFun (World.inFlight?_of_same (World.touch_outline hfound htouched)) c)
  -- A look changes the record only when it begins a call or loses one.
  | @poll l r place scope d e late polled w htask hfound =>
    have hmine : .holding place scope d (some e) ∈ s.tasks := by simp [htask]
    obtain ⟨rfl, x, -, -, hlooked⟩ := h.orderly.looked hmine hfound
    by_cases hc : c = e.context
    · by_cases hrest : polled.rest = some e
      · exact .inl (congrFun (World.inFlight?_of_same (hlooked.outline_of_rest hrest)) c)
      · have hgoes : .holding place scope e.context polled.rest ∈
            l ++ .holding place scope e.context polled.rest :: r := by simp
        subst hc
        refine .inr ⟨⟨_, hmine, _, hgoes, rfl, rfl, fun hsame => hrest ?_⟩,
          .inr ⟨place, scope, _, hgoes⟩⟩
        exact (Task.holding.inj hsame).2.2.2
    · exact .inl (hlooked.inFlight?_other hc)
  -- A release hands the record on to the task that will put the context back.
  | @release l r place scope d handed w htask hfound =>
    by_cases hc : c = d
    · subst hc
      have hgoes : Task.ofLetGo place scope c handed ∈
          l ++ Task.ofLetGo place scope c handed :: r := by
        simp
      refine .inr ⟨⟨.holding place scope c none, by simp [htask], _, hgoes, rfl, ?_, ?_⟩,
        .inl (World.letGo_inFlight? hfound)⟩
      · cases handed <;> rfl
      · cases handed <;> exact Task.noConfusion
    · exact .inl (World.inFlight?_of_marked (World.letGo_outline hfound) hc)
  | settle _ _ => exact .inl (congrFun (World.inFlight?_of_same (World.count_steady _ _).outline) c)
  | enqueue _ hfound =>
    have houtline := World.enqueue_outline hfound
    exact .inl (congrFun (World.inFlight?_of_kept houtline (by intro o; rfl)) c)
  | announce _ =>
    exact .inl (congrFun (World.inFlight?_of_same (World.announce_steady _ _).outline) c)
  | close place =>
    exact .inl (congrFun (World.inFlight?_of_same (World.close_steady place).outline) c)

/-- Whoever has a context and stays where it is keeps the record on it. -/
theorem Step.record_kept (hstep : Step s t) (h : s.Reachable) {task : Task}
    (hbefore : task ∈ s.tasks) (hafter : task ∈ t.tasks) (hhas : task.context? = some c) :
    t.world.inFlight? c = s.world.inFlight? c := by
  rcases hstep.record_cases h c with hsame | ⟨⟨u, hmember, u', hmember', hasu, hasu', hmoved⟩, -⟩
  · exact hsame
  · -- nobody else has the context, before the step or after it
    have hone := h.unique hbefore hmember hhas hasu
    have hone' := (h.step hstep).unique hafter hmember' hhas hasu'
    exact absurd (hone'.trans hone.symm) hmoved

/-- A new record on a context is made by whoever has it. -/
theorem Step.recorded (hstep : Step s t) (h : s.Reachable) {id : CallId}
    (hrecord : t.world.inFlight? c = some id) :
    s.world.inFlight? c = some id ∨ ∃ q scope, t.Lent q scope c := by
  rcases hstep.record_cases h c with hsame | ⟨-, hgone | hlent⟩
  · exact .inl (hsame.symm.trans hrecord)
  · rw [hgone] at hrecord
    cases hrecord
  · exact .inr hlent

/-- A call is recorded on a context only while a caller has the context. -/
theorem Reachable.recorded (h : s.Reachable) {id : CallId}
    (hrecord : s.world.inFlight? c = some id) : ∃ q scope, s.Lent q scope c := by
  induction h with
  | @start w hfresh =>
    have hrecord : w.inFlight? c = some id := hrecord
    unfold World.inFlight? World.outline? at hrecord
    rw [Option.bind_map, Option.bind_eq_some_iff] at hrecord
    obtain ⟨x, hhere, hrecord⟩ := hrecord
    have hnone : x.inFlight = none := (hfresh.unused hhere).1
    rw [Function.comp_apply, Context.outline, hnone] at hrecord
    cases hrecord
  | @step s t hbefore hnext ih =>
    rcases hnext.recorded hbefore hrecord with hrecord' | hlent
    · obtain ⟨q, scope, execution, hmember⟩ := ih hrecord'
      rcases hnext.remains hmember with hstill | hmoved
      · exact ⟨q, scope, execution, hstill⟩
      · cases hmoved with
        | works hlent => exact ⟨q, scope, hlent⟩
        | givesBack hfound _ =>
          -- whoever lets go of a context takes the record along
          rw [World.letGo_inFlight? hfound] at hrecord
          cases hrecord
    · exact hlent

/-- Nothing is recorded on a context that nobody has. -/
theorem Reachable.free_record (h : s.Reachable) (hfree : s.Free c) :
    s.world.inFlight? c = none := by
  cases hrecord : s.world.inFlight? c with
  | none => rfl
  | some id =>
    obtain ⟨q, scope, execution, hmember⟩ := h.recorded hrecord
    exact absurd rfl (hfree _ hmember)

/-- What can come of a world that nobody has used, not even to store a buffer. -/
inductive Started : Scene → Prop where
  | start {w : World} (hfresh : w.Fresh)
      (hempty : ∀ {c table}, w.table? c = some table → table = .empty) : Started (ofWorld w)
  | step {s t : Scene} (hbefore : Started s) (hnext : Step s t) : Started t

/-- Where no host function was used while the pools were made, no buffer is stored at first. -/
theorem Started.of_prepared {w : World} (hprepared : w.Prepared) : Started (.ofWorld w) := by
  refine .start hprepared.unused.fresh fun hthere => ?_
  obtain ⟨x, hhere, rfl⟩ := Option.map_eq_some_iff.mp hthere
  exact hprepared.empty x (Array.mem_of_getElem? hhere)

theorem Started.reachable (h : Started s) : s.Reachable := by
  induction h with
  | start hfresh _ => exact .start hfresh
  | step _ hnext ih => exact .step ih hnext

/-- Generations, slots and free lists of all tables are in order. -/
theorem Started.wellFormed (h : Started s) (hthere : s.world.table? c = some table) :
    table.WellFormed := by
  induction h generalizing table with
  | start _ hempty =>
    rw [hempty hthere]
    exact HandleTable.Reachable.empty.wellFormed
  | step hbefore hnext ih =>
    obtain ⟨earlier, hthere', hhandled⟩ := hnext.handled hbefore.reachable hthere
    have hformed := ih hthere'
    cases hhandled with
    | stays _ => exact hformed
    | works _ _ hrun => exact hrun.wellFormed hformed
    | clears _ _ =>
      obtain ⟨hpositive, hsmall⟩ := HandleTable.nextGeneration_bounds earlier.generation
      exact HandleTable.wellFormed_of_generation hpositive hsmall

/-- A context that nobody has, has no buffers. -/
theorem Started.bare (h : Started s) (hfree : s.Free c) (hthere : s.world.table? c = some table) :
    table.Bare := by
  induction h generalizing table with
  | start _ hempty =>
    rw [hempty hthere]
    rfl
  | @step s t hbefore hnext ih =>
    obtain ⟨earlier, hthere', hhandled⟩ := hnext.handled hbefore.reachable hthere
    cases hhandled with
    | stays hreturns =>
      rcases hnext.freed hfree with hfree' | ⟨q, hmember⟩
      · exact ih hfree' hthere'
      · exact absurd rfl (hfree _ (hreturns q hmember))
    | works htasks hused hrun =>
      -- whoever stores and drops buffers has the context, or knows of the call that does
      exfalso
      rcases hused with ⟨q, scope, execution, hmember⟩ | ⟨id, howned, hlive⟩
      · exact hfree _ (htasks ▸ hmember) rfl
      · rcases hbefore.reachable.accounted.known howned with hjoined | ⟨task, hmember, hhas, -⟩
        · exact hbefore.reachable.orderly.unjoined hlive hjoined
        · exact hfree task (htasks ▸ hmember) hhas
    | clears _ _ => exact earlier.reset_bare

end Scene
end SandboxPool
