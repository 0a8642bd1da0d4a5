import SandboxPool.Proofs.Pool.Conservation

/-!
# One guest call on a context at a time

A guest call may outlive the execution that began it: it is then recorded on its context, and the
next execution, or the task that takes the context back, waits for it. `World.Accounted` says that
no call is forgotten: each of them has been joined, or exactly one task knows of it. So no
execution begins a call before the earlier ones on the same context are over, and nobody is lent
a context on which a call goes on.
-/

namespace SandboxPool

/-- The abandoned call that is recorded on a context. -/
def World.inFlight? (w : World) (c : ContextId) : Option CallId :=
  (w.outline? c).bind Context.Outline.inFlight

namespace World

variable {w w' : World} {c d : ContextId} {f : Context.Outline → Context.Outline}

theorem inFlight?_of_same (hsame : w'.outline? = w.outline?) : w'.inFlight? = w.inFlight? := by
  funext c
  unfold inFlight?
  rw [hsame]

/-- Nothing is recorded on other contexts than the one that is written on. -/
theorem inFlight?_of_marked (hsame : w'.outline? = w.marked c f) (h : d ≠ c) :
    w'.inFlight? d = w.inFlight? d := by
  unfold inFlight?
  rw [hsame, marked_other h]

theorem inFlight?_of_marked_self {x : Context} (hsame : w'.outline? = w.marked c f)
    (hhere : w.contexts[c]? = some x) : w'.inFlight? c = (f x.outline).inFlight := by
  unfold inFlight?
  rw [hsame, marked_self hhere, Option.bind_some]

/-- The record stays where something else is written. -/
theorem inFlight?_of_kept (hsame : w'.outline? = w.marked c f)
    (hkept : ∀ o, (f o).inFlight = o.inFlight) : w'.inFlight? = w.inFlight? := by
  funext d
  unfold inFlight?
  rw [hsame]
  exact marked_kept (Option.bind · Context.Outline.inFlight) hkept d

theorem inFlight?_eq {x : Context} (hhere : w.contexts[c]? = some x) :
    w.inFlight? c = x.inFlight := by
  unfold inFlight? outline?
  rw [hhere]
  rfl

end World

/-- An execution waits for what is recorded on its context, and a call of its own is under way
only if nothing is. -/
def Execution.Fits (e : Execution) (record : Option CallId) : Prop :=
  match e.phase with
  | .fresh => True
  | .behind earlier => record = some earlier
  | .running _ => record = none

/-- What an execution that fits waits for. -/
theorem Execution.Fits.awaits {e : Execution} {x : Context} (h : e.Fits x.inFlight) :
    e.awaits x = e.own?.or x.inFlight := by
  unfold Execution.Fits at h
  unfold Execution.awaits Execution.own?
  cases hphase : e.phase with
  | fresh => rfl
  | behind earlier =>
    rw [hphase] at h
    exact h.symm
  | running own => rfl

/-- An execution whose own call is under way has nothing recorded on its context. -/
theorem Execution.Fits.record_of_own {e : Execution} {record : Option CallId} {own : CallId}
    (h : e.Fits record) (hmine : e.own? = some own) : record = none := by
  unfold Execution.Fits at h
  rwa [Execution.own?_eq_some.mp hmine] at h

namespace Task

/-- The execution of a task is on its context and fits what is recorded there. -/
def Fits (w : World) : Task → Prop
  | holding _ _ c (some e) => e.context = c ∧ e.Fits (w.inFlight? c)
  | _ => True

/-- The call on its context that a task knows of. -/
def call? (w : World) : Task → Option CallId
  | holding _ _ c execution => (execution.bind Execution.own?).or (w.inFlight? c)
  | settling _ _ _ call => some call
  | _ => none

variable {w w' : World} {t : Task}

/-- What a task knows depends on its own context only. -/
theorem call?_congr (hsame : ∀ c, t.context? = some c → w'.inFlight? c = w.inFlight? c) :
    t.call? w' = t.call? w := by
  cases t with
  | holding place scope c execution =>
    exact congrArg (Option.or (execution.bind Execution.own?)) (hsame c rfl)
  | _ => rfl

theorem Fits.congr (h : t.Fits w)
    (hsame : ∀ c, t.context? = some c → w'.inFlight? c = w.inFlight? c) : t.Fits w' := by
  cases t with
  | holding place scope c execution =>
    cases execution with
    | none => trivial
    | some e => exact ⟨h.1, (hsame c rfl).symm ▸ h.2⟩
  | _ => trivial

end Task

/-- A task that has its context knows of every call that was ever begun, but for those in a list,
and executions fit what is recorded. -/
structure World.Tracked (w : World) (tasks : List Task) (settled : List CallId) : Prop where
  known : ∀ {id c}, w.owner? id = some c →
    id ∈ settled ∨ ∃ t ∈ tasks, t.context? = some c ∧ t.call? w = some id
  fits : ∀ {t}, t ∈ tasks → t.Fits w

namespace World.Tracked

variable {w w' : World} {t t' : Task} {l r tasks : List Task} {settled settled' : List CallId}
  {c : ContextId}

/-- Where no call begins and no record changes. -/
theorem same (h : w.Tracked tasks settled) (howner : w'.owner? = w.owner?)
    (hrecord : w'.inFlight? = w.inFlight?) : w'.Tracked tasks settled where
  known {id c} howned := by
    rw [howner] at howned
    rcases h.known howned with hmember | ⟨t, hmember, hhas, hknows⟩
    · exact .inl hmember
    · refine .inr ⟨t, hmember, hhas, ?_⟩
      rw [Task.call?_congr fun c _ => congrFun hrecord c, hknows]
  fits hmember := (h.fits hmember).congr fun c _ => congrFun hrecord c

theorem steady (h : w.Tracked tasks settled) (hsame : w.Steady w') : w'.Tracked tasks settled :=
  h.same hsame.owner (inFlight?_of_same hsame.outline)

/-- A task that knows of no call gives way to others. -/
theorem giveWay (h : w.Tracked tasks settled) (htask : tasks = l ++ t :: r)
    (hknows : t.call? w = none) (us : List Task) (hfits : ∀ u ∈ us, u.Fits w) :
    w.Tracked (l ++ us ++ r) settled where
  known howned := by
    rcases h.known howned with hmember | ⟨u, hmember, hhas, hknows'⟩
    · exact .inl hmember
    · -- the task that gives way cannot be the one that knows
      rcases Task.eq_or_rest htask hmember with rfl | hrest
      · rw [hknows] at hknows'
        cases hknows'
      · exact .inr ⟨u, Task.mem_among.mpr (.inr hrest), hhas, hknows'⟩
  fits {u} hmember := by
    rcases Task.mem_among.mp hmember with hnew | hrest
    · exact hfits u hnew
    · exact h.fits (htask ▸ Task.mem_beside hrest)

/-- A task that knows of no call is over. -/
theorem leave (h : w.Tracked tasks settled) (htask : tasks = l ++ t :: r)
    (hknows : t.call? w = none) : w.Tracked (l ++ r) settled := by
  rw [← List.append_nil l]
  exact h.giveWay htask hknows [] (by simp)

/-- A task begins. -/
theorem arrive (h : w.Tracked tasks settled) (hfits : t.Fits w) :
    w.Tracked (t :: tasks) settled where
  known howned := by
    rcases h.known howned with hmember | ⟨u, hmember, hrest⟩
    · exact .inl hmember
    · exact .inr ⟨u, List.mem_cons_of_mem _ hmember, hrest⟩
  fits {u} hmember := by
    rcases List.mem_cons.mp hmember with rfl | hmember
    · exact hfits
    · exact h.fits hmember

/-- A task goes on with its context: it joins the call it knows of, or still knows of it. -/
theorem goOn (h : w.Tracked tasks settled) (htask : tasks = l ++ t :: r)
    (hothers : ∀ u ∈ l ++ r, u.context? ≠ some c) (hhas : t.context? = some c)
    (hhas' : t'.context? = some c) (hold : settled ⊆ settled')
    (hrecord : ∀ d, d ≠ c → w'.inFlight? d = w.inFlight? d)
    (howner : ∀ {id d}, w'.owner? id = some d →
      w.owner? id = some d ∨ (d = c ∧ t'.call? w' = some id))
    (hmine : ∀ {id}, t.call? w = some id → id ∈ settled' ∨ t'.call? w' = some id)
    (hfits : t'.Fits w') : w'.Tracked (l ++ t' :: r) settled' := by
  -- the others have other contexts, so that what they know stays
  have helsewhere : ∀ u ∈ l ++ r, ∀ d, u.context? = some d → w'.inFlight? d = w.inFlight? d := by
    intro u hmember d hd
    refine hrecord d fun hsame => hothers u hmember ?_
    rw [hd, hsame]
  have hthere : t' ∈ l ++ t' :: r := by simp
  refine ⟨fun {id d} howned => ?_, fun {u} hmember => ?_⟩
  · rcases howner howned with howned | ⟨rfl, hknows⟩
    · rcases h.known howned with hmember | ⟨u, hmember, hd, hknows⟩
      · exact .inl (hold hmember)
      · rcases Task.eq_or_rest htask hmember with rfl | hrest
        · rcases hmine hknows with hmember | hknows
          · exact .inl hmember
          · exact .inr ⟨t', hthere, hhas'.trans (hhas.symm.trans hd), hknows⟩
        · have hstill := (Task.call?_congr (helsewhere u hrest)).trans hknows
          exact .inr ⟨u, Task.mem_beside hrest, hd, hstill⟩
    · exact .inr ⟨t', hthere, hhas', hknows⟩
  · rcases Task.eq_or_rest rfl hmember with rfl | hrest
    · exact hfits
    · exact (h.fits (htask ▸ Task.mem_beside hrest)).congr (helsewhere u hrest)

/-- Whoever has a context begins to execute something, and has not looked at anything yet. -/
theorem execute {place : Nat} {scope : ScopeId}
    (h : w.Tracked (l ++ .holding place scope c none :: r) settled)
    (hothers : ∀ u ∈ l ++ r, u.context? ≠ some c) (f : NativeFunction) (args : List Value) :
    w.Tracked (l ++ .holding place scope c (some ⟨c, f, args, .fresh⟩) :: r) settled :=
  h.goOn rfl hothers rfl rfl (fun _ h => h) (fun _ _ => rfl) .inl .inr ⟨rfl, trivial⟩

end World.Tracked

/-- Every call that was ever begun has been joined, or a task that has its context knows of it. -/
structure World.Accounted (w : World) (tasks : List Task) (joined : List CallId) : Prop where
  /-- What has been joined is over. -/
  past : ∀ {id}, id ∈ joined → (w.ended? id).isSome
  known : ∀ {id c}, w.owner? id = some c →
    id ∈ joined ∨ ∃ t ∈ tasks, t.context? = some c ∧ t.call? w = some id
  fits : ∀ {t}, t ∈ tasks → t.Fits w

/-! ## Looking at executions -/

namespace World

variable {w w' : World} {e : Execution} {x : Context} {polled : Polled} {id : CallId}
  {d : ContextId}

/-- A look begins one call at most, on the execution's context. -/
theorem Looked.owner (hlooked : w.Looked e x polled w') (howned : w'.owner? id = some d) :
    w.owner? id = some d ∨
      (d = e.context ∧ (∀ earlier, e.awaits x = some earlier → (w.ended? earlier).isSome) ∧
        ∃ run : Execution, polled = .pending run ∧ run.own? = some id) := by
  rcases hlooked.calls_cases with hsame | ⟨hpast, rfl, run, hbegun⟩
  · rw [owner?_of_calls hsame] at howned
    exact .inl howned
  · unfold owner? at howned
    rw [hbegun, spawned, Array.getElem?_push] at howned
    by_cases h : id = w.calls.size
    · rw [if_pos h] at howned
      subst h
      exact .inr ⟨(Option.some.inj howned).symm, hpast, _, rfl, rfl⟩
    · rw [if_neg h] at howned
      exact .inl howned

/-- A look ends no call, and revives none. -/
theorem Looked.ended (hlooked : w.Looked e x polled w') {r : CallEnd}
    (hpast : w.ended? id = some r) : w'.ended? id = some r := by
  rw [ended?_eq_some] at hpast ⊢
  obtain ⟨call, hfound, hstate⟩ := hpast
  exact ⟨call, hlooked.calls_kept hfound, hstate⟩

/-- What a look finds over is joined by it. -/
theorem mem_joins (hhere : w.contexts[e.context]? = some x) :
    id ∈ (w.joins e).toList ↔ e.awaits x = some id ∧ (w.ended? id).isSome := by
  unfold joins
  rw [hhere, Option.mem_toList, Option.filter_eq_some_iff]
  rfl

/-- A look leaves the records of other contexts alone. -/
theorem Looked.inFlight?_other (hlooked : w.Looked e x polled w') (h : d ≠ e.context) :
    w'.inFlight? d = w.inFlight? d := by
  rcases hlooked.outline_cases with hsame | ⟨call, hsame⟩
  · rw [inFlight?_of_same hsame]
  · exact inFlight?_of_marked hsame h

/-- What an execution waits for is over, or stays known: as its own call, or as the record. -/
theorem Looked.knows (hlooked : w.Looked e x polled w') (hhere : w.contexts[e.context]? = some x)
    (hfits : e.Fits x.inFlight) (hawaits : e.awaits x = some id) :
    (w.ended? id).isSome ∨
      (polled.rest.bind Execution.own?).or (w'.inFlight? e.context) = some id := by
  -- it waits for its own call if it has one, and for the recorded one otherwise
  have hall := hfits.awaits.symm.trans hawaits
  cases hlooked with
  | waits _ hmine _ _ hsame _ | givesUp _ hmine _ _ hsame _ =>
    rw [hmine, Option.none_or] at hall
    right
    rw [inFlight?_of_same hsame, inFlight?_eq hhere, hall]
    rfl
  | begins _ _ hpast _ _ | refuses _ _ hpast _ _ => exact .inl (hpast id hawaits)
  | @stays _ own _ hmine _ _ _ =>
    rw [hmine, Option.some_or] at hall
    right
    show e.own?.or _ = _
    rw [hmine, Option.some_or, hall]
  | joins _ hmine hpast _ _ =>
    rw [hmine, Option.some_or, Option.some.injEq] at hall
    exact .inl (hall ▸ hpast)
  | abandons _ hmine _ hsame _ =>
    rw [hmine, Option.some_or] at hall
    right
    rw [inFlight?_of_marked_self hsame hhere, ← hall]
    rfl

/-- An execution that goes on fits what is recorded on its context. -/
theorem Looked.fits (hlooked : w.Looked e x polled w') (hhere : w.contexts[e.context]? = some x)
    (hfits : e.Fits x.inFlight) {run : Execution} (hrest : polled.rest = some run) :
    run.context = e.context ∧ run.Fits (w'.inFlight? e.context) := by
  cases hlooked with
  -- Waiting and going on leave the record in place, beginning clears it, and the rest ends here.
  | @waits _ earlier _ hmine hawaits _ hsame _ =>
    obtain rfl := Option.some.inj hrest
    refine ⟨rfl, ?_⟩
    show w'.inFlight? e.context = some earlier
    rw [inFlight?_of_same hsame, inFlight?_eq hhere, ← hawaits, hfits.awaits, hmine, Option.none_or]
  | begins _ _ _ hsame _ =>
    obtain rfl := Option.some.inj hrest
    exact ⟨rfl, inFlight?_of_marked_self hsame hhere⟩
  | stays _ _ _ hsame _ =>
    obtain rfl := Option.some.inj hrest
    rw [inFlight?_of_same hsame, inFlight?_eq hhere]
    exact ⟨rfl, hfits⟩
  | givesUp | refuses | joins | abandons => cases hrest

/-- A look at an execution forgets no call. -/
theorem Tracked.poll {tasks l r : List Task} {settled : List CallId} {place : Nat}
    {scope : ScopeId} {c : ContextId} (h : w.Tracked tasks settled)
    (htask : tasks = l ++ .holding place scope c (some e) :: r)
    (hothers : ∀ u ∈ l ++ r, u.context? ≠ some c) (hhere : w.contexts[e.context]? = some x)
    (hlooked : w.Looked e x polled w') :
    w'.Tracked (l ++ .holding place scope c polled.rest :: r)
      ((w.joins e).toList ++ settled) := by
  obtain ⟨hmine, hfits⟩ : (Task.holding place scope c (some e)).Fits w := h.fits (by simp [htask])
  subst hmine
  rw [inFlight?_eq hhere] at hfits
  -- by fitting, what the execution waits for is what its task knows of
  refine h.goOn htask hothers rfl rfl (List.subset_append_right _ _) ?_ ?_ ?_ ?_
  · exact fun d hd => hlooked.inFlight?_other hd
  · intro id d howned
    rcases hlooked.owner howned with howned | ⟨rfl, -, run, rfl, hown⟩
    · exact .inl howned
    · refine .inr ⟨rfl, ?_⟩
      show (run.own?).or _ = some id
      rw [hown, Option.some_or]
  · intro id hknows
    have hawaits : e.awaits x = some id := by
      rw [hfits.awaits, ← inFlight?_eq hhere]
      exact hknows
    rcases hlooked.knows hhere hfits hawaits with hpast | hknows
    · exact .inl (List.mem_append_left _ ((mem_joins hhere).mpr ⟨hawaits, hpast⟩))
    · exact .inr hknows
  · cases hrest : polled.rest with
    | none => trivial
    | some run => exact hlooked.fits hhere hfits hrest

end World

/-! ## Calls that stay -/

/-- Calls stay on their contexts, and those that have ended stay ended. -/
structure World.Grown (w w' : World) : Prop where
  owner : ∀ {id c}, w.owner? id = some c → w'.owner? id = some c
  ended : ∀ {id r}, w.ended? id = some r → w'.ended? id = some r

namespace World.Grown

variable {w w' : World}

theorem of_calls (hsame : w'.calls = w.calls) : w.Grown w' := by
  constructor
  · rw [owner?_of_calls hsame]
    exact id
  · rw [ended?_of_calls hsame]
    exact id

theorem of_looked {e : Execution} {x : Context} {polled : Polled}
    (hlooked : w.Looked e x polled w') : w.Grown w' := by
  refine ⟨fun {id c} howned => ?_, hlooked.ended⟩
  unfold owner? at howned ⊢
  obtain ⟨call, hfound, rfl⟩ := Option.map_eq_some_iff.mp howned
  rw [hlooked.calls_kept hfound]
  rfl

end World.Grown

namespace Scene

variable {s t : Scene}

/-- A step leaves all calls alone, carries one on, or looks at an execution. -/
theorem Step.calls_cases (hstep : Step s t) :
    t.world.calls = s.world.calls ∨
    (∃ id fuel shut, t = { s with world := s.world.carryFor (fun _ => fuel) shut id }) ∨
    ∃ l r place scope c e late polled w, s.tasks = l ++ .holding place scope c (some e) :: r ∧
      s.world.pollWith (fun w _ => w) e late = (polled, w) ∧
      t = { s with
        world := w
        tasks := l ++ .holding place scope c polled.rest :: r
        joined := (s.world.joins e).toList ++ s.joined } := by
  cases hstep with
  | scope | fire _ | gate _ | elsewhere _ | enter _ _ _ | giveUp _ | touch _ _ _ | prepare _ _
  | fault _ => exact .inl rfl
  | carry id fuel shut => exact .inr (.inl ⟨id, fuel, shut, rfl⟩)
  | ask _ hfound => exact .inl (World.ask_steady hfound).calls
  | look _ hfound => exact .inl (World.askAgain_steady hfound).calls
  | take _ hfound => exact .inl (World.handOut_calls hfound)
  | poll htask hfound => exact .inr (.inr ⟨_, _, _, _, _, _, _, _, _, htask, hfound, rfl⟩)
  | release _ hfound => exact .inl (World.letGo_calls hfound)
  | settle _ _ => exact .inl (World.count_steady _ _).calls
  | enqueue _ hfound => exact .inl (World.enqueue_calls hfound)
  | announce _ => exact .inl (World.announce_steady _ _).calls
  | close place => exact .inl (World.close_steady place).calls

/-- No step forgets a call or revives one. -/
theorem Step.grown (hstep : Step s t) : s.world.Grown t.world := by
  rcases hstep.calls_cases with hsame | ⟨id, fuel, shut, rfl⟩ |
    ⟨l, r, place, scope, c, e, late, polled, w, htask, hfound, rfl⟩
  · exact .of_calls hsame
  · have hcarried := s.world.carryFor_carried (fun _ => fuel) shut id
    exact ⟨fun howned => by rwa [hcarried.owner], hcarried.ended⟩
  · rcases World.pollWith_looked hfound with ⟨-, -, rfl⟩ | ⟨x, hhere, hlooked⟩
    · exact .of_calls rfl
    · exact .of_looked hlooked

/-- No step forgets a call. -/
theorem Step.tracked (hstep : Step s t) (hsound : s.Sound)
    (h : s.world.Tracked s.tasks s.joined) : t.world.Tracked t.tasks t.joined := by
  cases hstep with
  | scope | fire _ | gate _ | elsewhere _ => exact h.same rfl rfl
  | carry i fuel shut =>
    have hcarried := s.world.carryFor_carried (fun _ => fuel) shut i
    exact h.same hcarried.owner (World.inFlight?_of_same hcarried.outline)
  | enter place _ _ => exact h.arrive trivial
  | @ask l r place scope asked w htask hfound =>
    refine (h.giveWay htask rfl _ ?_).steady (World.ask_steady hfound)
    cases asked <;> simp [Task.ofAsked, Task.Fits]
  | @look l r place scope v asked w htask hfound =>
    refine (h.giveWay htask rfl _ ?_).steady (World.askAgain_steady hfound)
    cases asked <;> simp [Task.ofAsked, Task.Fits]
  | giveUp htask => exact (h.leave htask rfl).same rfl rfl
  | @take l r place scope taken w htask hfound =>
    have hcalls := World.handOut_calls hfound
    refine (h.giveWay htask rfl _ ?_).same (World.owner?_of_calls hcalls) ?_
    · cases taken <;> simp [Task.ofTaken, Task.Fits]
    · have houtline := World.handOut_outline hfound
      cases taken with
      | ok c => exact World.inFlight?_of_kept houtline (by intro o; rfl)
      | error e => exact World.inFlight?_of_same houtline
  | touch _ hfound htouched =>
    exact h.same rfl (World.inFlight?_of_same (World.touch_outline hfound htouched))
  | @prepare l r place scope c function args e htask hfound =>
    obtain rfl := World.prepare_eq hfound
    exact (htask ▸ h).execute (hsound.others htask rfl) _ _
  | @poll l r place scope c e late polled w htask hfound =>
    rcases World.pollWith_looked hfound with ⟨hmissing, -, rfl⟩ | ⟨x, hhere, hlooked⟩
    · -- a context that a task has is there
      have hmine : .holding place scope c (some e) ∈ s.tasks := by simp [htask]
      obtain ⟨x, -, hhere, -⟩ := World.Housed.there hsound.housed hmine rfl
      obtain ⟨rfl, -⟩ := h.fits hmine
      rw [hhere] at hmissing
      cases hmissing
    · exact h.poll htask (hsound.others htask rfl) hhere hlooked
  | @release l r place scope c record w htask hfound =>
    have hcalls := World.letGo_calls hfound
    have hhanded := World.letGo_record hfound
    refine h.goOn htask (hsound.others htask rfl) rfl ?_ (fun _ h => h) ?_ ?_ ?_ ?_
    · cases record <;> rfl
    · exact fun d hd => World.inFlight?_of_marked (World.letGo_outline hfound) hd
    · rw [World.owner?_of_calls hcalls]
      exact .inl
    · intro id hknows
      have hknows : record = some id := hhanded.trans hknows
      exact .inr (by rw [hknows]; rfl)
    · cases record <;> trivial
  | @settle l r place scope c call htask hpast =>
    have hnext : s.world.Tracked (l ++ .returning place c :: r) (call :: s.joined) := by
      refine h.goOn htask (hsound.others htask rfl) rfl rfl (List.subset_cons_self _ _)
        (fun _ _ => rfl) .inl ?_ trivial
      intro id hknows
      exact .inl (by rw [Option.some.inj hknows]; exact List.mem_cons_self)
    exact hnext.steady (World.count_steady c Counters.settle)
  | @enqueue l r place c returned w htask hfound =>
    have hcalls := World.enqueue_calls hfound
    refine (h.giveWay htask rfl _ ?_).same (World.owner?_of_calls hcalls) ?_
    · intro u hmember
      rw [Task.mem_ofReturned hmember]
      trivial
    · exact World.inFlight?_of_kept (World.enqueue_outline hfound) (by intro o; rfl)
  | announce htask => exact (h.leave htask rfl).steady (World.announce_steady _ _)
  | close place => exact h.steady (World.close_steady place)
  | fault place => exact h.same rfl rfl

/-- What is joined by a step is over. -/
theorem Step.past (hstep : Step s t) {id : CallId} (hmember : id ∈ t.joined) :
    id ∈ s.joined ∨ (s.world.ended? id).isSome := by
  cases hstep with
  | @poll l r place scope c e late polled w htask hfound =>
    rcases List.mem_append.mp hmember with hnew | hold
    · exact .inr (Option.mem_filter_iff.mp (Option.mem_toList.mp hnew)).2
    · exact .inl hold
  | @settle l r place scope c call htask hpast =>
    rcases List.mem_cons.mp hmember with rfl | hold
    · exact .inr hpast
    · exact .inl hold
  | _ => exact .inl hmember

/-- Contexts are at home, the pools are in balance, and no call is forgotten. -/
structure Orderly (s : Scene) : Prop where
  sound : s.Sound
  accounted : s.world.Accounted s.tasks s.joined

/-- Nothing was ever called in a world that nobody has used. -/
theorem orderly_ofWorld {w : World} (hfresh : w.Fresh) : (ofWorld w).Orderly where
  sound := (Reachable.start hfresh).sound
  accounted := by
    constructor
    · intro id hmember
      cases hmember
    · intro id c howned
      have howned : (w.calls[id]?).map Call.context = some c := howned
      rw [hfresh.quiet.1] at howned
      cases howned
    · intro t hmember
      cases hmember

theorem Step.orderly (hstep : Step s t) (h : s.Orderly) : t.Orderly where
  sound := hstep.sound h.sound
  accounted := by
    have htracked := hstep.tracked h.sound ⟨h.accounted.known, h.accounted.fits⟩
    refine ⟨fun {id} hmember => ?_, htracked.known, htracked.fits⟩
    have hsettled := (hstep.past hmember).elim h.accounted.past fun hsettled => hsettled
    obtain ⟨r, hpast⟩ := Option.isSome_iff_exists.mp hsettled
    rw [hstep.grown.ended hpast]
    rfl

/-- Whatever function is executed on a context, the order stays. -/
theorem Orderly.execute (h : s.Orderly) {l r : List Task} {place : Nat} {scope : ScopeId}
    {c : ContextId} (htask : s.tasks = l ++ .holding place scope c none :: r) (f : NativeFunction)
    (args : List Value) :
    Orderly { s with tasks := l ++ .holding place scope c (some ⟨c, f, args, .fresh⟩) :: r } where
  sound := h.sound.execute htask _
  accounted := by
    have hbefore : s.world.Tracked s.tasks s.joined := ⟨h.accounted.known, h.accounted.fits⟩
    have htracked := (htask ▸ hbefore).execute (h.sound.others htask rfl) f args
    exact ⟨h.accounted.past, htracked.known, htracked.fits⟩

theorem Reachable.orderly (h : Reachable s) : s.Orderly := by
  induction h with
  | start hfresh => exact orderly_ofWorld hfresh
  | step _ hnext ih => exact hnext.orderly ih

/-- In every reachable scene no call is forgotten. -/
theorem Reachable.accounted (h : Reachable s) : s.world.Accounted s.tasks s.joined :=
  h.orderly.accounted

/-- A task that looks at its execution looks at what goes on on its own context. -/
theorem Orderly.looked (h : s.Orderly) {place : Nat} {scope : ScopeId} {c : ContextId}
    {e : Execution} {late : Bool} {polled : Polled} {w : World}
    (hmember : .holding place scope c (some e) ∈ s.tasks)
    (hfound : s.world.pollWith (fun w _ => w) e late = (polled, w)) :
    e.context = c ∧ ∃ x, s.world.contexts[e.context]? = some x ∧ e.Fits x.inFlight ∧
      s.world.Looked e x polled w := by
  obtain ⟨rfl, hfits⟩ := h.accounted.fits hmember
  obtain ⟨x, -, hhere, -⟩ := World.Housed.there h.sound.housed hmember rfl
  rcases World.pollWith_looked hfound with ⟨hmissing, -⟩ | ⟨x', hhere', hlooked⟩
  · rw [hhere] at hmissing
    cases hmissing
  · obtain rfl := Option.some.inj (hhere.symm.trans hhere')
    rw [World.inFlight?_eq hhere] at hfits
    exact ⟨rfl, x, hhere, hfits, hlooked⟩

/-! ## What follows -/

/-- Two calls on a context that have not been joined are one: its task knows of no other. -/
theorem Orderly.one_unjoined (h : s.Orderly) {i j : CallId} {c : ContextId}
    (hi : s.world.owner? i = some c) (hj : s.world.owner? j = some c) (hui : i ∉ s.joined)
    (huj : j ∉ s.joined) : i = j := by
  obtain hjoined | ⟨t, hmember, hhas, hknows⟩ := h.accounted.known hi
  · exact absurd hjoined hui
  obtain hjoined | ⟨u, hmember', hhas', hknows'⟩ := h.accounted.known hj
  · exact absurd hjoined huj
  -- both are known to the one task that has the context
  have hsame : u = t := h.sound.unique hmember hmember' hhas hhas'
  rw [hsame, hknows, Option.some.injEq] at hknows'
  exact hknows'

/-- A call that has not ended has not been joined. -/
theorem Orderly.unjoined (h : s.Orderly) {id : CallId} (hlive : s.world.ended? id = none) :
    id ∉ s.joined := by
  intro hjoined
  have hpast := h.accounted.past hjoined
  rw [hlive] at hpast
  cases hpast

/-- On an idle context every call is over. -/
theorem Orderly.idle_over (h : s.Orderly) {q : Nat} {p : Pool} {c : ContextId}
    (hhere : s.world.pools[q]? = some p) (hidle : c ∈ p.idle) {id : CallId}
    (howned : s.world.owner? id = some c) : (s.world.ended? id).isSome := by
  rcases h.accounted.known howned with hjoined | ⟨t, hmember, hhas, -⟩
  · exact h.accounted.past hjoined
  · exact absurd (List.mem_filterMap.mpr ⟨t, hmember, hhas⟩) (h.sound.idle_apart hhere hidle)

/-- A step that begins a call has joined all earlier calls on the same context. -/
theorem Step.begins_joined (hstep : Step s t) (h : s.Orderly) {new j : CallId} {c : ContextId}
    (hbegun : s.world.owner? new = none) (howned : t.world.owner? new = some c)
    (hearlier : s.world.owner? j = some c) : j ∈ t.joined := by
  have hsame (howner : t.world.owner? = s.world.owner?) : j ∈ t.joined := by
    rw [howner, hbegun] at howned
    cases howned
  rcases hstep.calls_cases with hcalls | ⟨id, fuel, shut, rfl⟩ |
    ⟨l, r, place, scope, d, e, late, polled, w, htask, hfound, rfl⟩
  · exact hsame (World.owner?_of_calls hcalls)
  · exact hsame (s.world.carryFor_carried (fun _ => fuel) shut id).owner
  have hmine : Task.holding place scope d (some e) ∈ s.tasks := by simp [htask]
  obtain ⟨rfl, x, hhere, hfits, hlooked⟩ := h.looked hmine hfound
  rcases hlooked.owner howned with howned | ⟨rfl, hpast, -⟩
  · rw [hbegun] at howned
    cases howned
  rcases h.accounted.known hearlier with hjoined | ⟨u, hmember, hhas, hknows⟩
  · exact List.mem_append_right _ hjoined
  · -- only the task that looks can know of an earlier call on its context
    rw [h.sound.unique hmine hmember rfl hhas] at hknows
    have hawaits : e.awaits x = some j := by
      rw [hfits.awaits, ← World.inFlight?_eq hhere]
      exact hknows
    exact List.mem_append_left _ ((World.mem_joins hhere).mpr ⟨hawaits, hpast j hawaits⟩)

/-! ## Functions at home -/

/-- An execution after a step was there before, has been prepared, or is what a look has left. -/
theorem Step.executing (hstep : Step s t) {q : Nat} {scope : ScopeId} {c : ContextId}
    {e : Execution} (hmember : .holding q scope c (some e) ∈ t.tasks) :
    .holding q scope c (some e) ∈ s.tasks ∨
      (∃ function args, s.world.prepare c function args = .ok e) ∨
      ∃ e' late w, .holding q scope c (some e') ∈ s.tasks ∧
        s.world.pollWith (fun w _ => w) e' late = (.pending e, w) := by
  -- where one task moves to others that execute nothing
  have hmoved {l us r : List Task} {task : Task} (hhere : s.tasks = l ++ task :: r)
      (hafter : t.tasks = l ++ us ++ r) (hidle : .holding q scope c (some e) ∉ us) :
      .holding q scope c (some e) ∈ s.tasks := by
    rw [hafter] at hmember
    rcases Task.mem_among.mp hmember with hone | hrest
    · exact absurd hone hidle
    · exact hhere ▸ Task.mem_beside hrest
  cases hstep with
  | scope | fire _ | gate _ | elsewhere _ | carry _ _ _ | touch _ _ _ | close _ | fault _ =>
    exact .inl hmember
  | enter _ _ _ =>
    rcases List.mem_cons.mp hmember with hsame | hmember
    · cases hsame
    · exact .inl hmember
  | @ask l r place scope asked w htask _ =>
    exact .inl (hmoved htask rfl (by cases asked <;> simp [Task.ofAsked]))
  | @look l r place scope v asked w htask _ =>
    exact .inl (hmoved htask rfl (by cases asked <;> simp [Task.ofAsked]))
  | @giveUp l r place scope v htask =>
    exact .inl (hmoved htask (show l ++ r = l ++ [] ++ r by simp) List.not_mem_nil)
  | @take l r place scope taken w htask _ =>
    exact .inl (hmoved htask rfl (by cases taken <;> simp [Task.ofTaken]))
  | prepare htask hfound =>
    rcases Task.eq_or_rest rfl hmember with hsame | hrest
    · cases hsame
      exact .inr (.inl ⟨_, _, hfound⟩)
    · exact .inl (htask ▸ Task.mem_beside hrest)
  | @poll l r place scope d e' late polled w htask hfound =>
    rcases Task.eq_or_rest rfl hmember with hsame | hrest
    · obtain ⟨rfl, rfl, rfl, hrest⟩ := Task.holding.inj hsame
      have hmine : .holding q scope c (some e') ∈ s.tasks := by simp [htask]
      cases polled with
      | done result => cases hrest
      | pending e'' =>
        obtain rfl := Option.some.inj hrest
        exact .inr (.inr ⟨e', late, w, hmine, hfound⟩)
    · exact .inl (htask ▸ Task.mem_beside hrest)
  | @release l r place scope d record w htask _ =>
    exact .inl (hmoved htask (List.append_cons ..) (by cases record <;> simp [Task.ofLetGo]))
  | settle htask _ => exact .inl (hmoved htask (List.append_cons ..) (by simp))
  | @enqueue l r place d returned w htask _ =>
    exact .inl (hmoved htask rfl fun hmember => by cases Task.mem_ofReturned hmember)
  | @announce l r place d htask =>
    exact .inl (hmoved htask (show l ++ r = l ++ [] ++ r by simp) List.not_mem_nil)

/-- Every function is executed on its own context, and every call runs where it was begun. -/
structure Homely (s : Scene) : Prop where
  executions : ∀ {q scope c e}, .holding q scope c (some e) ∈ s.tasks → e.function.home = e.context
  calls : s.world.site? = s.world.owner?

theorem Step.homely (hstep : Step s t) (h : s.Homely) : t.Homely where
  executions {q scope c e} hmember := by
    -- An execution is prepared by the context that holds it, and looks never change its function.
    rcases hstep.executing hmember with hmember | ⟨function, args, hfound⟩ |
      ⟨e', late, w, hmember, hfound⟩
    · exact h.executions hmember
    · obtain rfl := World.prepare_eq hfound
      rfl
    · obtain ⟨hcontext, hfunction⟩ := World.pollWith_function hfound
      rw [hcontext, hfunction]
      exact h.executions hmember
  calls := by
    -- Calls change when one is carried, which moves none of them, and when one is begun.
    rcases hstep.calls_cases with hcalls | ⟨id, fuel, shut, rfl⟩ |
      ⟨l, r, place, scope, c, e, late, polled, w, htask, hfound, rfl⟩
    · rw [World.site?_of_calls hcalls, World.owner?_of_calls hcalls, h.calls]
    · have hcarried := s.world.carryFor_carried (fun _ => fuel) shut id
      exact hcarried.site.trans (h.calls.trans hcarried.owner.symm)
    · have hmine : .holding place scope c (some e) ∈ s.tasks := by simp [htask]
      have hhome := h.executions hmine
      rcases World.pollWith_looked hfound with ⟨-, -, rfl⟩ | ⟨x, -, hlooked⟩
      · exact h.calls
      rcases hlooked.calls_cases with hcalls | ⟨-, -, run, hbegun⟩
      · exact (World.site?_of_calls hcalls).trans (h.calls.trans
          (World.owner?_of_calls hcalls).symm)
      · funext id
        have hbefore := congrFun h.calls id
        unfold World.site? World.owner? at hbefore ⊢
        dsimp only
        rw [hbegun, World.spawned, Array.getElem?_push]
        by_cases hnew : id = s.world.calls.size
        · rw [if_pos hnew]
          exact congrArg some hhome
        · rw [if_neg hnew]
          exact hbefore

/-- In every reachable scene all calls run on the guest of the context on which they were begun. -/
theorem Reachable.homely (h : Reachable s) : s.Homely := by
  induction h with
  | @start w hfresh =>
    refine ⟨nofun, funext fun id => ?_⟩
    show (w.calls[id]?).map Call.home = (w.calls[id]?).map Call.context
    rw [hfresh.quiet.1]
    rfl
  | step _ hnext ih => exact hnext.homely ih

/-! ## A call that is left behind -/

/-- One caller has the context of a pool. -/
theorem one_holds (guest : GuestInstance) (services : Services) :
    ∃ s : Scene, s.Reachable ∧ s.tasks = [.holding 0 1 0 none] ∧ s.scopes = [1] ∧
      s.world.calls = #[] ∧ s.world.fired = [] ∧ s.world.services = services ∧
      s.world.nextScope = 2 ∧
      s.world.pools[0]? = some ⟨1, 1, [], ⟨0, [], [], false⟩, false, Counters.lend .zero⟩ ∧
      s.world.contexts = #[⟨1, 0, [], .ofMillis 30000, guest, .empty, 1, none⟩] := by
  have hstart := Reachable.start (World.ofGuest_fresh guest services)
  have hmade := hstart.step .scope
  have hasked := (hmade.step (.enter 0 (List.mem_singleton_self 1) rfl)).step
    (.ask (l := []) (r := []) rfl rfl)
  have htaken := hasked.step (.take (l := []) (r := []) rfl rfl)
  exact ⟨_, htaken, rfl, rfl, rfl, rfl, rfl, rfl, rfl, rfl⟩

/-- A look at an execution that has not begun, on a context on which nothing goes on. -/
theorem Step.begin {place : Nat} {scope : ScopeId} {c : ContextId} {x : Context}
    {f : NativeFunction} {args : List Value} {run : GuestRun} {l r : List Task}
    (htask : s.tasks = l ++ .holding place scope c (some ⟨c, f, args, .fresh⟩) :: r)
    (hhere : s.world.contexts[c]? = some x) (hidle : x.inFlight = none)
    (hunfired : s.world.hasFired x.scope = false) (hbegun : s.world.begin f args = .ok run) :
    Step s { s with
      world := { s.world with calls := s.world.calls.push ⟨c, f, .ready run⟩ }
      tasks := l ++ .holding place scope c (some ⟨c, f, args, .running s.world.calls.size⟩) ::
        r } := by
  have hfound : s.world.pollWith (fun w _ => w) ⟨c, f, args, .fresh⟩ false =
      (.pending ⟨c, f, args, .running s.world.calls.size⟩,
        { s.world with calls := s.world.calls.push ⟨c, f, .ready run⟩ }) := by
    unfold World.pollWith World.beginOwn
    simp only [hhere, hidle, hunfired, hbegun]
    rfl
  have hjoins : s.world.joins ⟨c, f, args, .fresh⟩ = none := by
    unfold World.joins Execution.awaits
    simp only [hhere, Option.bind_some, hidle]
    rfl
  have hnext := Step.poll htask hfound
  rw [hjoins] at hnext
  exact hnext

/-- One who has a context on which nothing goes on begins a call of its own guest. -/
theorem Reachable.begin (h : s.Reachable) {place : Nat} {scope : ScopeId} {c : ContextId}
    {x : Context} {function : String} {args : List Value} {run : GuestRun} {l r : List Task}
    (htask : s.tasks = l ++ .holding place scope c none :: r)
    (hhere : s.world.contexts[c]? = some x) (hidle : x.inFlight = none)
    (hunfired : s.world.hasFired x.scope = false)
    (hexported : x.guest.function function = .ok ())
    (hstarts : x.guest.start function args = .ok run) :
    Reachable { s with
      world := { s.world with calls := s.world.calls.push ⟨c, ⟨c, function⟩, .ready run⟩ }
      tasks := l ++
        .holding place scope c (some ⟨c, ⟨c, function⟩, args, .running s.world.calls.size⟩) ::
          r } := by
  have hprepared : s.world.prepare c function args = .ok ⟨c, ⟨c, function⟩, args, .fresh⟩ :=
    World.prepare_eq_ok.mpr ⟨rfl, x, hhere, hexported⟩
  have hbegun : s.world.begin ⟨c, function⟩ args = .ok run := by
    unfold World.begin
    rw [hhere]
    exact hstarts
  have hnext := h.step (.prepare htask hprepared)
  exact hnext.step (.begin rfl hhere hidle hunfired hbegun)

/-- One whose scope fires while its call goes on leaves the call behind, recorded on the context. -/
theorem Reachable.loseCall (h : s.Reachable) {place : Nat} {scope : ScopeId} {c : ContextId}
    {x : Context} {e : Execution} {own : CallId} {l r : List Task}
    (htask : s.tasks = l ++ .holding place scope c (some e) :: r)
    (hhere : s.world.contexts[c]? = some x) (hmine : e.phase = .running own)
    (hlive : s.world.ended? own = none) (hfired : s.world.hasFired x.scope = true) :
    ∃ t : Scene, Step s t ∧ t.tasks = l ++ .holding place scope c none :: r ∧
      s.world.Recounts t.world ∧ t.world.calls = s.world.calls ∧
      t.world.fired = s.world.fired ∧ t.world.services = s.world.services ∧
      t.world.nextScope = s.world.nextScope ∧
      t.world.contexts[c]? = some { x with inFlight := some own } := by
  have hfits : (Task.holding place scope c (some e)).Fits s.world :=
    h.accounted.fits (by simp [htask])
  obtain rfl := hfits.1
  -- The scope has fired, so this look ends the wait and the call stays in the record.
  obtain ⟨w, hsteady, hlost⟩ := World.pollRunning_cancelled (e := e) (x := x) hlive hfired false
  have hfound : s.world.pollWith (fun w _ => w) e false = (.done (refuse .cancelled),
      w.modifyContext e.context fun x => { x with inFlight := some own }) := by
    unfold World.pollWith
    simp only [hhere, hmine]
    exact hlost
  have hthere :
      (w.modifyContext e.context fun x => { x with inFlight := some own }).contexts[e.context]? =
        some { x with inFlight := some own } := by
    rw [World.modifyContext_contexts, if_pos rfl, hsteady.contexts, hhere]
    rfl
  have hpools : s.world.Recounts
      (w.modifyContext e.context fun x => { x with inFlight := some own }) := by
    rcases World.pollWith_looked hfound with ⟨hnone, -, -⟩ | ⟨y, -, hlooked⟩
    · rw [hhere] at hnone
      cases hnone
    · exact hlooked.calm.pools
  exact ⟨_, .poll htask hfound, rfl, hpools, hsteady.calls, hsteady.fired, hsteady.services,
    hsteady.nextScope, hthere⟩

/-- Then it gives the context back; the context waits for the call, under a scope of its own. -/
theorem Reachable.leaveBehind (h : s.Reachable) {place : Nat} {scope : ScopeId} {c : ContextId}
    {x : Context} {e : Execution} {own : CallId} {l r : List Task}
    (htask : s.tasks = l ++ .holding place scope c (some e) :: r)
    (hhere : s.world.contexts[c]? = some x) (hmine : e.phase = .running own)
    (hlive : s.world.ended? own = none) (hfired : s.world.hasFired x.scope = true) :
    ∃ t : Scene, Steps s t ∧ t.tasks = l ++ .settling place scope c own :: r ∧
      t.world.calls = s.world.calls ∧ t.world.fired = s.world.fired ∧
      t.world.services = s.world.services ∧
      t.world.contexts[c]? = some { x with scope := s.world.nextScope, inFlight := none } := by
  obtain ⟨t, hnext, htasks, -, hcalls, hfires, hservices, hnextScope, hthere⟩ :=
    h.loseCall htask hhere hmine hlive hfired
  -- the look recorded the call, and whoever lets go takes the record along
  rcases hletGo : t.world.letGo c with ⟨record, w'⟩
  have hhanded := World.letGo_record hletGo
  obtain rfl : record = some own := by
    rw [hhanded, World.outline?, hthere]
    rfl
  refine ⟨_, .tail (.single hnext) (.release htasks hletGo), rfl, ?_⟩
  obtain ⟨-, rfl⟩ := Prod.mk.inj hletGo
  refine ⟨hcalls, hfires, hservices, ?_⟩
  dsimp only
  rw [World.modifyContext_contexts, if_pos rfl]
  refine (congrArg (Option.map _) hthere).trans ?_
  rw [← hnextScope]
  rfl

/-- A caller has begun a call, and its scope has fired. -/
theorem call_begun {guest : GuestInstance} {function : String} {run : GuestRun}
    (services : Services) (hexported : guest.function function = .ok ())
    (hstarts : guest.start function [] = .ok run) :
    ∃ s : Scene, s.Reachable ∧
      s.tasks = [.holding 0 1 0 (some ⟨0, ⟨0, function⟩, [], .running 0⟩)] ∧
      s.world.calls = #[⟨0, ⟨0, function⟩, .ready run⟩] ∧ s.world.fired = [1] ∧
      s.world.services = services ∧ s.world.nextScope = 2 ∧
      s.world.pools[0]? = some ⟨1, 1, [], ⟨0, [], [], false⟩, false, Counters.lend .zero⟩ ∧
      s.world.contexts[0]? = some ⟨1, 0, [], .ofMillis 30000, guest, .empty, 1, none⟩ := by
  obtain ⟨s, h, htasks, hscopes, hcalls, hfired, hshared, hnext, hpools, hcontexts⟩ :=
    one_holds guest services
  have hhere : s.world.contexts[0]? = some ⟨1, 0, [], .ofMillis 30000, guest, .empty, 1, none⟩ := by
    rw [hcontexts]
    rfl
  have hunfired : s.world.hasFired 1 = false := by
    unfold World.hasFired
    rw [hfired]
    rfl
  have hbegun := h.begin (l := []) htasks hhere rfl hunfired hexported hstarts
  have hmade : 1 ∈ s.scopes := by
    rw [hscopes]
    exact List.mem_singleton_self 1
  rw [hcalls] at hbegun
  exact ⟨_, hbegun.step (.fire hmade), rfl, rfl, congrArg (1 :: ·) hfired, hshared, hnext, hpools,
    hhere⟩

/-- It leaves the call behind before the call's worker has begun. -/
theorem call_left_behind {guest : GuestInstance} {function : String} {run : GuestRun}
    (services : Services) (hexported : guest.function function = .ok ())
    (hstarts : guest.start function [] = .ok run) :
    ∃ s t : Scene, s.Reachable ∧
      s.tasks = [.holding 0 1 0 (some ⟨0, ⟨0, function⟩, [], .running 0⟩)] ∧
      s.world.owner? 0 = some 0 ∧ Steps s t ∧
      t.tasks = [.settling 0 1 0 0] ∧ t.world.calls = #[⟨0, ⟨0, function⟩, .ready run⟩] ∧
      t.world.fired = [1] ∧ t.world.services = services ∧
      t.world.contexts[0]? = some ⟨1, 0, [], .ofMillis 30000, guest, .empty, 2, none⟩ := by
  obtain ⟨s, h, htasks, hcalls, hfired, hshared, hnext, -, hhere⟩ :=
    call_begun services hexported hstarts
  -- What is left is to read the world of the scene: the call is there, alive, and its scope fired.
  have howned : s.world.owner? 0 = some 0 := by
    unfold World.owner?
    rw [hcalls]
    rfl
  have hlive : s.world.ended? 0 = none := by
    unfold World.ended?
    rw [hcalls]
    rfl
  have hlost : s.world.hasFired 1 = true := by
    unfold World.hasFired
    rw [hfired]
    rfl
  obtain ⟨t, hrun, htasks', hcalls', hfired', hshared', hcontexts'⟩ :=
    h.leaveBehind (l := []) htasks hhere rfl hlive hlost
  refine ⟨s, t, h, htasks, howned, hrun, htasks', hcalls'.trans hcalls, hfired'.trans hfired,
    hshared'.trans hshared, ?_⟩
  rw [hcontexts', hnext]

end Scene

end SandboxPool
