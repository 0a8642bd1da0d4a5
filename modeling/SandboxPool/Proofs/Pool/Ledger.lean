import SandboxPool.Proofs.Pool.Returns

/-!
# The ledger of a run

A `Ledger` goes along with a run in which any number of callers execute what they like. It writes
down every execution that returns, with what was found at the last look at it, and every panic of a
callback that is counted; every run has a ledger (`Scene.Reachable.has_ledger`). Then
`Ledger.Reachable.executions_counted` says that the counters of every pool are the numbers of the
entries of each kind, and what each execution has told its caller and left on its context.
-/

namespace SandboxPool

/-- An execution that has returned: what was found at the last look, what the caller was told, and
what was recorded on the context afterwards. -/
structure Return where
  place : Nat
  function : String
  /-- How its own call has ended, if it had one and that was over. -/
  joined : Option CallEnd
  /-- What it waited for, an earlier call or its own, went on. -/
  inVain : Bool
  /-- The caller's scope had fired. -/
  fired : Bool
  /-- The deadline had passed. -/
  late : Bool
  result : Outcome (List Value)
  record : Option CallId

namespace Return

/-- Why it has returned, by what was found. -/
def verdict (r : Return) : Verdict :=
  match r.joined with
  | some (.returned _) => .completed
  | some .panicked => .panicked
  | none =>
    if ¬ r.inVain then .refused
    else if r.fired then .cancelled
    else .timedOut

/-- What the caller was told and what was left on the context is right. -/
structure Honest (r : Return) : Prop where
  told : match r.verdict with
    | .completed => r.joined = some (.returned r.result)
    | .panicked => r.result = refuse (.fault ("guest function '" ++ r.function ++ "' panicked"))
    | .timedOut => r.late = true ∧ ∃ limit, r.result = refuse (.timedOut r.function limit)
    | .cancelled => r.result = refuse .cancelled
    | .refused => r.fired = true ∧ r.result = refuse .cancelled
  /-- A call is in flight exactly if the execution has lost a wait. -/
  record : r.record.isSome ↔ r.verdict = .timedOut ∨ r.verdict = .cancelled

end Return

/-- What is written down of an execution that returns at a look. -/
def World.return (w : World) (place : Nat) (scope : ScopeId) (e : Execution) (late : Bool)
    (w' : World) (result : Outcome (List Value)) : Return where
  place := place
  function := e.function.name
  joined := e.own?.bind w.ended?
  inVain := w.waitsInVain e
  fired := w.hasFired scope
  late := late
  result := result
  record := w'.inFlight? e.context

namespace World.Ends

variable {w w' : World} {e : Execution} {x : Context} {late : Bool} {scope : ScopeId}
  {place : Nat} {result : Outcome (List Value)} {verdict : Verdict}

/-- An execution loses a wait exactly if it has waited in vain. -/
theorem lost_iff (hends : w.Ends e x late result verdict) (hhere : w.contexts[e.context]? = some x)
    (hfits : e.Fits x.inFlight) :
    w.waitsInVain e = true ↔ verdict = .timedOut ∨ verdict = .cancelled := by
  have hawaited := hfits.awaits
  unfold waitsInVain
  rw [hhere, Option.bind_some]
  -- Whoever waits in vain awaits a call that is still alive.
  cases hends with
  | completed hmine hpast | panicked hmine hpast =>
    rw [hmine, Option.some_or] at hawaited
    simp [hawaited, hpast]
  | timedOut hawaits hlive _ _ | cancelled hawaits hlive _ => simp [hawaits, hlive]
  | refused _ hpast _ =>
    cases hawaits : e.awaits x with
    | none => simp
    | some earlier =>
      obtain ⟨r, hgone⟩ := Option.isSome_iff_exists.mp (hpast earlier hawaits)
      simp [hgone]

/-- Nothing has come of its own call if what it waits for goes on. -/
theorem own_live {id : CallId} (hfits : e.Fits x.inFlight) (hawaits : e.awaits x = some id)
    (hlive : w.ended? id = none) : e.own?.bind w.ended? = none := by
  have hawaited := hfits.awaits
  cases hmine : e.own? with
  | none => rfl
  | some own =>
    rw [hmine, Option.some_or, hawaits] at hawaited
    obtain rfl := Option.some.inj hawaited
    exact hlive

/-- What is written down tells why the execution has returned. -/
theorem return_verdict (hends : w.Ends e x late result verdict)
    (hhere : w.contexts[e.context]? = some x) (hfits : e.Fits x.inFlight)
    (hunder : x.scope = scope) :
    (w.return place scope e late w' result).verdict = verdict := by
  have hlost := hends.lost_iff hhere hfits
  unfold Return.verdict World.return
  dsimp only
  subst hunder
  -- The outcome is read off the result, the clock and the scope, in the order of the branches.
  cases hends with
  | completed hmine hpast | panicked hmine hpast => simp [hmine, hpast]
  | timedOut hawaits hlive hunfired _ =>
    rw [own_live hfits hawaits hlive]
    simp [hlost.mpr (.inl rfl), hunfired]
  | cancelled hawaits hlive hfired =>
    rw [own_live hfits hawaits hlive]
    simp [hlost.mpr (.inr rfl), hfired]
  | refused hmine _ _ =>
    have hsettled : w.waitsInVain e = false := by simpa using hlost
    rw [hmine]
    simp [hsettled]

/-- What is written down is right. -/
theorem honest (hends : w.Ends e x late result verdict) (hhere : w.contexts[e.context]? = some x)
    (hfits : e.Fits x.inFlight) (hunder : x.scope = scope)
    (hlooked : w.Looked e x (.done result) w') :
    (w.return place scope e late w' result).Honest where
  told := by
    rw [hends.return_verdict hhere hfits hunder]
    subst hunder
    cases hends with
    | completed hmine hpast => simp [World.return, hmine, hpast]
    | panicked _ _ => rfl
    | timedOut _ _ _ hpassed => exact ⟨hpassed, _, rfl⟩
    | cancelled _ _ _ => rfl
    | refused _ _ hfired => exact ⟨hfired, rfl⟩
  record := by
    rw [hends.return_verdict hhere hfits hunder, ← hends.lost_iff hhere hfits,
      ← hlooked.record_of_done hhere hfits]
    rfl

end World.Ends

/-- A run so far: where it is, the executions that have returned, and the places of the pools for
which a callback's panic was counted. -/
structure Ledger where
  scene : Scene
  returned : List Return
  panics : List Nat

namespace Scene

/-- Whoever executes something goes on as before. -/
def Undisturbed (s t : Scene) : Prop :=
  ∀ {q scope c e}, .holding q scope c (some e) ∈ s.tasks → .holding q scope c (some e) ∈ t.tasks

/-- The scene after a callback's panic was counted. -/
def faulted (s : Scene) (place : Nat) : Scene :=
  { s with world := s.world.modifyPool place (·.count Counters.fault) }

/-- The scene after a look at the execution of a task among others. -/
def looked (s : Scene) (l r : List Task) (place : Nat) (scope : ScopeId) (c : ContextId)
    (e : Execution) (polled : Polled) (w : World) : Scene :=
  { s with
    world := w
    tasks := l ++ .holding place scope c polled.rest :: r
    joined := (s.world.joins e).toList ++ s.joined }

end Scene

namespace Ledger

/-- What happens next, and what is written down of it. -/
inductive Step : Ledger → Ledger → Prop where
  /-- Somebody looks at their execution; if it is done, it is written down. -/
  | look {v : Ledger} {l r place scope c e late polled w}
      (htask : v.scene.tasks = l ++ .holding place scope c (some e) :: r)
      (hfound : v.scene.world.pollWith (fun w _ => w) e late = (polled, w)) :
      Step v { v with
        scene := v.scene.looked l r place scope c e polled w
        returned := (polled.answer?.map (v.scene.world.return place scope e late w)).toList ++
          v.returned }
  /-- A callback's panic is counted for a pool. -/
  | panic {v : Ledger} {place} (hthere : (v.scene.world.pools[place]?).isSome) :
      Step v { v with scene := v.scene.faulted place, panics := place :: v.panics }
  /-- Anything else happens: no execution goes on, and no panic is counted. -/
  | aside {v : Ledger} {t : Scene} (hstep : v.scene.Step t) (hundisturbed : v.scene.Undisturbed t)
      (hcalm : ∀ place, (v.scene.world.pools[place]?).isSome → t ≠ v.scene.faulted place) :
      Step v { v with scene := t }

/-- What can come of a world that nobody has used. -/
inductive Reachable : Ledger → Prop where
  | start {w : World} (hfresh : w.Fresh) : Reachable ⟨.ofWorld w, [], []⟩
  | step {v u : Ledger} (hbefore : Reachable v) (hnext : Step v u) : Reachable u

/-- How many executions on contexts of a pool have returned for a reason. -/
def number (v : Ledger) (q : Nat) (verdict : Verdict) : Nat :=
  v.returned.countP fun r => r.place = q ∧ r.verdict = verdict

/-- The counters are what the ledger says. -/
structure Balanced (v : Ledger) (q : Nat) (k : Counters) : Prop where
  completed : k.completed = .ofNat (v.number q .completed)
  panicked : k.faults - .ofNat (v.panics.count q) = .ofNat (v.number q .panicked)
  timedOut : k.timeouts = .ofNat (v.number q .timedOut)
  cancelled : k.cancellations = .ofNat (v.number q .cancelled)
  /-- Together they are all executions that have returned, but for those that were refused. -/
  total : k.completed + (k.faults - .ofNat (v.panics.count q)) + k.timeouts + k.cancellations =
    .ofNat (v.returned.countP fun r => r.place = q ∧ r.verdict ≠ .refused)

variable {v u : Ledger} {q : Nat} {p : Pool}

/-! ## Ledgers and runs -/

/-- What is written down is a step of the run. -/
theorem Step.scene (hstep : v.Step u) : v.scene.Step u.scene := by
  cases hstep with
  | look htask hfound => exact .poll htask hfound
  | panic _ => exact .fault _
  | aside hstep _ _ => exact hstep

theorem Reachable.scene (h : v.Reachable) : v.scene.Reachable := by
  induction h with
  | start hfresh => exact .start hfresh
  | step _ hnext ih => exact ih.step hnext.scene

end Ledger

namespace Scene

variable {s t : Scene}

/-! ## What steps count -/

/-- A step that leaves all executions alone counts nothing, but for the panic of a callback. -/
theorem Step.score (hstep : Step s t) (h : s.Reachable) (hundisturbed : s.Undisturbed t)
    (hcalm : ∀ place, (s.world.pools[place]?).isSome → t ≠ s.faulted place) :
    t.world.score? = s.world.score? := by
  cases hstep with
  | scope | fire _ | gate _ | elsewhere _ | enter _ _ _ | prepare _ _ => rfl
  | carry id fuel shut => exact World.score?_of_pools (World.carryFor_carried _ shut id).pools
  | ask _ hfound => exact World.score?_of_stock (World.ask_stock hfound)
  | look _ hfound => exact World.score?_of_stock (World.askAgain_stock hfound)
  | giveUp _ => exact World.score?_of_stock (World.giveUp_stock _ _)
  | take _ hfound => exact World.handOut_score hfound
  | touch _ _ _ => exact World.score?_of_pools rfl
  | release _ hfound => exact World.score?_of_pools (World.letGo_pools hfound)
  | settle _ _ => exact World.count_score_kept fun _ => rfl
  | enqueue _ hfound => exact World.enqueue_score hfound
  | announce _ => exact World.announce_score _ _
  | close place => exact World.close_score place
  | @poll l r place scope c e late polled w htask hfound =>
    -- the execution has not gone on, so that the look was in vain
    have hmine : .holding place scope c (some e) ∈ s.tasks := by simp [htask]
    rcases Task.eq_or_rest rfl (hundisturbed hmine) with hsame | hrest
    · obtain ⟨-, -, -, hsame⟩ := Task.holding.inj hsame
      cases polled with
      | done result => cases hsame
      | pending e' => exact World.pollWith_score_pending hfound
    -- nobody else can execute it, since nobody else has the context
    · exact absurd rfl (h.others htask rfl _ hrest)
  | fault place =>
    cases hhere : s.world.pools[place]? with
    | some p => exact absurd rfl (hcalm place (hhere ▸ rfl))
    | none =>
      -- there is no pool to count it for
      refine World.score?_of_pools (Array.ext_getElem? fun q => ?_)
      rw [World.modifyPool_pools]
      split
      · next hsame => rw [hsame, hhere]; rfl
      · rfl

/-! ## Every run has a ledger -/

/-- A step is a look at an execution, or leaves all of them alone. -/
theorem Step.look_or_undisturbed (hstep : Step s t) :
    (∃ l r place scope c e late polled w, s.tasks = l ++ .holding place scope c (some e) :: r ∧
      s.world.pollWith (fun w _ => w) e late = (polled, w) ∧
      t = s.looked l r place scope c e polled w) ∨ s.Undisturbed t := by
  -- where a task moves that executes nothing
  have hmoved {l us r : List Task} {task : Task} (hbefore : s.tasks = l ++ task :: r)
      (hafter : t.tasks = l ++ us ++ r)
      (hidle : ∀ {q scope c e}, task ≠ .holding q scope c (some e)) : s.Undisturbed t := by
    intro q scope c e hmember
    rw [hafter]
    exact Task.mem_of_ne hbefore hmember hidle.symm us
  cases hstep with
  | scope | fire _ | gate _ | elsewhere _ | carry _ _ _ | touch _ _ _ | close _ | fault _ =>
    exact .inr id
  | enter _ _ _ => exact .inr fun hmember => .tail _ hmember
  | ask htask _ | look htask _ | take htask _ | enqueue htask _ =>
    exact .inr (hmoved htask rfl nofun)
  | @giveUp l r place scope v htask =>
    exact .inr (hmoved htask (show l ++ r = l ++ [] ++ r by simp) nofun)
  | @announce l r place d htask =>
    exact .inr (hmoved htask (show l ++ r = l ++ [] ++ r by simp) nofun)
  | prepare htask _ | release htask _ | settle htask _ =>
    exact .inr (hmoved htask (List.append_cons ..) nofun)
  | poll htask hfound => exact .inl ⟨_, _, _, _, _, _, _, _, _, htask, hfound, rfl⟩

/-- Every run has a ledger. -/
theorem Reachable.has_ledger (h : s.Reachable) : ∃ v : Ledger, v.Reachable ∧ v.scene = s := by
  induction h with
  | start hfresh => exact ⟨_, .start hfresh, rfl⟩
  | @step s t hbefore hnext ih =>
    obtain ⟨v, hreachable, rfl⟩ := ih
    rcases hnext.look_or_undisturbed with
      ⟨l, r, place, scope, c, e, late, polled, w, htask, hfound, rfl⟩ | hundisturbed
    · exact ⟨_, hreachable.step (.look htask hfound), rfl⟩
    · by_cases hcalm : ∀ place, (v.scene.world.pools[place]?).isSome → t ≠ v.scene.faulted place
      · exact ⟨_, hreachable.step (.aside hnext hundisturbed hcalm), rfl⟩
      · push Not at hcalm
        obtain ⟨place, hthere, rfl⟩ := hcalm
        exact ⟨_, hreachable.step (.panic hthere), rfl⟩

end Scene

namespace Ledger

variable {v u : Ledger} {q : Nat} {p : Pool}

/-! ## The counters are what the ledger says -/

/-- What a pool must have counted of executions. -/
def score (v : Ledger) (q : Nat) : Score where
  completed := .ofNat (v.number q .completed)
  timeouts := .ofNat (v.number q .timedOut)
  cancellations := .ofNat (v.number q .cancelled)
  faults := .ofNat (v.number q .panicked + v.panics.count q)

/-- Every pool has counted that. -/
def Agrees (v : Ledger) : Prop :=
  ∀ q k, v.scene.world.score? q = some k → k = v.score q

theorem Agrees.of_kept (h : v.Agrees) (hcounted : u.scene.world.score? = v.scene.world.score?)
    (hwritten : u.score = v.score) : u.Agrees := by
  intro q k hthere
  rw [hcounted] at hthere
  rw [hwritten]
  exact h q k hthere

theorem Agrees.of_scored (h : v.Agrees) {place : Nat} {f : Score → Score}
    (hcounted : u.scene.world.score? = v.scene.world.scored place f)
    (hwritten : ∀ q, u.score q = if q = place then f (v.score q) else v.score q) : u.Agrees := by
  intro q k hthere
  rw [hcounted] at hthere
  unfold World.scored at hthere
  rw [hwritten]
  split at hthere
  · obtain ⟨k, hhere, rfl⟩ := Option.map_eq_some_iff.mp hthere
    rw [if_pos ‹_›, h q k hhere]
  · rw [if_neg ‹_›, h q k hthere]

/-- One more execution is written down. -/
theorem score_return (v : Ledger) (s : Scene) (r : Return) (q : Nat) :
    score { v with scene := s, returned := r :: v.returned } q =
      if q = r.place then (v.score q).add r.verdict else v.score q := by
  have hone (verdict : Verdict) :
      number { v with scene := s, returned := r :: v.returned } q verdict =
        v.number q verdict + if r.place = q ∧ r.verdict = verdict then 1 else 0 := by
    simp [number, List.countP_cons]
  unfold score
  -- one of the four numbers grows, or none if it was refused
  rw [hone, hone, hone, hone]
  by_cases hhere : q = r.place
  · cases r.verdict <;> simp [hhere, Score.add, UInt64.ofNat_add, Nat.add_right_comm]
  · simp [hhere, Ne.symm hhere]

/-- One more panic of a callback is written down. -/
theorem score_panic (v : Ledger) (s : Scene) (place q : Nat) :
    score { v with scene := s, panics := place :: v.panics } q =
      if q = place then (v.score q).fault else v.score q := by
  unfold score number
  by_cases hhere : q = place
  · simp [hhere, Score.fault, UInt64.ofNat_add, ← Nat.add_assoc]
  · simp [hhere, List.count_cons_of_ne (Ne.symm hhere)]

/-- Nobody has counted anything yet. -/
theorem agrees_start {w : World} (hfresh : w.Fresh) : Agrees ⟨.ofWorld w, [], []⟩ := by
  intro q k hthere
  obtain ⟨p, hhere, rfl⟩ := Option.map_eq_some_iff.mp hthere
  rw [(hfresh.pool hhere).1]
  rfl

/-- What a ledger says is right. -/
structure Sound (v : Ledger) : Prop where
  agrees : v.Agrees
  honest : ∀ r ∈ v.returned, r.Honest

/-- A look that ends no execution is not written down. -/
theorem Sound.look_pending (h : v.Sound) {w : World} {l r : List Task} {place : Nat}
    {scope : ScopeId} {c : ContextId} {e e' : Execution} {late : Bool}
    (hfound : v.scene.world.pollWith (fun w _ => w) e late = (.pending e', w)) :
    Sound { v with scene := v.scene.looked l r place scope c e (.pending e') w } where
  agrees := h.agrees.of_kept (World.pollWith_score_pending hfound) rfl
  honest := h.honest

/-- An execution that ends is written down rightly, and counted once. -/
theorem Sound.look_done (h : v.Sound) (hreachable : v.scene.Reachable) {w : World}
    {l r : List Task} {place : Nat} {scope : ScopeId} {c : ContextId} {e : Execution}
    {late : Bool} {result : Outcome (List Value)}
    (htask : v.scene.tasks = l ++ .holding place scope c (some e) :: r)
    (hfound : v.scene.world.pollWith (fun w _ => w) e late = (.done result, w)) :
    Sound { v with
      scene := v.scene.looked l r place scope c e (.done result) w
      returned := v.scene.world.return place scope e late w result :: v.returned } := by
  have hmine : .holding place scope c (some e) ∈ v.scene.tasks := by simp [htask]
  obtain ⟨rfl, x, hhere, hfits, hlooked⟩ := hreachable.orderly.looked hmine hfound
  obtain ⟨x', hhere', hunder⟩ := hreachable.lent_scope ⟨_, hmine⟩
  obtain rfl := Option.some.inj (hhere.symm.trans hhere')
  have hhome := hreachable.housed (.of_task hmine rfl)
  -- the call could begin, since the guest exports its function: so there are no other ways to end
  obtain ⟨verdict, hends, hcounted⟩ :=
    World.pollWith_ends hhome hhere (hreachable.exported hmine) hfound
  have hwritten : (v.scene.world.return place scope e late w result).verdict = verdict :=
    hends.return_verdict hhere hfits hunder
  refine ⟨h.agrees.of_scored hcounted fun q => ?_, fun r hmember => ?_⟩
  · rw [← hwritten]
    exact score_return v _ _ q
  · rcases List.mem_cons.mp hmember with rfl | hbefore
    · exact hends.honest hhere hfits hunder hlooked
    · exact h.honest r hbefore

theorem Sound.step (h : v.Sound) (hreachable : v.scene.Reachable) (hstep : Step v u) : u.Sound := by
  cases hstep with
  | @look l r place scope c e late polled w htask hfound =>
    cases polled with
    | pending e' => exact h.look_pending hfound
    | done result => exact h.look_done hreachable htask hfound
  | panic _ =>
    exact ⟨h.agrees.of_scored (World.modifyPool_score fun _ => rfl) (score_panic v _ _),
      h.honest⟩
  | aside hstep hundisturbed hcalm =>
    exact ⟨h.agrees.of_kept (hstep.score hreachable hundisturbed hcalm) rfl, h.honest⟩

theorem Reachable.sound (h : v.Reachable) : v.Sound := by
  induction h with
  | start hfresh => exact ⟨agrees_start hfresh, fun r hnone => absurd hnone List.not_mem_nil⟩
  | step hbefore hnext ih => exact ih.step hbefore.scene hnext

/-- Executions that were not refused have returned for one of the other reasons. -/
theorem number_total (v : Ledger) (q : Nat) :
    v.number q .completed + v.number q .panicked + v.number q .timedOut + v.number q .cancelled =
      v.returned.countP fun r => r.place = q ∧ r.verdict ≠ .refused := by
  unfold number
  induction v.returned with
  | nil => rfl
  | cons r returned ih =>
    simp only [List.countP_cons]
    rw [← ih]
    by_cases hhere : r.place = q
    · cases r.verdict <;> simp [hhere] <;> omega
    · simp [hhere]

/-- The counters of every pool are what the ledger says: each execution that has returned is
counted for its pool by why it did, and only those that were refused are not counted. And what each
has told its caller is right, and so is what it has left on its context. -/
theorem Reachable.executions_counted (h : v.Reachable) (hhere : v.scene.world.pools[q]? = some p) :
    v.Balanced q p.counters ∧ ∀ r ∈ v.returned, r.Honest := by
  have hscore : p.score = v.score q := h.sound.agrees q _ (congrArg (Option.map Pool.score) hhere)
  obtain ⟨hcompleted, htimedOut, hcancelled, hfaults⟩ := Score.mk.inj hscore
  have hpanicked : p.counters.faults - .ofNat (v.panics.count q) =
      .ofNat (v.number q .panicked) := by
    rw [hfaults, UInt64.ofNat_add, UInt64.add_sub_cancel]
  refine ⟨⟨hcompleted, hpanicked, htimedOut, hcancelled, ?_⟩, h.sound.honest⟩
  rw [hcompleted, hpanicked, htimedOut, hcancelled, ← number_total]
  simp only [UInt64.ofNat_add]

/-- One callback has panicked, and one execution has lost the wait for its call. -/
theorem executions_counted_one_lost : ∃ (v : Ledger) (p : Pool), v.Reachable ∧
    v.scene.world.pools[0]? = some p ∧ v.panics.count 0 = 1 ∧ v.number 0 .cancelled = 1 ∧
    v.returned.length = 1 ∧ v.Balanced 0 p.counters ∧ ∀ r ∈ v.returned, r.Honest := by
  let guest : GuestInstance := .script ⟨"guest", none, [], [("run", [])]⟩ none .empty
  have hstart := Reachable.start (World.ofGuest_fresh guest default)
  have hpanicked := hstart.step (@Step.panic _ 0 rfl)
  have hmade := hpanicked.step
    (.aside .scope nofun fun _ _ hsame => nomatch congrArg Scene.scopes hsame)
  have hentered := hmade.step (.aside (.enter 0 (List.mem_singleton_self 1) rfl) nofun
    fun _ _ hsame => nomatch congrArg Scene.tasks hsame)
  have hasked := hentered.step (.aside (.ask (l := []) (r := []) rfl rfl) nofun
    fun _ _ hsame => nomatch congrArg Scene.tasks hsame)
  have htaken := hasked.step (.aside (.take (l := []) (r := []) rfl rfl) nofun
    fun _ _ hsame => nomatch congrArg Scene.tasks hsame)
  have hprepared := htaken.step (.aside
    (@Scene.Step.prepare _ [] [] 0 1 0 "run" [] _ rfl rfl) nofun
    fun _ _ hsame => nomatch congrArg Scene.tasks hsame)
  -- The execution begins its call, then its scope fires and it is lost.
  have hbegun := hprepared.step (@Step.look _ [] [] 0 1 0 _ false _ _ rfl rfl)
  have hfired := hbegun.step (.aside (.fire (List.mem_singleton_self 1)) id
    fun _ _ hsame => absurd (congrArg (fun s => s.world.fired) hsame) (List.cons_ne_self 1 _))
  have hlost := hfired.step (@Step.look _ [] [] 0 1 0 _ false _ _ rfl rfl)
  obtain ⟨-, p, -, hhere, -⟩ :=
    hlost.scene.there (t := .holding 0 1 0 none) (List.mem_singleton_self _) rfl
  obtain ⟨hbalanced, hhonest⟩ := hlost.executions_counted hhere
  exact ⟨_, p, hlost, hhere, rfl, rfl, rfl, hbalanced, hhonest⟩

end Ledger
end SandboxPool
