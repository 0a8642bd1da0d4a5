import SandboxPool.Proofs.Pool.Frames

/-!
# What a look at an execution does

An execution moves by looks at what it waits for. What each part of such a look may find, and what
it then makes of the world, is said once: `World.BeginFound`, `World.EarlierFound`,
`World.OwnFound`, and `World.Found` for the whole look. `World.Looked` is what is left of that for
those who do not count.
-/

namespace SandboxPool
namespace World

/-- A call on a context that its worker has not begun yet. -/
def spawned (w : World) (e : Execution) (run : GuestRun) : Array Call :=
  w.calls.push ⟨e.context, e.function, .ready run⟩

/-- The record of an earlier call on a context is cleared, counted and logged. -/
def unrecord (w : World) (c : ContextId) (event : Log.Event) : World :=
  ((w.modifyContext c fun x => { x with inFlight := none }).count c Counters.settle).log event

/-! ## What each part of a look finds -/

/-- An execution whose turn it is finds its scope fired, or that its call cannot start, or it
begins the call, which goes on by `goOn`. -/
inductive BeginFound (goOn : World → CallId → World) (w : World) (e : Execution) (x : Context) :
    Polled → World → Prop where
  | cancelled (hfired : w.hasFired x.scope = true) :
      BeginFound goOn w e x (.done (refuse .cancelled)) w
  | fails {failure} (hstarts : w.begin e.function e.args = .error failure) :
      BeginFound goOn w e x (.done (.error failure)) w
  | begins {run} (hstarts : w.begin e.function e.args = .ok run) :
      BeginFound goOn w e x (.pending { e with phase := .running w.calls.size })
        (goOn { w with calls := w.spawned e run } w.calls.size)

/-- An execution behind an earlier call finds that call over, and then its turn has come; or it
loses to its scope or its deadline; or it waits on. -/
inductive EarlierFound (goOn : World → CallId → World) (w : World) (e : Execution) (x : Context)
    (earlier : CallId) (late : Bool) : Polled → World → Prop where
  | settled {event polled w'} (hpast : (w.ended? earlier).isSome)
      (hfound : (w.unrecord e.context event).BeginFound goOn e x polled w') :
      EarlierFound goOn w e x earlier late polled w'
  | cancelled (hlive : w.ended? earlier = none) (hfired : w.hasFired x.scope = true) :
      EarlierFound goOn w e x earlier late (.done (refuse .cancelled))
        (w.count e.context Counters.cancel)
  | timedOut {event} (hlive : w.ended? earlier = none) (hunfired : w.hasFired x.scope = false)
      (hpassed : late = true) :
      EarlierFound goOn w e x earlier late (.done (refuse (.timedOut e.function.name x.timeout)))
        ((w.log event).count e.context Counters.timeOut)
  | waits (hlive : w.ended? earlier = none) (hearly : late = false) :
      EarlierFound goOn w e x earlier late (.pending { e with phase := .behind earlier }) w

/-- An execution whose own call is under way finds it over, or loses to its scope or its deadline
and leaves the call behind, or waits on. -/
inductive OwnFound (w : World) (e : Execution) (x : Context) (own : CallId) (late : Bool) :
    Polled → World → Prop where
  | returned {result} (hpast : w.ended? own = some (.returned result)) :
      OwnFound w e x own late (.done result) (w.count e.context Counters.complete)
  | panicked (hpast : w.ended? own = some .panicked) :
      OwnFound w e x own late
        (.done (refuse (.fault ("guest function '" ++ e.function.name ++ "' panicked"))))
        (w.count e.context Counters.fault)
  | cancelled {event} (hlive : w.ended? own = none) (hfired : w.hasFired x.scope = true) :
      OwnFound w e x own late (.done (refuse .cancelled))
        (((w.log event).count e.context Counters.cancel).abandon e.context own)
  | timedOut {event} (hlive : w.ended? own = none) (hunfired : w.hasFired x.scope = false)
      (hpassed : late = true) :
      OwnFound w e x own late (.done (refuse (.timedOut e.function.name x.timeout)))
        (((w.log event).count e.context Counters.timeOut).abandon e.context own)
  | waits (hlive : w.ended? own = none) (hearly : late = false) :
      OwnFound w e x own late (.pending e) w

/-- A look at an execution goes by the call that it awaits, if there is one. -/
inductive Found (goOn : World → CallId → World) (w : World) (e : Execution) (late : Bool) :
    Polled → World → Prop where
  | missing {result} (hnowhere : w.contexts[e.context]? = none) :
      Found goOn w e late (.done result) w
  | nobody {x polled w'} (hhere : w.contexts[e.context]? = some x) (hmine : e.own? = none)
      (hnobody : e.awaits x = none) (hfound : w.BeginFound goOn e x polled w') :
      Found goOn w e late polled w'
  | earlier {x earlier polled w'} (hhere : w.contexts[e.context]? = some x)
      (hmine : e.own? = none) (hawaits : e.awaits x = some earlier)
      (hfound : w.EarlierFound goOn e x earlier late polled w') : Found goOn w e late polled w'
  | own {x own polled w'} (hhere : w.contexts[e.context]? = some x)
      (hphase : e.phase = .running own) (hfound : w.OwnFound e x own late polled w') :
      Found goOn w e late polled w'

variable {w w' : World} {c : ContextId} {e : Execution} {x : Context} {late : Bool}
  {polled : Polled} {goOn : World → CallId → World}

/-- The scope is looked at before the call starts. -/
theorem beginOwn_found (hfound : w.beginOwn e x goOn = (polled, w')) :
    w.BeginFound goOn e x polled w' := by
  unfold beginOwn at hfound
  split at hfound
  · next hfired =>
    obtain ⟨rfl, rfl⟩ := Prod.mk.inj hfound
    exact .cancelled hfired
  · split at hfound
    · next failure hstarts =>
      obtain ⟨rfl, rfl⟩ := Prod.mk.inj hfound
      exact .fails hstarts
    · next run hstarts =>
      obtain ⟨rfl, rfl⟩ := Prod.mk.inj hfound
      exact .begins hstarts

theorem pollBehind_found {earlier : CallId}
    (hfound : w.pollBehind e x earlier late goOn = (polled, w')) :
    w.EarlierFound goOn e x earlier late polled w' := by
  unfold pollBehind at hfound
  split at hfound
  · next hpast => exact .settled hpast (beginOwn_found hfound)
  · next hrunning =>
    have hlive : w.ended? earlier = none := by simpa using hrunning
    split at hfound
    · next hfired =>
      obtain ⟨rfl, rfl⟩ := Prod.mk.inj hfound
      exact .cancelled hlive hfired
    · next hunfired =>
      split at hfound
      · next hpassed =>
        obtain ⟨rfl, rfl⟩ := Prod.mk.inj hfound
        exact .timedOut hlive (Bool.eq_false_iff.mpr hunfired) hpassed
      · next hearly =>
        obtain ⟨rfl, rfl⟩ := Prod.mk.inj hfound
        exact .waits hlive (Bool.eq_false_iff.mpr hearly)

theorem pollRunning_found {own : CallId} (hfound : w.pollRunning e x own late = (polled, w')) :
    w.OwnFound e x own late polled w' := by
  unfold pollRunning at hfound
  -- an end counts first, then the scope, then the deadline
  split at hfound
  · next hpast =>
    obtain ⟨rfl, rfl⟩ := Prod.mk.inj hfound
    exact .returned hpast
  · next hpast =>
    obtain ⟨rfl, rfl⟩ := Prod.mk.inj hfound
    exact .panicked hpast
  · next hlive =>
    split at hfound
    · next hfired =>
      obtain ⟨rfl, rfl⟩ := Prod.mk.inj hfound
      exact .cancelled hlive hfired
    · next hunfired =>
      split at hfound
      · next hpassed =>
        obtain ⟨rfl, rfl⟩ := Prod.mk.inj hfound
        exact .timedOut hlive (Bool.eq_false_iff.mpr hunfired) hpassed
      · next hearly =>
        obtain ⟨rfl, rfl⟩ := Prod.mk.inj hfound
        exact .waits hlive (Bool.eq_false_iff.mpr hearly)

/-- The phase of an execution, and the record on its context, say which part of a look it is. -/
theorem pollWith_found (hfound : w.pollWith goOn e late = (polled, w')) :
    w.Found goOn e late polled w' := by
  unfold pollWith at hfound
  cases hhere : w.contexts[e.context]? with
  | none =>
    rw [hhere] at hfound
    obtain ⟨rfl, rfl⟩ := Prod.mk.inj hfound
    exact .missing hhere
  | some x =>
    rw [hhere] at hfound
    cases hphase : e.phase with
    | fresh =>
      have hmine : e.own? = none := by simp [Execution.own?, hphase]
      have hawaits : e.awaits x = x.inFlight := by simp [Execution.awaits, hphase]
      cases hrecord : x.inFlight with
      | some earlier =>
        simp only [hphase, hrecord] at hfound
        exact .earlier hhere hmine (hawaits.trans hrecord) (pollBehind_found hfound)
      | none =>
        simp only [hphase, hrecord] at hfound
        exact .nobody hhere hmine (hawaits.trans hrecord) (beginOwn_found hfound)
    | behind earlier =>
      simp only [hphase] at hfound
      exact .earlier hhere (by simp [Execution.own?, hphase]) (by simp [Execution.awaits, hphase])
        (pollBehind_found hfound)
    | running own =>
      simp only [hphase] at hfound
      exact .own hhere hphase (pollRunning_found hfound)

/-! ## What a look makes of contexts, calls and records -/

/-- What a look at an execution on a context `x` finds, and what it makes of contexts and calls. -/
inductive Looked (w : World) (e : Execution) (x : Context) : Polled → World → Prop where
  /-- It waits on for an earlier call. -/
  | waits {w' : World} {earlier} (hcalm : w.Calm w') (hmine : e.own? = none)
      (hawaits : e.awaits x = some earlier) (hlive : w.ended? earlier = none)
      (houtline : w'.outline? = w.outline?) (hcalls : w'.calls = w.calls) :
      Looked w e x (.pending { e with phase := .behind earlier }) w'
  /-- It gives up while an earlier call goes on. -/
  | givesUp {w' : World} {earlier result} (hcalm : w.Calm w') (hmine : e.own? = none)
      (hawaits : e.awaits x = some earlier) (hlive : w.ended? earlier = none)
      (houtline : w'.outline? = w.outline?) (hcalls : w'.calls = w.calls) :
      Looked w e x (.done result) w'
  /-- No earlier call goes on any more, and it begins its own. -/
  | begins {w' : World} {run} (hcalm : w.Calm w') (hmine : e.own? = none)
      (hpast : ∀ earlier, e.awaits x = some earlier → (w.ended? earlier).isSome)
      (houtline : w'.outline? = w.marked e.context (.record none))
      (hcalls : w'.calls = w.spawned e run) :
      Looked w e x (.pending { e with phase := .running w.calls.size }) w'
  /-- No earlier call goes on any more, but it begins none. -/
  | refuses {w' : World} {result} (hcalm : w.Calm w') (hmine : e.own? = none)
      (hpast : ∀ earlier, e.awaits x = some earlier → (w.ended? earlier).isSome)
      (houtline : w'.outline? = w.marked e.context (.record none)) (hcalls : w'.calls = w.calls) :
      Looked w e x (.done result) w'
  /-- Its own call goes on, and it waits for it. -/
  | stays {w' : World} {own} (hcalm : w.Calm w') (hmine : e.own? = some own)
      (hlive : w.ended? own = none) (houtline : w'.outline? = w.outline?)
      (hcalls : w'.calls = w.calls) : Looked w e x (.pending e) w'
  /-- Its own call is over. -/
  | joins {w' : World} {own result} (hcalm : w.Calm w') (hmine : e.own? = some own)
      (hpast : (w.ended? own).isSome) (houtline : w'.outline? = w.outline?)
      (hcalls : w'.calls = w.calls) : Looked w e x (.done result) w'
  /-- Its own call goes on, and it leaves it to itself. -/
  | abandons {w' : World} {own result} (hcalm : w.Calm w') (hmine : e.own? = some own)
      (hlive : w.ended? own = none)
      (houtline : w'.outline? = w.marked e.context (.record (some own)))
      (hcalls : w'.calls = w.calls) : Looked w e x (.done result) w'

/-- No look changes more than counters, contexts, calls and the log. -/
theorem Looked.calm (h : w.Looked e x polled w') : w.Calm w' := by
  cases h <;> assumption

/-- A look writes a record on the execution's context at most. -/
theorem Looked.outline_cases (h : w.Looked e x polled w') :
    w'.outline? = w.outline? ∨ ∃ call, w'.outline? = w.marked e.context (.record call) := by
  cases h with
  | waits _ _ _ _ hsame _ | givesUp _ _ _ _ hsame _ | stays _ _ _ hsame _ | joins _ _ _ hsame _ =>
    exact .inl hsame
  | begins _ _ _ hsame _ | refuses _ _ _ hsame _ => exact .inr ⟨none, hsame⟩
  | abandons _ _ _ hsame _ => exact .inr ⟨_, hsame⟩

/-- A look that leaves the execution as it was writes nothing. -/
theorem Looked.outline_of_rest (h : w.Looked e x polled w')
    (hsame : polled.rest = some e) : w'.outline? = w.outline? := by
  cases h with
  | waits _ _ _ _ houtline _ | stays _ _ _ houtline _ => exact houtline
  | begins _ hmine _ _ _ =>
    -- an execution that has begun its call is not the one that had none
    rw [← Option.some.inj hsame] at hmine
    cases hmine
  | givesUp | refuses | joins | abandons => cases hsame

/-- An execution goes on with its function on its context. -/
theorem Looked.function {e' : Execution} (hlooked : w.Looked e x polled w')
    (hrest : polled.rest = some e') : e'.context = e.context ∧ e'.function = e.function := by
  cases hlooked with
  | waits | begins | stays =>
    obtain rfl := Option.some.inj hrest
    exact ⟨rfl, rfl⟩
  | givesUp | refuses | joins | abandons => cases hrest

/-- A look begins a call at most, and only once no earlier call goes on. -/
theorem Looked.calls_cases (h : w.Looked e x polled w') :
    w'.calls = w.calls ∨
      ((∀ earlier, e.awaits x = some earlier → (w.ended? earlier).isSome) ∧
        polled = .pending { e with phase := .running w.calls.size } ∧
          ∃ run, w'.calls = w.spawned e run) := by
  cases h with
  | begins _ _ hpast _ hcalls => exact .inr ⟨hpast, rfl, _, hcalls⟩
  | waits _ _ _ _ _ hcalls | givesUp _ _ _ _ _ hcalls | refuses _ _ _ _ hcalls
  | stays _ _ _ _ hcalls | joins _ _ _ _ hcalls | abandons _ _ _ _ hcalls => exact .inl hcalls

/-- A look leaves the calls alone that are there. -/
theorem Looked.calls_kept (h : w.Looked e x polled w') {id : CallId} {call : Call}
    (hfound : w.calls[id]? = some call) : w'.calls[id]? = some call := by
  rcases h.calls_cases with hsame | ⟨-, -, run, hbegun⟩
  · rw [hsame, hfound]
  · have hinside := (Array.getElem?_eq_some_iff.mp hfound).1
    rw [hbegun, spawned, Array.getElem?_push, if_neg (Nat.ne_of_lt hinside), hfound]

theorem unrecord_calm (c : ContextId) (event : Log.Event) : w.Calm (w.unrecord c event) :=
  ((modifyContext_calm _).trans (count_calm c Counters.settle)).trans (log_calm event)

theorem unrecord_calls (c : ContextId) (event : Log.Event) :
    (w.unrecord c event).calls = w.calls :=
  (count_steady (w := w.modifyContext c _) c Counters.settle).calls

theorem unrecord_outline (c : ContextId) (event : Log.Event) :
    (w.unrecord c event).outline? = w.marked c (.record none) :=
  (count_steady (w := w.modifyContext c _) c Counters.settle).outline.trans
    (modifyContext_outline fun _ => rfl)

/-- An abandoned call is recorded on its context. -/
theorem abandon_outline {w₁ : World} {call : CallId} (hsame : w₁.outline? = w.outline?) :
    (w₁.abandon c call).outline? = w.marked c (.record (some call)) := by
  have hcounted := (count_steady (w := w₁) c Counters.abandon).outline
  unfold abandon
  rw [modifyContext_outline (g := .record (some call)) fun _ => rfl]
  exact marked_congr (hcounted.trans hsame) _

/-- No earlier call goes on any more: the execution begins its own, or is refused. -/
theorem BeginFound.looked {w₁ : World} (hmine : e.own? = none)
    (hpast : ∀ earlier, e.awaits x = some earlier → (w.ended? earlier).isSome)
    (hcalm : w.Calm w₁) (houtline : w₁.outline? = w.marked e.context (.record none))
    (hcalls : w₁.calls = w.calls)
    (hfound : w₁.BeginFound (fun w _ => w) e x polled w') : w.Looked e x polled w' := by
  cases hfound with
  | cancelled | fails => exact .refuses hcalm hmine hpast houtline hcalls
  | @begins run hstarts =>
    have hspawned : w₁.spawned e run = w.spawned e run := congrArg (Array.push · _) hcalls
    rw [hcalls]
    exact .begins (hcalm.trans ⟨.of_eq rfl, rfl, rfl, rfl, rfl⟩) hmine hpast houtline hspawned

/-- A look at an execution that waits behind an earlier call is one of these. -/
theorem EarlierFound.looked {earlier : CallId} (hmine : e.own? = none)
    (hawaits : e.awaits x = some earlier)
    (hfound : w.EarlierFound (fun w _ => w) e x earlier late polled w') :
    w.Looked e x polled w' := by
  cases hfound with
  | settled hpast hfound =>
    -- the record is cleared, and then the own call may begin
    refine hfound.looked hmine (fun other h => ?_) (unrecord_calm _ _) (unrecord_outline _ _)
      (unrecord_calls _ _)
    rw [hawaits, Option.some.injEq] at h
    rw [← h]
    exact hpast
  | cancelled hlive =>
    have hcounted := count_steady (w := w) e.context Counters.cancel
    exact .givesUp (count_calm _ _) hmine hawaits hlive hcounted.outline hcounted.calls
  | @timedOut event hlive =>
    have hcounted := (log_steady (w := w) event).trans (count_steady e.context Counters.timeOut)
    exact .givesUp ((log_calm _).trans (count_calm _ _)) hmine hawaits hlive hcounted.outline
      hcounted.calls
  | waits hlive => exact .waits (.refl _) hmine hawaits hlive rfl rfl

/-- An execution that has lost leaves its own call to itself. -/
theorem Looked.ofAbandon {w₁ : World} {own : CallId} {result : Outcome (List Value)}
    (hmine : e.own? = some own) (hlive : w.ended? own = none) (hsteady : w.Steady w₁)
    (hcalm : w.Calm w₁) : w.Looked e x (.done result) (w₁.abandon e.context own) := by
  refine .abandons (hcalm.trans ?_) hmine hlive (abandon_outline hsteady.outline) ?_
  · exact (count_calm _ _).trans (modifyContext_calm _)
  · exact (count_steady e.context Counters.abandon).calls.trans hsteady.calls

/-- So is a look at one whose own call is under way. -/
theorem OwnFound.looked {own : CallId} (hmine : e.own? = some own)
    (hfound : w.OwnFound e x own late polled w') : w.Looked e x polled w' := by
  cases hfound with
  | returned hpast =>
    have hcounted := count_steady (w := w) e.context Counters.complete
    exact .joins (count_calm _ _) hmine (by rw [hpast]; rfl) hcounted.outline hcounted.calls
  | panicked hpast =>
    have hcounted := count_steady (w := w) e.context Counters.fault
    exact .joins (count_calm _ _) hmine (by rw [hpast]; rfl) hcounted.outline hcounted.calls
  | cancelled hlive | timedOut hlive =>
    exact .ofAbandon hmine hlive ((log_steady _).trans (count_steady _ _))
      ((log_calm _).trans (count_calm _ _))
  | waits hlive => exact .stays (.refl _) hmine hlive rfl rfl

/-- An execution whose scope has fired while its own call goes on records the call and ends. -/
theorem pollRunning_cancelled {own : CallId} (hlive : w.ended? own = none)
    (hfired : w.hasFired x.scope = true) (late : Bool) :
    ∃ w₁, w.Steady w₁ ∧ w.pollRunning e x own late = (.done (refuse .cancelled),
      w₁.modifyContext e.context fun x => { x with inFlight := some own }) := by
  unfold pollRunning
  simp only [hlive, hfired, if_true]
  refine ⟨_, ?_, rfl⟩
  exact ((log_steady _).trans (count_steady _ _)).trans (count_steady _ _)

/-- Every look at an execution is one of these. -/
theorem pollWith_looked (hfound : w.pollWith (fun w _ => w) e late = (polled, w')) :
    (w.contexts[e.context]? = none ∧ (∃ result, polled = .done result) ∧ w' = w) ∨
      ∃ x, w.contexts[e.context]? = some x ∧ w.Looked e x polled w' := by
  cases pollWith_found hfound with
  | missing hnowhere => exact .inl ⟨hnowhere, ⟨_, rfl⟩, rfl⟩
  | @nobody x _ _ hhere hmine hnobody hfound =>
    refine .inr ⟨x, hhere, hfound.looked hmine (fun earlier h => ?_) (.refl w) ?_ rfl⟩
    · cases hnobody.symm.trans h
    · -- nothing was recorded, and nothing is
      funext d
      unfold marked
      by_cases hd : d = e.context
      · subst hd
        simp [outline?, hhere, Context.outline, Context.Outline.record,
          Execution.record_of_awaits hnobody]
      · rw [if_neg hd]
  | @earlier x _ _ _ hhere hmine hawaits hfound =>
    exact .inr ⟨x, hhere, hfound.looked hmine hawaits⟩
  | @own x own _ _ hhere hphase hfound =>
    exact .inr ⟨x, hhere, hfound.looked (Execution.own?_eq_some.mpr hphase)⟩

/-- What a look leaves of an execution is on the same context, and of the same function. -/
theorem pollWith_function {e' : Execution}
    (hfound : w.pollWith (fun w _ => w) e late = (.pending e', w')) :
    e'.context = e.context ∧ e'.function = e.function := by
  rcases pollWith_looked hfound with ⟨-, ⟨result, hsame⟩, -⟩ | ⟨x, -, hlooked⟩
  · cases hsame
  · exact hlooked.function rfl

/-! ## What no look changes -/

/-- A view of a world that shows no counters and no records, and nothing of the log and of calls. -/
structure Blind {α : Type} (f : World → α) : Prop where
  count : ∀ (w : World) (c : ContextId) (g : Counters → Counters), f (w.count c g) = f w
  record : ∀ (w : World) (c : ContextId) (call : Option CallId),
    f (w.modifyContext c fun x => { x with inFlight := call }) = f w
  log : ∀ (w : World) (event : Log.Event), f (w.log event) = f w
  calls : ∀ (w : World) (calls : Array Call), f { w with calls } = f w

namespace Blind

variable {α : Type} {f : World → α} (hblind : Blind f)
include hblind

/-- Beginning one's own call shows in no such view. -/
theorem beginFound (hfound : w.BeginFound (fun w _ => w) e x polled w') : f w' = f w := by
  cases hfound with
  | cancelled | fails => rfl
  | begins => exact hblind.calls w _

theorem unrecord (w : World) (c : ContextId) (event : Log.Event) : f (w.unrecord c event) = f w :=
  (hblind.log _ _).trans ((hblind.count _ c Counters.settle).trans (hblind.record w c none))

theorem abandon (w : World) (c : ContextId) (call : CallId) : f (w.abandon c call) = f w :=
  (hblind.record _ c (some call)).trans (hblind.count w c Counters.abandon)

/-- Nor does waiting behind an earlier call. -/
theorem earlierFound {earlier : CallId}
    (hfound : w.EarlierFound (fun w _ => w) e x earlier late polled w') : f w' = f w := by
  cases hfound with
  | settled _ hfound => exact (hblind.beginFound hfound).trans (hblind.unrecord w _ _)
  | cancelled => exact hblind.count w _ _
  | timedOut => exact (hblind.count _ _ _).trans (hblind.log w _)
  | waits => rfl

/-- Counters, records and logs are all that a look writes once a call is under way. -/
theorem ownFound {own : CallId} (hfound : w.OwnFound e x own late polled w') : f w' = f w := by
  cases hfound with
  | returned | panicked => exact hblind.count w _ _
  | cancelled | timedOut =>
    exact (hblind.abandon _ _ own).trans ((hblind.count _ _ _).trans (hblind.log w _))
  | waits => rfl

/-- No look at an execution shows in such a view. -/
theorem pollWith (hfound : w.pollWith (fun w _ => w) e late = (polled, w')) : f w' = f w := by
  cases pollWith_found hfound with
  | missing => rfl
  | nobody _ _ _ hfound => exact hblind.beginFound hfound
  | earlier _ _ _ hfound => exact hblind.earlierFound hfound
  | own _ _ hfound => exact hblind.ownFound hfound

end Blind

end World
end SandboxPool
