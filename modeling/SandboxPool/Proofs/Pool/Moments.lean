import SandboxPool.Proofs.Pool.Frames

/-!
# One go, moment by moment

`World.acquire`, `World.drive`, `World.runBackground` and the like do in one go what takes many
moments: asking for a permit and then taking a context, looking at an execution again and again,
letting one call after another go on. They are taken apart here once, for worlds alone. Things that
go on by themselves are a run of `World.Background`, getting a context is one of
`World.Approaches`, and driving an execution one of `World.Attends`. Whoever follows each of these
moves follows the whole (`followed`): scenes, visits, round trips, the program with its callers.
-/

namespace SandboxPool

/-- A run of small moves can be followed by those who can follow each of them. -/
theorem followed {α σ : Type} {r : α → α → Prop} {R : σ → σ → Prop} {P : α → σ → Prop}
    (hfollows : ∀ {a b s}, r a b → P a s → ∃ t, Relation.ReflTransGen R s t ∧ P b t) {a b : α}
    {s : σ} (hrun : Relation.ReflTransGen r a b) (hat : P a s) :
    ∃ t, Relation.ReflTransGen R s t ∧ P b t := by
  induction hrun with
  | refl => exact ⟨s, .refl, hat⟩
  | tail _ hmove ih =>
    obtain ⟨t, hfirst, hat'⟩ := ih
    obtain ⟨u, hlast, hat''⟩ := hfollows hmove hat'
    exact ⟨u, hfirst.trans hlast, hat''⟩

namespace World

variable {w w' : World}

/-! ## Contexts that wait for a call -/

section deferred

/-- The same world, but for the contexts that wait for a call. -/
def withDeferred (w : World) (deferred : List (ContextId × CallId)) : World := { w with deferred }

variable (w : World) (deferred : List (ContextId × CallId)) (place : Nat) (c : ContextId)

theorem count_withDeferred (f : Counters → Counters) :
    (w.withDeferred deferred).count c f = (w.count c f).withDeferred deferred := by
  unfold count withDeferred
  dsimp only [poolIndex?]
  split <;> rfl

/-- A context is queued whatever else waits for a call. -/
theorem enqueue_withDeferred : (w.withDeferred deferred).enqueue place c =
    ((w.enqueue place c).1, (w.enqueue place c).2.withDeferred deferred) := by
  unfold enqueue clear freshScope modifyContext withDeferred
  dsimp only
  split
  · split <;> rfl
  · rfl

/-- Its permit is given whatever else waits. -/
theorem announce_withDeferred : (w.withDeferred deferred).announce place c =
    (w.announce place c).withDeferred deferred := by
  unfold announce withDeferred
  dsimp only
  split <;> rfl

/-- It comes back whatever else waits. -/
theorem requeue_withDeferred : (w.withDeferred deferred).requeue place c =
    ((w.requeue place c).1, (w.requeue place c).2.withDeferred deferred) := by
  unfold requeue
  rw [enqueue_withDeferred]
  rcases w.enqueue place c with ⟨returned, w₁⟩
  rcases returned with _ | (_ | _ | _)
  · rfl
  · dsimp only
    rw [announce_withDeferred]
  · rfl
  · rfl

/-- What else waits for a call makes no difference to a context that goes back. -/
theorem putBack_withDeferred :
    (w.withDeferred deferred).putBack c = (w.putBack c).withDeferred deferred := by
  unfold putBack
  rw [count_withDeferred]
  generalize w.count c Counters.settle = w₁
  dsimp only
  have hhome : ((w₁.withDeferred deferred).contexts[c]?).bind
      (fun x => (w₁.withDeferred deferred).poolIndex? x.pool) =
      (w₁.contexts[c]?).bind fun x => w₁.poolIndex? x.pool := rfl
  rw [hhome]
  split
  · rfl
  · rw [requeue_withDeferred]
    rcases w₁.requeue _ c with ⟨result | result, w₂⟩ <;> rfl

theorem count_deferred (f : Counters → Counters) : (w.count c f).deferred = w.deferred := by
  unfold count
  split <;> rfl

/-- A context that goes back makes no other one wait. -/
theorem putBack_deferred : (w.putBack c).deferred = w.deferred := by
  have hsame : w.putBack c = (w.putBack c).withDeferred w.deferred :=
    putBack_withDeferred w w.deferred c
  rw [hsame]
  rfl

theorem requeue_calls : (w.requeue place c).2.calls = w.calls := by
  rcases hback : w.requeue place c with ⟨result, w'⟩
  obtain ⟨returned, w₁, hqueued, ⟨-, rfl⟩ | ⟨-, rfl⟩⟩ := requeue_cases hback
  · exact (announce_steady place c).calls.trans (enqueue_calls hqueued)
  · exact enqueue_calls hqueued

/-- It goes back without touching any call. -/
theorem putBack_calls : (w.putBack c).calls = w.calls := by
  -- Neither the counter nor the queue knows of calls.
  have hcounted := (count_steady (w := w) c Counters.settle).calls
  rcases putBack_cases w c with ⟨-, hsame⟩ | ⟨place, result, w₂, -, hback, hsame⟩
  · rw [hsame, hcounted]
  · have hkept := requeue_calls (w.count c Counters.settle) place c
    rw [hback] at hkept
    rcases hsame with hsame | ⟨event, hsame⟩ <;>
      · rw [hsame]
        exact hkept.trans hcounted

end deferred

/-! ## What goes on by itself -/

/-- What may happen at one moment without a caller. -/
inductive Background : World → World → Prop where
  /-- A guest call goes on for a while; the gates in `shut` are still closed to it. -/
  | carries {w : World} (id : CallId) (fuel : Nat) (shut : List String) :
      Background w (w.carryFor (fun _ => fuel) shut id)
  /-- A context that waited for a call goes back, for the call is over. -/
  | settles {w : World} {l r : List (ContextId × CallId)} {c : ContextId} {call : CallId}
      (hfound : w.deferred = l ++ (c, call) :: r) (hpast : (w.ended? call).isSome) :
      Background w ({ w with deferred := l ++ r }.putBack c)

/-- However the steps of a call are counted, it takes a number of them. -/
theorem carryFor_bounded (w : World) (fuel : GuestRun → Nat) (shut : List String) (id : CallId) :
    ∃ n, w.carryFor fuel shut id = w.carryFor (fun _ => n) shut id := by
  unfold carryFor
  cases w.calls[id]? with
  | none => exact ⟨0, rfl⟩
  | some call =>
    dsimp only
    cases call.state with
    | ready run => exact ⟨fuel run, rfl⟩
    | atGate gate run => exact ⟨fuel run, rfl⟩
    | waiting scope gate run => exact ⟨fuel run, rfl⟩
    | ended r => exact ⟨0, rfl⟩

theorem carryFor_background (w : World) (fuel : GuestRun → Nat) (shut : List String)
    (id : CallId) : Background w (w.carryFor fuel shut id) := by
  obtain ⟨n, hsame⟩ := w.carryFor_bounded fuel shut id
  rw [hsame]
  exact .carries id n shut

/-- All calls going on is each of them going on, one after another. -/
theorem carryAll_background (w : World) : Relation.ReflTransGen Background w w.carryAll := by
  have hall (ids : List CallId) (w : World) :
      Relation.ReflTransGen Background w (ids.foldl (carryOn []) w) := by
    induction ids generalizing w with
    | nil => exact .refl
    | cons id ids ih => exact .head (w.carryFor_background GuestRun.budget [] id) (ih _)
  exact hall _ w

/-- Of the contexts in `rest`, those whose calls are over go back one after another. The ones in
`kept` wait on. -/
theorem putBackAll_background {past : ContextId × CallId → Bool}
    {rest kept : List (ContextId × CallId)} (w : World) (hdeferred : w.deferred = kept ++ rest)
    (hended : ∀ d, past d = (w.ended? d.2).isSome) :
    Relation.ReflTransGen Background w
      ((rest.filter past).foldl (fun w d => putBack w d.1)
        (w.withDeferred (kept ++ rest.filter (not ∘ past)))) := by
  -- by induction on `rest`; what is decided to wait moves on to the end of `kept`
  induction rest generalizing kept w with
  | nil =>
    rw [List.filter_nil, List.filter_nil, ← hdeferred]
    exact .refl
  | cons d rest ih =>
    cases hsettled : past d with
    | false =>
      have hwaits : w.deferred = (kept ++ [d]) ++ rest := by
        rw [hdeferred, List.append_assoc]
        rfl
      have hnext := ih w hwaits hended
      rw [List.append_assoc] at hnext
      rw [List.filter_cons_of_neg (p := past) (by simp [hsettled]),
        List.filter_cons_of_pos (p := not ∘ past) (by simp [hsettled])]
      exact hnext
    | true =>
      let w₁ := (w.withDeferred (kept ++ rest)).putBack d.1
      have hback : Background w w₁ :=
        .settles (l := kept) (c := d.1) hdeferred ((hended d).symm.trans hsettled)
      have hcalls : w₁.calls = w.calls := putBack_calls _ d.1
      have hnext := ih w₁ (putBack_deferred _ d.1) fun d => by
        rw [hended d, ended?_of_calls hcalls]
      have hsame (others : List (ContextId × CallId)) :
          w₁.withDeferred others = (w.withDeferred others).putBack d.1 := by
        show ((w.withDeferred (kept ++ rest)).putBack d.1).withDeferred others = _
        rw [putBack_withDeferred, putBack_withDeferred]
        rfl
      rw [hsame] at hnext
      rw [List.filter_cons_of_pos (p := past) hsettled,
        List.filter_cons_of_neg (p := not ∘ past) (by simp [hsettled])]
      exact .head hback hnext

/-- Putting back all contexts whose calls are over is putting back each of them. -/
theorem settleDeferred_background (w : World) :
    Relation.ReflTransGen Background w w.settleDeferred := by
  unfold settleDeferred
  rw [List.partition_eq_filter_filter]
  exact putBackAll_background w (List.nil_append _).symm fun _ => rfl

/-- What goes on by itself in one go is a run of single things. -/
theorem runBackground_background (w : World) :
    Relation.ReflTransGen Background w w.runBackground :=
  w.carryAll_background.trans w.carryAll.settleDeferred_background

/-! ## Getting a context -/

/-- Where one stands who wants a context of an open pool. -/
inductive Applicant where
  | asking
  | waiting (v : Waiter)
  | permitted
  | answered (taken : Outcome ContextId)

namespace Applicant

/-- What follows an answer of the permits. -/
def ofAsked : Asked → Applicant
  | .refused cause => answered (refuse cause)
  | .permitted => permitted
  | .inLine v => waiting v

/-- What follows an attempt to borrow. -/
def ofBorrowed : Borrowed → Applicant
  | .answered taken => answered taken
  | .waiting v => waiting v

end Applicant

/-- What one who wants a context of the pool at `q` does at one moment. -/
inductive Approaches (q : Nat) (scope : ScopeId) : World × Applicant → World × Applicant →
    Prop where
  | asks {w w' : World} {asked : Asked} (hfound : w.ask q scope = (asked, w')) :
      Approaches q scope (w, .asking) (w', .ofAsked asked)
  | looks {w w' : World} {v : Waiter} {asked : Asked}
      (hfound : w.askAgain q scope v = (asked, w')) :
      Approaches q scope (w, .waiting v) (w', .ofAsked asked)
  | takes {w w' : World} {taken : Outcome ContextId}
      (hfound : w.handOut q scope = (taken, w')) :
      Approaches q scope (w, .permitted) (w', .answered taken)

variable {q : Nat} {scope : ScopeId} {borrowed : Borrowed}

/-- Going on with the answer to one who asked for a permit. -/
theorem answer_approaches {asked : Asked} (hfound : answer q scope (asked, w) = (borrowed, w')) :
    Relation.ReflTransGen (Approaches q scope) (w, .ofAsked asked) (w', .ofBorrowed borrowed) := by
  cases asked with
  | refused cause =>
    obtain ⟨rfl, rfl⟩ := Prod.mk.inj hfound
    exact .refl
  | inLine v =>
    obtain ⟨rfl, rfl⟩ := Prod.mk.inj hfound
    exact .refl
  -- The permit is at hand, and a context is taken with it before anything else happens.
  | permitted =>
    rcases htaken : w.handOut q scope with ⟨result, w₁⟩
    unfold answer at hfound
    dsimp only at hfound
    rw [htaken] at hfound
    obtain ⟨rfl, rfl⟩ := Prod.mk.inj hfound
    exact .single (.takes htaken)

/-- Getting a context of an open pool in one go, as far as it goes without waiting. -/
theorem acquire_approaches (hopen : w.isOpen q) (hfound : w.acquire q scope = (borrowed, w')) :
    Relation.ReflTransGen (Approaches q scope) (w, .asking) (w', .ofBorrowed borrowed) := by
  unfold acquire at hfound
  rw [if_pos hopen] at hfound
  rcases hasks : w.ask q scope with ⟨asked, w₁⟩
  rw [hasks] at hfound
  exact .head (.asks hasks) (answer_approaches hfound)

/-- A pool that is closed refuses at once. -/
theorem acquire_shut (hshut : w.isOpen q = false) (scope : ScopeId) :
    w.acquire q scope = (.answered (refuse .shuttingDown), w) := by
  unfold acquire
  rw [if_neg (Bool.eq_false_iff.mp hshut)]

/-- The same for one who stood in line. -/
theorem lookAgain_approaches {v : Waiter} (hfound : w.lookAgain q scope v = (borrowed, w')) :
    Relation.ReflTransGen (Approaches q scope) (w, .waiting v) (w', .ofBorrowed borrowed) := by
  unfold lookAgain at hfound
  rcases hasks : w.askAgain q scope v with ⟨asked, w₁⟩
  rw [hasks] at hfound
  exact .head (.looks hasks) (answer_approaches hfound)

/-! ## Driving an execution -/

/-- What happens at one moment while someone waits for an execution: a look at it, whose deadline
may have passed, or something that goes on by itself. -/
inductive Attends : World × Polled → World × Polled → Prop where
  | looks {w w' : World} {e : Execution} {late : Bool} {polled : Polled}
      (hfound : w.pollWith (fun w _ => w) e late = (polled, w')) :
      Attends (w, .pending e) (w', polled)
  | between {w w' : World} {polled : Polled} (hbackground : Background w w') :
      Attends (w, polled) (w', polled)

variable {e : Execution} {x : Context} {late : Bool} {polled : Polled}
  {goOn : World → CallId → World} {shut : List String}

/-- A look as the program takes it is a look after which a call that has begun goes on. -/
theorem beginOwn_goOn (hfound : w.beginOwn e x goOn = (polled, w')) :
    ∃ w₁, w.beginOwn e x (fun w _ => w) = (polled, w₁) ∧ (w' = w₁ ∨ ∃ own, w' = goOn w₁ own) := by
  unfold beginOwn at hfound ⊢
  split at hfound
  · next hfired =>
    rw [if_pos hfired]
    obtain ⟨rfl, rfl⟩ := Prod.mk.inj hfound
    exact ⟨w, rfl, .inl rfl⟩
  -- What follows a call that has begun is the only thing that depends on it.
  · next hunfired =>
    rw [if_neg hunfired]
    cases hstarts : w.begin e.function e.args with
    | error failure =>
      rw [hstarts] at hfound
      obtain ⟨rfl, rfl⟩ := Prod.mk.inj hfound
      exact ⟨w, rfl, .inl rfl⟩
    | ok run =>
      rw [hstarts] at hfound
      obtain ⟨rfl, rfl⟩ := Prod.mk.inj hfound
      exact ⟨_, rfl, .inr ⟨_, rfl⟩⟩

theorem pollBehind_goOn {earlier : CallId}
    (hfound : w.pollBehind e x earlier late goOn = (polled, w')) :
    ∃ w₁, w.pollBehind e x earlier late (fun w _ => w) = (polled, w₁) ∧
      (w' = w₁ ∨ ∃ own, w' = goOn w₁ own) := by
  unfold pollBehind at hfound ⊢
  cases hpast : (w.ended? earlier).isSome with
  | true =>
    simp only [hpast, if_true] at hfound
    rw [if_pos rfl]
    exact beginOwn_goOn hfound
  | false =>
    simp only [hpast, Bool.false_eq_true, if_false] at hfound ⊢
    exact ⟨w', hfound, .inl rfl⟩

theorem pollWith_goOn (hfound : w.pollWith goOn e late = (polled, w')) :
    ∃ w₁, w.pollWith (fun w _ => w) e late = (polled, w₁) ∧
      (w' = w₁ ∨ ∃ own, w' = goOn w₁ own) := by
  unfold pollWith at hfound ⊢
  cases hhere : w.contexts[e.context]? with
  | none =>
    rw [hhere] at hfound
    exact ⟨w', hfound, .inl rfl⟩
  | some x =>
    rw [hhere] at hfound
    dsimp only at hfound ⊢
    -- Only a look that begins a call goes on from there, and two of the phases can.
    cases hphase : e.phase with
    | fresh =>
      rw [hphase] at hfound
      cases hrecord : x.inFlight with
      | none =>
        simp only [hrecord] at hfound
        exact beginOwn_goOn hfound
      | some earlier =>
        simp only [hrecord] at hfound
        exact pollBehind_goOn hfound
    | behind earlier =>
      rw [hphase] at hfound
      exact pollBehind_goOn hfound
    | running own =>
      rw [hphase] at hfound
      exact ⟨w', hfound, .inl rfl⟩

/-- A look with a call that goes on is a look, and the call going on. -/
theorem poll_attends (hfound : w.poll e late shut = (polled, w')) :
    Relation.ReflTransGen Attends (w, .pending e) (w', polled) := by
  obtain ⟨w₁, hlook, rfl | ⟨own, rfl⟩⟩ := pollWith_goOn hfound
  · exact .single (.looks hlook)
  · have hwent : Background w₁ (carryOn shut w₁ own) := w₁.carryFor_background _ shut own
    exact .head (.looks hlook) (.single (.between hwent))

theorem runBackground_attends (w : World) (polled : Polled) :
    Relation.ReflTransGen Attends (w, polled) (w.runBackground, polled) :=
  w.runBackground_background.lift (·, polled) fun _ _ => .between

/-- Looking at an execution, with everything else in between. -/
theorem pollFor_attends {times : Nat} (hfound : pollFor shut times w e = (polled, w')) :
    Relation.ReflTransGen Attends (w, .pending e) (w', polled) := by
  -- Between two looks everybody else has a turn.
  induction times generalizing w e with
  | zero =>
    obtain ⟨rfl, rfl⟩ := Prod.mk.inj hfound
    exact .refl
  | succ times ih =>
    unfold pollFor at hfound
    rcases hlook : w.poll e false shut with ⟨polled₁, w₁⟩
    rw [hlook] at hfound
    have hlooked := poll_attends hlook
    cases polled₁ with
    | done result =>
      obtain ⟨rfl, rfl⟩ := Prod.mk.inj hfound
      exact hlooked
    | pending e₁ => exact (hlooked.trans (w₁.runBackground_attends _)).trans (ih hfound)

/-- If an execution that is driven has not come to its end before its deadline, it does so then. -/
def EndsInTime (w : World) (e : Execution) : Prop :=
  ∀ {run : Execution} {w' : World}, pollFor [] looks w e = (.pending run, w') →
    ∃ result w'', w'.poll run true [] = (.done result, w'')

/-- Driving an execution, if it ends at its deadline at the latest. -/
theorem drive_attends (hinTime : w.EndsInTime e) {result : Outcome (List Value)}
    (hfound : w.drive e = (result, w')) :
    Relation.ReflTransGen Attends (w, .pending e) (w', .done result) := by
  unfold drive at hfound
  rcases hlooks : pollFor [] looks w e with ⟨polled, w₁⟩
  have hlooked := pollFor_attends hlooks
  rw [hlooks] at hfound
  cases polled with
  | done answer =>
    obtain ⟨rfl, rfl⟩ := Prod.mk.inj hfound
    exact hlooked
  | pending run =>
    obtain ⟨answer, w₂, hlast⟩ := hinTime hlooks
    dsimp only at hfound
    rw [hlast] at hfound
    obtain ⟨rfl, rfl⟩ := Prod.mk.inj hfound
    exact hlooked.trans (poll_attends hlast)

end World
end SandboxPool
