import SandboxPool.Proofs.Pool.Scene

/-!
# What the operations of a world leave alone

Most operations of a `World` change one thing: a pool, a context, a call. The lemmas here say
which, so that what holds of the rest need not be proved again for each of them.
-/

namespace SandboxPool

/-- What is written on a context about who has it. -/
structure Context.Outline where
  pool : Nat
  scope : ScopeId
  inFlight : Option CallId

namespace Context.Outline

/-- The same context under another scope. -/
def under (scope : ScopeId) (o : Outline) : Outline := { o with scope }

/-- The same context with a record of an abandoned call, or of none. -/
def record (call : Option CallId) (o : Outline) : Outline := { o with inFlight := call }

end Context.Outline

/-- What a context says of who has it. -/
def Context.outline (x : Context) : Context.Outline := ⟨x.pool, x.scope, x.inFlight⟩

namespace World

variable {w w' : World} {place q : Nat} {c d : ContextId} {scope : ScopeId}

/-! ## Pools -/

/-- The pools of two worlds differ in their counters at most. -/
def Recounts (w w' : World) : Prop :=
  ∃ f : Nat → Counters → Counters, ∀ q : Nat,
    w'.pools[q]? = (w.pools[q]?).map fun p => p.count (f q)

/-- Worlds with the same pools have the same counters too. -/
theorem Recounts.of_eq (h : w'.pools = w.pools) : w.Recounts w' := by
  refine ⟨fun _ => id, fun q => ?_⟩
  rw [h]
  exact (Option.map_id' (x := w.pools[q]?)).symm

/-- Counting on in one world after the other is counting once with both. -/
theorem Recounts.trans {w'' : World} (h : w.Recounts w') (h' : w'.Recounts w'') :
    w.Recounts w'' := by
  obtain ⟨f, hf⟩ := h
  obtain ⟨g, hg⟩ := h'
  refine ⟨fun q => g q ∘ f q, fun q => ?_⟩
  rw [hg, hf, Option.map_map]
  rfl

/-- A change of one pool leaves the others as they are. -/
theorem modifyPool_pools (f : Pool → Pool) :
    (w.modifyPool place f).pools[q]? =
      if q = place then (w.pools[q]?).map f else w.pools[q]? := by
  unfold modifyPool
  rw [Array.getElem?_modify]
  by_cases hq : q = place
  · simp [hq]
  · simp [hq, Ne.symm hq]

/-- The pool that was put at a place is the one found there. -/
theorem setPool_same {p p' : Pool} (hfound : (w.setPool place p).pools[place]? = some p') :
    p' = p := by
  unfold setPool at hfound
  rw [Array.getElem?_setIfInBounds_self] at hfound
  split at hfound
  · exact (Option.some.inj hfound).symm
  · cases hfound

/-- A pool that is put at a place leaves the other places alone. -/
theorem setPool_other {p : Pool} (h : q ≠ place) :
    (w.setPool place p).pools[q]? = w.pools[q]? := by
  unfold setPool
  rw [Array.getElem?_setIfInBounds, if_neg (Ne.symm h)]

theorem modifyPool_recounts (f : Counters → Counters) :
    w.Recounts (w.modifyPool place (·.count f)) := by
  refine ⟨fun q => if q = place then f else id, fun q => ?_⟩
  rw [modifyPool_pools]
  by_cases hq : q = place
  · simp [hq]
  · simp only [hq, if_false]
    exact (Option.map_id' (x := w.pools[q]?)).symm

/-- Counting for a context changes the counters of one pool, or nothing. -/
theorem count_recounts (c : ContextId) (f : Counters → Counters) : w.Recounts (w.count c f) := by
  unfold count
  split
  · exact modifyPool_recounts f
  · exact .of_eq rfl

/-! ## Contexts and calls -/

/-- What the context with a number says of who has it. -/
def outline? (w : World) (c : ContextId) : Option Context.Outline :=
  (w.contexts[c]?).map Context.outline

/-- The context that has to wait for a call, because the call was begun on it. -/
def owner? (w : World) (id : CallId) : Option ContextId := (w.calls[id]?).map Call.context

/-- Where a call runs: the context whose guest it is on. -/
def site? (w : World) (id : CallId) : Option ContextId := (w.calls[id]?).map Call.home

theorem site?_of_calls (hsame : w'.calls = w.calls) : w'.site? = w.site? := by
  funext id
  unfold site?
  rw [hsame]

theorem owner?_of_calls (hsame : w'.calls = w.calls) : w'.owner? = w.owner? := by
  funext id
  unfold owner?
  rw [hsame]

/-- Where the calls are the same, the same of them are over. -/
theorem ended?_of_calls (hsame : w'.calls = w.calls) : w'.ended? = w.ended? := by
  funext id
  unfold ended?
  rw [hsame]

/-- A change of one context leaves the others as they are. -/
theorem modifyContext_contexts (f : Context → Context) :
    (w.modifyContext c f).contexts[d]? =
      if d = c then (w.contexts[d]?).map f else w.contexts[d]? := by
  unfold modifyContext
  rw [Array.getElem?_modify]
  by_cases hd : d = c
  · simp [hd]
  · simp [hd, Ne.symm hd]

/-- What contexts say once something else is written on one of them. -/
def marked (w : World) (c : ContextId) (f : Context.Outline → Context.Outline) :
    ContextId → Option Context.Outline :=
  fun d => if d = c then (w.outline? d).map f else w.outline? d

/-- The other contexts say what they said. -/
theorem marked_other {f : Context.Outline → Context.Outline} (h : d ≠ c) :
    w.marked c f d = w.outline? d := if_neg h

theorem marked_self {f : Context.Outline → Context.Outline} {x : Context}
    (hhere : w.contexts[c]? = some x) : w.marked c f c = some (f x.outline) := by
  unfold marked outline?
  rw [if_pos rfl, hhere]
  rfl

/-- Whoever looks only at what stays the same sees no difference. -/
theorem marked_kept {β : Type} {f : Context.Outline → Context.Outline}
    (view : Option Context.Outline → β) (hkept : ∀ o, view (some (f o)) = view (some o))
    (d : ContextId) : view (w.marked c f d) = view (w.outline? d) := by
  unfold marked
  by_cases hd : d = c
  · rw [if_pos hd]
    cases w.outline? d with
    | none => rfl
    | some o => exact hkept o
  · rw [if_neg hd]

/-- A change of a context is a mark on it if it shows as one. -/
theorem modifyContext_outline {f : Context → Context} {g : Context.Outline → Context.Outline}
    (hshown : ∀ x, (f x).outline = g x.outline) :
    (w.modifyContext c f).outline? = w.marked c g := by
  funext d
  unfold outline? marked outline?
  rw [modifyContext_contexts]
  by_cases hd : d = c
  · rw [if_pos hd, if_pos hd, Option.map_map, Option.map_map]
    exact congrArg (Option.map · w.contexts[d]?) (funext hshown)
  · rw [if_neg hd, if_neg hd]

theorem marked_congr {w' : World} (hsame : w'.outline? = w.outline?)
    (f : Context.Outline → Context.Outline) : w'.marked c f = w.marked c f := by
  unfold marked
  rw [hsame]

/-- A change of a context that does not show in its outline. -/
theorem modifyContext_hidden {f : Context → Context}
    (hhidden : ∀ x, w.contexts[c]? = some x → (f x).outline = x.outline) :
    (w.modifyContext c f).outline? = w.outline? := by
  funext d
  unfold outline?
  rw [modifyContext_contexts]
  by_cases hd : d = c
  · subst hd
    -- a context that is not there shows nothing before or after
    cases hx : w.contexts[d]? with
    | none => simp
    | some x => simp [hhidden x hx]
  · simp only [hd, if_false]

/-- What whoever has a context may do with it does not show in what is written on it. -/
theorem touch_outline {x y : Context} (hhere : w.contexts[c]? = some x) (htouched : x.Touched y) :
    (w.modifyContext c fun _ => y).outline? = w.outline? := by
  refine modifyContext_hidden fun x' hhere' => ?_
  obtain rfl : x = x' := Option.some.inj (hhere.symm.trans hhere')
  cases htouched <;> rfl

@[simp] theorem log_outline (event : Log.Event) : (w.log event).outline? = w.outline? := rfl

@[simp] theorem setPool_outline (p : Pool) : (w.setPool place p).outline? = w.outline? := rfl

/-- Two worlds with the same contexts and calls, in which the same scopes have fired and the
services are the same. -/
structure Steady (w w' : World) : Prop where
  contexts : w'.contexts = w.contexts
  calls : w'.calls = w.calls
  fired : w'.fired = w.fired
  nextScope : w'.nextScope = w.nextScope
  services : w'.services = w.services

namespace Steady

theorem refl (w : World) : w.Steady w := ⟨rfl, rfl, rfl, rfl, rfl⟩

theorem trans {w'' : World} (h : w.Steady w') (h' : w'.Steady w'') : w.Steady w'' :=
  ⟨h'.1.trans h.1, h'.2.trans h.2, h'.3.trans h.3, h'.4.trans h.4, h'.5.trans h.5⟩

/-- Contexts that are the same say the same. -/
theorem outline (h : w.Steady w') : w'.outline? = w.outline? := by
  funext c
  unfold outline?
  rw [h.contexts]

theorem owner (h : w.Steady w') : w'.owner? = w.owner? := owner?_of_calls h.calls

theorem ended (h : w.Steady w') : w'.ended? = w.ended? := ended?_of_calls h.calls

end Steady

theorem log_steady (event : Log.Event) : w.Steady (w.log event) := ⟨rfl, rfl, rfl, rfl, rfl⟩

/-- Counting touches the counters of a pool and nothing else. -/
theorem count_steady (c : ContextId) (f : Counters → Counters) : w.Steady (w.count c f) := by
  unfold count
  split <;> exact ⟨rfl, rfl, rfl, rfl, rfl⟩

/-- One who asks for a permit changes the pool alone. -/
theorem ask_steady {asked : Asked} (hfound : w.ask place scope = (asked, w')) : w.Steady w' := by
  unfold ask at hfound
  split at hfound
  · exact (Prod.mk.inj hfound).2 ▸ .refl w
  · split at hfound
    · exact (Prod.mk.inj hfound).2 ▸ .refl w
    · exact (Prod.mk.inj hfound).2 ▸ ⟨rfl, rfl, rfl, rfl, rfl⟩

/-- So does one who looks again. -/
theorem askAgain_steady {v : Waiter} {asked : Asked}
    (hfound : w.askAgain place scope v = (asked, w')) : w.Steady w' := by
  unfold askAgain at hfound
  split at hfound
  · exact (Prod.mk.inj hfound).2 ▸ .refl w
  · split at hfound <;> exact (Prod.mk.inj hfound).2 ▸ ⟨rfl, rfl, rfl, rfl, rfl⟩

/-- Giving a permit changes the pool alone, whoever gets it. -/
theorem announce_steady (place : Nat) (c : ContextId) : w.Steady (w.announce place c) := by
  unfold announce
  split <;> exact ⟨rfl, rfl, rfl, rfl, rfl⟩

/-- Closing a pool leaves the contexts and the calls as they are. -/
theorem close_steady (place : Nat) : w.Steady (w.close place) := by
  unfold close
  split <;> exact ⟨rfl, rfl, rfl, rfl, rfl⟩

/-! ## Guest calls that go on -/

/-- What carrying a call on leaves alone. -/
structure Carried (w w' : World) : Prop where
  pools : w'.pools = w.pools
  outline : w'.outline? = w.outline?
  owner : w'.owner? = w.owner?
  site : w'.site? = w.site?
  ended : ∀ {id r}, w.ended? id = some r → w'.ended? id = some r
  fired : w'.fired = w.fired
  nextScope : w'.nextScope = w.nextScope
  nextWaiter : w'.nextWaiter = w.nextWaiter
  deferred : w'.deferred = w.deferred

theorem Carried.refl (w : World) : w.Carried w := ⟨rfl, rfl, rfl, rfl, id, rfl, rfl, rfl, rfl⟩

/-- A call is over with an end if that is the state it is in. -/
theorem ended?_eq_some {id : CallId} {r : CallEnd} :
    w.ended? id = some r ↔ ∃ call, w.calls[id]? = some call ∧ call.state = .ended r := by
  unfold ended?
  cases hc : w.calls[id]? with
  | none => simp
  | some call => cases hs : call.state <;> simp [hs]

/-- What is seen of the calls once one of them is another that is seen alike. -/
theorem setCall_seen {β : Type} (view : Call → β) {id : CallId} {call call' : Call}
    (hfound : w.calls[id]? = some call) (halike : view call' = view call) (i : CallId) :
    ((w.calls.setIfInBounds id call')[i]?).map view = (w.calls[i]?).map view := by
  have hinside : id < w.calls.size := (Array.getElem?_eq_some_iff.mp hfound).1
  rw [Array.getElem?_setIfInBounds]
  by_cases hi : id = i
  · subst hi
    rw [if_pos rfl, if_pos hinside, hfound]
    exact congrArg some halike
  · rw [if_neg hi]

/-- A call that is not over goes on without touching pools, records or what is over. -/
theorem carry_carried {id : CallId} {call : Call}
    {act : GuestInstance → HostState → Progress GuestRun × GuestInstance × HostState}
    (hfound : w.calls[id]? = some call) (hlive : ∀ r, call.state ≠ .ended r) :
    w.Carried (w.carry id call act) := by
  unfold carry
  cases hx : w.contexts[call.home]? with
  | none => exact .refl w
  | some x =>
    rcases hact : act x.guest (w.hostState x) with ⟨progress, g, h⟩
    simp only [hact]
    refine ⟨rfl, ?_, funext ?_, funext ?_, ?_, rfl, rfl, rfl, rfl⟩
    · exact modifyContext_hidden
        (w := { w with services := h.services, journal := h.journal }) fun _ _ => rfl
    · exact setCall_seen Call.context hfound rfl
    · exact setCall_seen Call.home hfound rfl
    · intro i r hpast
      rw [ended?_eq_some] at hpast ⊢
      obtain ⟨other, hother, hstate⟩ := hpast
      simp only [absorb, modifyContext, Array.getElem?_setIfInBounds]
      -- the call that went on had not ended
      have hi : id ≠ i := by
        rintro rfl
        rw [hfound, Option.some.injEq] at hother
        exact hlive r (hother ▸ hstate)
      exact ⟨other, by rw [if_neg hi]; exact hother, hstate⟩

/-- Nor does carrying a call on as far as it goes; at a closed gate and after its end nothing
happens. -/
theorem carryFor_carried (fuel : GuestRun → Nat) (shut : List String) (id : CallId) :
    w.Carried (w.carryFor fuel shut id) := by
  unfold carryFor
  cases hfound : w.calls[id]? with
  | none => exact .refl w
  | some call =>
    -- only a call that has not ended goes on
    cases hs : call.state with
    | ready run =>
      simp only [hs]
      exact carry_carried hfound fun r => by simp [hs]
    | atGate gate run =>
      simp only [hs]
      split
      · exact carry_carried hfound fun r => by simp [hs]
      · exact .refl w
    | waiting scope gate run =>
      simp only [hs]
      split
      · exact carry_carried hfound fun r => by simp [hs]
      · exact .refl w
    | ended r =>
      simp only [hs]
      exact .refl w

/-! ## Counters and the log -/

/-- Two worlds that differ in counters, contexts, calls and the log at most. -/
structure Calm (w w' : World) : Prop where
  pools : w.Recounts w'
  fired : w'.fired = w.fired
  nextScope : w'.nextScope = w.nextScope
  nextWaiter : w'.nextWaiter = w.nextWaiter
  services : w'.services = w.services

theorem Calm.refl (w : World) : w.Calm w := ⟨.of_eq rfl, rfl, rfl, rfl, rfl⟩

theorem Calm.trans {w'' : World} (h : w.Calm w') (h' : w'.Calm w'') : w.Calm w'' :=
  ⟨h.1.trans h'.1, h'.2.trans h.2, h'.3.trans h.3, h'.4.trans h.4, h'.5.trans h.5⟩

/-- Counting changes counters at most. -/
theorem count_calm (c : ContextId) (f : Counters → Counters) : w.Calm (w.count c f) := by
  refine ⟨count_recounts c f, ?_, ?_, ?_, ?_⟩ <;> unfold count <;> split <;> rfl

theorem log_calm (event : Log.Event) : w.Calm (w.log event) := ⟨.of_eq rfl, rfl, rfl, rfl, rfl⟩

theorem modifyContext_calm (f : Context → Context) : w.Calm (w.modifyContext c f) :=
  ⟨.of_eq rfl, rfl, rfl, rfl, rfl⟩

/-! ## Lending -/

/-- One who asks for a permit is refused, or the pool answers. -/
theorem ask_cases {asked : Asked} (hfound : w.ask place scope = (asked, w')) :
    ((∃ cause, asked = .refused cause) ∧ w' = w) ∨
      ∃ p p' got, w.pools[place]? = some p ∧ p.request w.nextWaiter = (got, p') ∧
        asked = .ofAnswer w.nextWaiter got ∧
        w' = { w with nextWaiter := w.nextWaiter + 1 }.setPool place p' := by
  unfold ask at hfound
  split at hfound
  · obtain ⟨rfl, rfl⟩ := Prod.mk.inj hfound
    exact .inl ⟨⟨_, rfl⟩, rfl⟩
  · next p hhere =>
    split at hfound
    · obtain ⟨rfl, rfl⟩ := Prod.mk.inj hfound
      exact .inl ⟨⟨_, rfl⟩, rfl⟩
    · obtain ⟨rfl, rfl⟩ := Prod.mk.inj hfound
      exact .inr ⟨p, _, _, hhere, rfl, rfl, rfl⟩

/-- One who looks again is refused, gives up, or the pool answers. -/
theorem askAgain_cases {v : Waiter} {asked : Asked}
    (hfound : w.askAgain place scope v = (asked, w')) :
    ((∃ cause, asked = .refused cause) ∧
        (w.pools[place]? = none ∧ w' = w ∨ w' = w.giveUp place v)) ∨
      ∃ p p' got, w.pools[place]? = some p ∧ p.look v = (got, p') ∧
        asked = .ofAnswer v got ∧ w' = w.setPool place p' := by
  unfold askAgain at hfound
  split at hfound
  · next hhere =>
    obtain ⟨rfl, rfl⟩ := Prod.mk.inj hfound
    exact .inl ⟨⟨_, rfl⟩, .inl ⟨hhere, rfl⟩⟩
  · next p hhere =>
    split at hfound
    · obtain ⟨rfl, rfl⟩ := Prod.mk.inj hfound
      exact .inl ⟨⟨_, rfl⟩, .inr rfl⟩
    · obtain ⟨rfl, rfl⟩ := Prod.mk.inj hfound
      exact .inr ⟨p, _, _, hhere, rfl, rfl, rfl⟩

/-- One who has a permit is refused, or gets a context under their scope. -/
theorem handOut_cases {taken : Outcome ContextId} (hfound : w.handOut place scope = (taken, w')) :
    (w.pools[place]? = none ∧ taken = refuse .shuttingDown ∧ w' = w) ∨
      ∃ p p', w.pools[place]? = some p ∧ p.takeIdle = (taken, p') ∧
        ((∃ e, taken = .error e ∧ w' = w.setPool place p') ∨
          ∃ c event, taken = .ok c ∧
            w' = ((w.setPool place (p'.count Counters.lend)).modifyContext c fun x =>
              { x with scope }).log event) := by
  unfold handOut at hfound
  split at hfound
  · next hhere =>
    obtain ⟨rfl, rfl⟩ := Prod.mk.inj hfound
    exact .inl ⟨hhere, rfl, rfl⟩
  · next p hhere =>
    split at hfound
    · next e p' hanswer =>
      obtain ⟨rfl, rfl⟩ := Prod.mk.inj hfound
      exact .inr ⟨p, p', hhere, hanswer, .inl ⟨e, rfl, rfl⟩⟩
    · next c p' hanswer =>
      obtain ⟨rfl, rfl⟩ := Prod.mk.inj hfound
      exact .inr ⟨p, p', hhere, hanswer, .inr ⟨c, _, rfl, rfl⟩⟩

/-- One who gets a context has it under their scope. -/
theorem handOut_outline {taken : Outcome ContextId} (hfound : w.handOut place scope = (taken, w')) :
    w'.outline? = match taken with
      | .ok c => w.marked c (.under scope)
      | .error _ => w.outline? := by
  rcases handOut_cases hfound with
    ⟨-, rfl, rfl⟩ | ⟨p, p', -, -, ⟨e, rfl, rfl⟩ | ⟨c, event, rfl, rfl⟩⟩
  · rfl
  · rfl
  · dsimp only
    rw [log_outline, modifyContext_outline (g := .under scope) fun _ => rfl]
    exact marked_congr rfl _

/-- Lending a context begins no call. -/
theorem handOut_calls {taken : Outcome ContextId} (hfound : w.handOut place scope = (taken, w')) :
    w'.calls = w.calls := by
  rcases handOut_cases hfound with
    ⟨-, -, rfl⟩ | ⟨p, p', -, -, ⟨e, -, rfl⟩ | ⟨c, event, -, rfl⟩⟩ <;> rfl

/-- A context that is cleared is under a fresh scope, and keeps its record. -/
theorem clear_outline : (w.clear c).outline? = w.marked c (.under w.nextScope) :=
  modifyContext_outline (w := { w with nextScope := w.nextScope + 1 }) fun _ => rfl

/-- A context that is let go has a scope of its own and no record. -/
theorem letGo_outline {record : Option CallId} (hfound : w.letGo c = (record, w')) :
    w'.outline? = w.marked c (.under w.nextScope ∘ .record none) := by
  obtain ⟨-, rfl⟩ := Prod.mk.inj hfound
  exact modifyContext_outline (w := { w with nextScope := w.nextScope + 1 }) fun _ => rfl

/-- The record that a context had is handed on. -/
theorem letGo_record {record : Option CallId} (hfound : w.letGo c = (record, w')) :
    record = (w.outline? c).bind Context.Outline.inFlight := by
  obtain ⟨rfl, -⟩ := Prod.mk.inj hfound
  unfold outline?
  rw [Option.bind_map]
  rfl

/-- The calls on a context that is let go go on. -/
theorem letGo_calls {record : Option CallId} (hfound : w.letGo c = (record, w')) :
    w'.calls = w.calls := by
  obtain ⟨-, rfl⟩ := Prod.mk.inj hfound
  rfl

theorem letGo_pools {record : Option CallId} (hfound : w.letGo c = (record, w')) :
    w'.pools = w.pools := by
  obtain ⟨-, rfl⟩ := Prod.mk.inj hfound
  rfl

/-- A context of a pool that comes back is queued, disposed of or refused. -/
theorem enqueue_cases {returned : Option Pool.Returned}
    (hfound : w.enqueue place c = (returned, w')) :
    ((w.pools[place]? = none ∨ w.contexts[c]? = none) ∧ returned = none ∧ w' = w.clear c) ∨
      ∃ p got p', w.pools[place]? = some p ∧ p.pushIdle c = (got, p') ∧ returned = some got ∧
        ((got = .disposed ∧ ∃ event,
            w' = ((w.clear c).setPool place (p'.count Counters.takeBack)).log event) ∨
          (got ≠ .disposed ∧ w' = (w.clear c).setPool place p')) := by
  unfold enqueue at hfound
  dsimp only at hfound
  split at hfound
  · next p x hhere hthere =>
    split at hfound
    · next p' hanswer =>
      obtain ⟨rfl, rfl⟩ := Prod.mk.inj hfound
      exact .inr ⟨p, _, p', hhere, hanswer, rfl, .inl ⟨rfl, _, rfl⟩⟩
    · next got p' hlive hanswer =>
      obtain ⟨rfl, rfl⟩ := Prod.mk.inj hfound
      exact .inr ⟨p, got, p', hhere, hanswer, rfl, .inr ⟨hlive, rfl⟩⟩
  · next hmissing =>
    obtain ⟨rfl, rfl⟩ := Prod.mk.inj hfound
    refine .inl ⟨?_, rfl, rfl⟩
    cases hhere : w.pools[place]? with
    | none => exact .inl rfl
    | some p =>
      cases hthere : w.contexts[c]? with
      | none => exact .inr rfl
      | some x =>
        -- a context that is cleared is there still
        refine (hmissing p { x with handles := x.handles.reset, scope := w.nextScope } hhere
          ?_).elim
        unfold clear
        rw [modifyContext_contexts, if_pos rfl]
        exact congrArg (Option.map _) hthere

/-- So do those on a context that comes back. -/
theorem enqueue_calls {returned : Option Pool.Returned}
    (hfound : w.enqueue place c = (returned, w')) : w'.calls = w.calls := by
  rcases enqueue_cases hfound with ⟨-, -, rfl⟩ |
    ⟨p, got, p', -, -, -, ⟨-, event, rfl⟩ | ⟨-, rfl⟩⟩ <;> rfl

/-- A context that comes back is under a fresh scope. -/
theorem enqueue_outline {returned : Option Pool.Returned}
    (hfound : w.enqueue place c = (returned, w')) :
    w'.outline? = w.marked c (.under w.nextScope) := by
  rw [← clear_outline]
  rcases enqueue_cases hfound with ⟨-, -, rfl⟩ |
    ⟨p, got, p', -, -, -, ⟨-, event, rfl⟩ | ⟨-, rfl⟩⟩ <;> rfl

/-- The permit of a context that was queued is given. -/
theorem announce_eq {p : Pool} {x : Context} (hhere : w.pools[place]? = some p)
    (hthere : w.contexts[c]? = some x) : ∃ event,
    w.announce place c = (w.setPool place (p.count Counters.takeBack).addPermit).log event := by
  unfold announce
  rw [hhere, hthere]
  exact ⟨_, rfl⟩

/-- A context goes back by being queued. One that is queued is announced; whatever else has become
of it, it ends there. -/
theorem requeue_cases {result : Outcome Unit} (hfound : w.requeue place c = (result, w')) :
    ∃ returned w₁, w.enqueue place c = (returned, w₁) ∧
      (returned = some .queued ∧ w' = w₁.announce place c ∨
        returned ≠ some .queued ∧ w' = w₁) := by
  unfold requeue at hfound
  rcases hqueued : w.enqueue place c with ⟨returned, w₁⟩
  rw [hqueued] at hfound
  rcases returned with _ | (_ | _ | _)
  all_goals obtain ⟨-, rfl⟩ := Prod.mk.inj hfound
  · exact ⟨_, _, rfl, .inr ⟨nofun, rfl⟩⟩
  · exact ⟨_, _, rfl, .inl ⟨rfl, rfl⟩⟩
  · exact ⟨_, _, rfl, .inr ⟨nofun, rfl⟩⟩
  · exact ⟨_, _, rfl, .inr ⟨nofun, rfl⟩⟩

/-- A context that is released into its own pool goes back at once, or it waits for the call that
is recorded on it. -/
theorem release_own {p : Pool} {x : Context} {record : Option CallId}
    (hhere : w.pools[place]? = some p) (hthere : w.contexts[c]? = some x) (hmine : x.pool = p.id)
    (hletGo : w.letGo c = (record, w')) : ∃ event, w.release place c =
      match record with
      | none => w'.requeue place c
      | some call => (.ok (), { w' with deferred := w'.deferred ++ [(c, call)] }.log event) := by
  unfold release
  rw [hhere, hthere]
  simp only [hmine, ne_eq, not_true_eq_false, if_false, hletGo]
  cases record with
  | none => exact ⟨default, rfl⟩
  | some call => exact ⟨_, rfl⟩

/-- A context whose call is over is counted as settled, and goes back to its pool if it has one. -/
theorem putBack_cases (w : World) (c : ContextId) :
    let w₁ := w.count c Counters.settle
    let home := (w₁.contexts[c]?).bind fun x => w₁.poolIndex? x.pool
    (home = none ∧ w.putBack c = w₁) ∨
      ∃ place result w₂, home = some place ∧ w₁.requeue place c = (result, w₂) ∧
        (w.putBack c = w₂ ∨ ∃ event, w.putBack c = w₂.log event) := by
  unfold putBack
  dsimp only
  split
  · next hnone => exact .inl ⟨hnone, rfl⟩
  · next place hhome =>
    rcases hback : (w.count c Counters.settle).requeue place c with ⟨result, w₂⟩
    refine .inr ⟨place, result, w₂, hhome, hback, ?_⟩
    cases result with
    | ok u => exact .inl rfl
    | error failure => exact .inr ⟨_, rfl⟩

/-- A pool that is open is closed. -/
theorem close_cases (place : Nat) : w.close place = w ∨
    ∃ p p' disposed event, w.pools[place]? = some p ∧ p.close? = some (disposed, p') ∧
      w.close place = (w.setPool place p').log event := by
  unfold close
  cases hhere : w.pools[place]? with
  | none => exact .inl rfl
  | some p =>
    rw [Option.bind_some]
    cases hcloses : p.close? with
    | none => exact .inl rfl
    | some closed => exact .inr ⟨p, closed.2, closed.1, _, rfl, hcloses, rfl⟩

/-! ## Functions and executions -/

/-- A function that is found on a context is one of the context's own guest. -/
theorem function_eq_ok {name : String} {f : NativeFunction} :
    w.function c name = .ok f ↔
      f = ⟨c, name⟩ ∧ ∃ x, w.contexts[c]? = some x ∧ x.guest.function name = .ok () := by
  unfold function
  cases w.contexts[c]? with
  | none => exact ⟨nofun, fun ⟨_, _, hhere, _⟩ => nomatch hhere⟩
  | some x =>
    dsimp only
    cases hexported : x.guest.function name with
    | error failure =>
      refine ⟨nofun, fun ⟨_, y, hhere, hexports⟩ => ?_⟩
      rw [← Option.some.inj hhere, hexported] at hexports
      cases hexports
    | ok u =>
      refine ⟨fun hfound => ⟨(Except.ok.inj hfound).symm, x, rfl, hexported⟩, ?_⟩
      rintro ⟨rfl, -⟩
      rfl

/-- An execution that is prepared is one of the context's own function, and has not looked at
anything yet. -/
theorem prepare_eq_ok {name : String} {args : List Value} {e : Execution} :
    w.prepare c name args = .ok e ↔ e = ⟨c, ⟨c, name⟩, args, .fresh⟩ ∧
      ∃ x, w.contexts[c]? = some x ∧ x.guest.function name = .ok () := by
  unfold prepare
  cases hfound : w.function c name with
  | error failure =>
    refine ⟨nofun, fun ⟨_, hthere⟩ => ?_⟩
    rw [function_eq_ok.mpr ⟨rfl, hthere⟩] at hfound
    cases hfound
  | ok f =>
    obtain ⟨rfl, hthere⟩ := function_eq_ok.mp hfound
    exact ⟨fun hprepared => ⟨(Except.ok.inj hprepared).symm, hthere⟩, fun ⟨hsame, _⟩ => hsame ▸ rfl⟩

/-- What is prepared is a fresh execution of the context's own function. -/
theorem prepare_eq {name : String} {args : List Value} {e : Execution}
    (hfound : w.prepare c name args = .ok e) : e = ⟨c, ⟨c, name⟩, args, .fresh⟩ :=
  (prepare_eq_ok.mp hfound).1

end World
end SandboxPool
