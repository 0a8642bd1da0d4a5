import SandboxPool.Proofs.Pool.Rounds
import SandboxPool.Proofs.Pool.Running

/-!
# Which requests are live

`Scene.Started.requests_left` says which requests are live while round trips are made: that of the
trip under way, and those of the trips that have waited in vain, which the host never drops. So a
request may outlive the call that it was passed to (`Rounds.request_outlives`). A round trip that is
made in one go, as `World.roundTrip` makes it, is one of these (`Rounds.roundTrip_steps`).
-/

namespace SandboxPool

/-- Executions with a request come to an end at their deadline at the latest. -/
def World.AnswersInTime (w : World) (c : ContextId) (function : String) : Prop :=
  ∀ handle handles, (w.withTable c handles).EndsInTime ⟨c, ⟨c, function⟩, [.i32 handle], .fresh⟩

/-- So do all where no call is recorded. -/
theorem World.answersInTime_of_none {w : World} {c : ContextId} {x : Context}
    (hnothing : w.deferred = []) (hhere : w.contexts[c]? = some x) (hrecord : x.inFlight = none)
    (function : String) : w.AnswersInTime c function := by
  intro handle handles run w' hlooked
  have hnothing : (w.withTable c handles).deferred = [] := hnothing
  have hrow := World.withTable_contexts (t := handles) hhere
  exact endsInTime_of_none (x := { x with handles }) hnothing hrow hrecord rfl hlooked

namespace Rounds

variable {q : Nat} {scope : ScopeId} {c : ContextId} {v : Rounds} {x : Context}
  {table : HandleTable}

/-! ## Round trips in one go -/

/-- During a round trip calls go on, and nothing else does by itself. -/
theorem background_step {w : World} (h : v.Sound q scope c)
    (hmove : World.Background v.scene.world w) :
    Step q scope c v { v with scene.world := w } := by
  obtain ⟨l, r, htask⟩ := List.append_of_mem h.mine
  cases hmove with
  | carries id fuel shut =>
    exact .aside (.intro htask htask (.carry id fuel shut) (.carry id fuel shut))
  | settles hfound _ =>
    rw [h.started.reachable.deferred] at hfound
    simp at hfound

theorem background_steps {w : World} (h : v.Sound q scope c)
    (hrun : Relation.ReflTransGen World.Background v.scene.world w) :
    Steps q scope c v { v with scene.world := w } := by
  obtain ⟨t, hsteps, -, rfl⟩ := followed (r := World.Background) (R := Step q scope c)
    (P := fun w t => t.Sound q scope c ∧ t = { v with scene.world := w })
    (fun hmove hat => by
      obtain ⟨ht, rfl⟩ := hat
      have hstep := background_step ht hmove
      exact ⟨_, .single hstep, ht.step hstep, rfl⟩) hrun ⟨h, rfl⟩
  exact hsteps

/-- The host attends to the execution of a round trip as anybody does. -/
theorem attends_steps {request : Int32} {e : Execution} {polled : Polled} {w : World}
    (h : v.Sound q scope c) (htrip : v.trip = .executing request e)
    (hrun : Relation.ReflTransGen World.Attends (v.scene.world, .pending e) (w, polled)) :
    ∃ u inVain, Steps q scope c v u ∧ u.scene.world = w ∧
      u.trip = .ofPolled request inVain polled := by
  -- As for scenes, with the request that goes along with the execution.
  obtain ⟨u, hsteps, -, hworld, inVain, htrip⟩ := followed (r := World.Attends)
    (R := Step q scope c)
    (P := fun a t => t.Sound q scope c ∧ t.scene.world = a.1 ∧
      ∃ inVain, t.trip = .ofPolled request inVain a.2)
    (fun {a b t} hmove hat => by
      obtain ⟨ht, hworld, inVain, htrip⟩ := hat
      cases hmove with
      | @looks w _ e _ _ hfound =>
        obtain rfl : t.scene.world = w := hworld
        have hmine := ht.mine
        rw [htrip] at hmine
        obtain ⟨l, r, htask⟩ := List.append_of_mem hmine
        have hstep : Step q scope c t _ := .move (.looks htrip htask hfound)
        exact ⟨_, .single hstep, ht.step hstep, rfl, _, rfl⟩
      | @between w _ _ hbackground =>
        obtain rfl : t.scene.world = w := hworld
        have hstep := background_step ht hbackground
        exact ⟨_, .single hstep, ht.step hstep, rfl, inVain, htrip⟩)
    hrun ⟨h, rfl, false, htrip⟩
  exact ⟨u, inVain, hsteps, hworld, htrip⟩

/-- A function that was there before a request was stored still is. -/
theorem prepare_withTable {w : World} {function : String} {args : List Value} {e : Execution}
    (hhere : w.contexts[c]? = some x) (hprepared : w.prepare c function args = .ok e)
    (args' : List Value) :
    (w.withTable c table).prepare c function args' = .ok ⟨c, ⟨c, function⟩, args', .fresh⟩ := by
  obtain ⟨-, x', hhere', hexported⟩ := World.prepare_eq_ok.mp hprepared
  obtain rfl := Option.some.inj (hhere.symm.trans hhere')
  exact World.prepare_eq_ok.mpr ⟨rfl, _, World.withTable_contexts hhere, hexported⟩

/-- Once the execution is over, the host lets go of the request and reads the response, if any. -/
theorem answered_steps (R : Type) [Message R] (h : v.Sound q scope c) {request : Int32}
    {results : Outcome (List Value)} {inVain : Bool}
    (htrip : v.trip = .answered request results inVain) (function : String) :
    ∃ u, Steps q scope c v u ∧ u.trip = .resting ∧
      u.scene.world =
        match results.bind (World.responseHandle function),
          (v.scene.world.dropRequest c request).contexts[c]? with
        | .ok response, some x =>
          (v.scene.world.dropRequest c request).withTable c
            (Buffers.consume R x.handles response).2
        | _, _ => v.scene.world.dropRequest c request := by
  have hgoes : Step q scope c v _ := .move (.letsGo htrip)
  obtain ⟨x, hrow⟩ := (h.step hgoes).row
  have hrow : (v.scene.world.dropRequest c request).contexts[c]? = some x := hrow
  rw [hrow]
  rcases Trip.ofResults_cases results with ⟨response, rfl⟩ | ⟨hrests, hfailed⟩
  · have hreads : Step q scope c ⟨_, .reading response, _⟩ _ := .move (.reads (R := R) rfl hrow)
    exact ⟨_, .tail (.single hgoes) hreads, rfl, rfl⟩
  · obtain ⟨failure, hsame⟩ := hfailed function
    rw [hsame]
    exact ⟨_, .single hgoes, hrests, rfl⟩

/-- A round trip in one go is a round trip during which the others wait that can. -/
theorem roundTrip_steps {Q : Type} [Message Q] (R : Type) [Message R] (h : v.Sound q scope c)
    (htrip : v.trip = .resting) (function : String) (request : Q)
    (hinTime : v.scene.world.AnswersInTime c function) :
    ∃ u, Steps q scope c v u ∧ u.trip = .resting ∧
      u.scene.world = (v.scene.world.roundTrip R c function request).2 := by
  obtain ⟨x, hhere⟩ := h.row
  unfold World.roundTrip
  rw [hhere]
  cases hprepared : v.scene.world.prepare c function [] with
  | error failure => exact ⟨v, .refl, htrip, rfl⟩
  | ok e =>
    dsimp only
    cases hstored : Buffers.send x.handles request with
    | error failure => exact ⟨v, .refl, htrip, rfl⟩
    | ok given =>
      obtain ⟨handle, handles⟩ := given
      obtain rfl := World.prepare_eq hprepared
      -- nobody comes in between before the execution is looked at
      have hsends : Step q scope c v _ := .move (.sends htrip hprepared hhere hstored)
      have h₁ := h.step hsends
      obtain ⟨l, r, htask⟩ := List.append_of_mem h₁.mine
      have hcalls : Step q scope c _ _ :=
        .move (.calls rfl htask (prepare_withTable hhere hprepared [.i32 handle]))
      have h₂ := h₁.step hcalls
      rcases hdriven : (v.scene.world.withTable c handles).drive
        ⟨c, ⟨c, function⟩, [.i32 handle], .fresh⟩ with ⟨results, w⟩
      obtain ⟨u, inVain, hdrives, rfl, hanswered⟩ :=
        attends_steps h₂ rfl (World.drive_attends (hinTime handle handles) hdriven)
      have hrun : Steps q scope c v u := .head hsends (.head hcalls hdrives)
      obtain ⟨t, hends, hrests, hlast⟩ := answered_steps R (h.steps hrun) hanswered function
      refine ⟨t, hrun.trans hends, hrests, hlast.trans ?_⟩
      dsimp only
      rw [show (v.scene.world.modifyContext c fun x => { x with handles }) =
        v.scene.world.withTable c handles from rfl, hdriven]
      dsimp only
      cases results.bind (World.responseHandle function) with
      | error failure => rfl
      | ok response => cases (u.scene.world.dropRequest c handle).contexts[c]? <;> rfl

theorem handleEvent_steps (h : v.Sound q scope c) (htrip : v.trip = .resting) (event : Event)
    (hinTime : v.scene.world.AnswersInTime c Capability.handleEventExport) :
    ∃ u, Steps q scope c v u ∧ u.trip = .resting ∧
      u.scene.world = (v.scene.world.handleEvent c event).2 :=
  roundTrip_steps EventResponse h htrip _ (⟨some event⟩ : EventRequest) hinTime

theorem rewriteHeaders_steps (h : v.Sound q scope c) (htrip : v.trip = .resting)
    (headers : Wire.TextMap)
    (hinTime : v.scene.world.AnswersInTime c Capability.rewriteHeadersExport) :
    ∃ u, Steps q scope c v u ∧ u.trip = .resting ∧
      u.scene.world = (v.scene.world.rewriteHeaders c headers).2 := by
  obtain ⟨x, hhere⟩ := h.row
  unfold World.rewriteHeaders
  rw [hhere]
  dsimp only
  split
  · exact ⟨v, .refl, htrip, rfl⟩
  · exact roundTrip_steps HeadersResponse h htrip _ (⟨headers⟩ : HeadersRequest) hinTime

end Rounds

/-! ## A handler that is not waited for -/

namespace World

/-- Waits at a gate, and responds then. -/
def linger : Script := .perform ⟨.gate "door", none, true, false⟩ :: respond

/-- The context of a handler's pool has been handed to a caller. -/
def handedOut (handler : Script) : World :=
  (((ofHandler handler).freshScope.2.ask 0 1).2.handOut 0 1).2

/-- An event was handed to a handler that waits in vain; then the gate opens. -/
def lingered : World :=
  let w := ((handedOut linger).handleEvent 0 default).2
  { w with openGates := "door" :: w.openGates }.carryAll

theorem lingered_over (id : CallId) (howned : lingered.owner? id = some 0) :
    (lingered.ended? id).isSome := by
  have hinside : id < lingered.calls.size := by
    obtain ⟨call, hfound, -⟩ := Option.map_eq_some_iff.mp howned
    exact (Array.getElem?_eq_some_iff.mp hfound).1
  have hended : ∀ id < lingered.calls.size, (lingered.ended? id).isSome := by decide +kernel
  exact hended id hinside

theorem lingered_sent : ∃ x, lingered.contexts[0]? = some x ∧ x.handles.Sent 65537 := by
  have hleft : ((lingered.contexts[0]?).bind fun x => x.handles.get? 65537) = some requested := by
    decide +kernel
  obtain ⟨x, hhere, hlive⟩ := Option.bind_eq_some_iff.mp hleft
  exact ⟨x, hhere, requested, hlive, rfl⟩

end World

namespace Rounds

/-- A caller makes one round trip with the handler that waits, and waits for nothing then. -/
theorem linger_run : ∃ (s : Scene) (v : Rounds), s.Started ∧
    s.tasks = [] ++ .permitted 0 1 :: [] ∧
      s.world.handOut 0 1 = (.ok 0, World.handedOut World.linger) ∧
        Steps 0 1 0 (start { s with
          world := World.handedOut World.linger
          tasks := [] ++ .holding 0 1 0 none :: [] }) v ∧
          v.trip = .resting ∧ v.scene.world = World.lingered := by
  have hfresh : Scene.Started (.ofWorld (World.ofHandler World.linger)) :=
    .start (World.ofGuest_fresh _ default) (World.ofGuest_empty _ default)
  have hmade := hfresh.step .scope
  have hentered := hmade.step (.enter 0 (List.mem_singleton_self 1) rfl)
  have hasked := hentered.step (.ask (l := []) (r := []) rfl rfl)
  have hsound : Sound 0 1 0 (start _) := sound_start (l := []) (r := []) hasked rfl rfl
  obtain ⟨x, hhere, hrecord⟩ : ∃ x, (World.handedOut World.linger).contexts[0]? = some x ∧
      x.inFlight = none := ⟨_, rfl, rfl⟩
  have hnothing : (World.handedOut World.linger).deferred = [] := rfl
  have hinTime := World.answersInTime_of_none hnothing hhere hrecord Capability.handleEventExport
  obtain ⟨v, hrun, hrests, hworld⟩ := handleEvent_steps hsound rfl default hinTime
  obtain ⟨l, r, htask⟩ := List.append_of_mem (hsound.steps hrun).mine
  -- once the gate is open, the call that was left ends by itself
  have hopens : Step 0 1 0 v { v with
      scene.world := { v.scene.world with openGates := "door" :: v.scene.world.openGates } } :=
    .aside (.intro htask htask (.gate "door") (.gate "door"))
  have hopened := hrun.tail hopens
  have hends := background_steps (hsound.steps hopened) (World.carryAll_background _)
  refine ⟨_, _, hasked, rfl, rfl, hopened.trans hends, hrests, ?_⟩
  show World.carryAll { v.scene.world with openGates := _ } = _
  rw [hworld]
  rfl

end Rounds

/-! ## Which requests are live -/

/-- Let a caller be handed a context and make round trips with it, in the middle of everything else.
The live requests are that of the trip under way and those of the trips that have waited in vain,
for their own call or for an earlier one; so there are at most as many of them. When an execution
has ended, a call is recorded exactly if it has waited in vain: then the request is left, and
otherwise dropped. What is left stays as long as no guest call goes on, for the host drops nothing
but the request of a trip that has not waited in vain and the response that it reads. -/
theorem Scene.Started.requests_left {q : Nat} {scope : ScopeId} {c : ContextId} {s : Scene}
    {l r : List Task} {w : World} {v : Rounds} (h : s.Started)
    (htask : s.tasks = l ++ .permitted q scope :: r)
    (hfound : s.world.handOut q scope = (.ok c, w))
    (hrun : Rounds.Steps q scope c
      (.start { s with world := w, tasks := l ++ .holding q scope c none :: r }) v) :
    ∃ x, v.scene.world.contexts[c]? = some x ∧
      (∀ handle, x.handles.Sent handle → handle ∈ v.trip.request?.toList ++ v.lost) ∧
      {handle | x.handles.Sent handle}.ncard ≤ v.trip.request?.toList.length + v.lost.length ∧
      (∀ {request results inVain}, v.trip = .answered request results inVain →
        x.inFlight.isSome = inVain) ∧
      ∀ {u : Rounds} {handle buffer}, Rounds.Step q scope c v u →
        x.handles.get? handle = some buffer → v.trip.drops? ≠ some handle →
        (∀ id, v.scene.world.owner? id = some c → (v.scene.world.ended? id).isSome) →
          ∃ y, u.scene.world.contexts[c]? = some y ∧ y.handles.get? handle = some buffer := by
  have hsound := (Rounds.sound_start h htask hfound).steps hrun
  obtain ⟨x, hhere⟩ := hsound.row
  have hamong (handle : Int32) (hsent : x.handles.Sent handle) : handle ∈ v.requests :=
    hsound.live (World.table?_eq hhere) hsent
  refine ⟨x, hhere, hamong, ?_, fun htrip => ?_, fun hstep hlive hspared hquiet => ?_⟩
  · rw [← List.length_append]
    exact HandleTable.ncard_sent_le hamong
  · rw [← World.inFlight?_eq hhere]
    exact hsound.record htrip
  · exact hsound.kept hstep hhere hlive hspared hquiet

namespace Rounds

/-- The request of the one round trip with a handler that waits is live, so it is a lost one. -/
theorem requests_left_linger : ∃ (s : Scene) (w : World) (v : Rounds) (x : Context), s.Started ∧
    s.tasks = [] ++ .permitted 0 1 :: [] ∧ s.world.handOut 0 1 = (.ok 0, w) ∧
      Steps 0 1 0 (start { s with world := w, tasks := [] ++ .holding 0 1 0 none :: [] }) v ∧
        v.scene.world.contexts[0]? = some x ∧ x.handles.Sent 65537 ∧ 65537 ∈ v.lost := by
  obtain ⟨s, v, h, htask, hfound, hrun, hrests, hworld⟩ := linger_run
  obtain ⟨x, hhere, hamong, -⟩ := h.requests_left htask hfound hrun
  obtain ⟨y, hthere, hsent⟩ := World.lingered_sent
  rw [hworld, hthere] at hhere
  obtain rfl := Option.some.inj hhere
  have hmember := hamong 65537 hsent
  rw [hrests] at hmember
  exact ⟨s, _, v, y, h, htask, hfound, hrun, hworld ▸ hthere, hsent, hmember⟩

/-- A request may outlive the call that it was passed to: it is not so that between round trips,
with all guest calls over, no request is live. -/
theorem request_outlives : ¬ ∀ {q : Nat} {scope : ScopeId} {c : ContextId} {s : Scene}
    {l r : List Task} {w : World} {v : Rounds} {x : Context} {handle : Int32}, s.Started →
      s.tasks = l ++ .permitted q scope :: r → s.world.handOut q scope = (.ok c, w) →
        Steps q scope c
          (start { s with world := w, tasks := l ++ .holding q scope c none :: r }) v →
          v.trip = .resting → v.scene.world.contexts[c]? = some x →
            (∀ id, v.scene.world.owner? id = some c → (v.scene.world.ended? id).isSome) →
              ¬ x.handles.Sent handle := by
  intro hclaim
  obtain ⟨s, v, h, htask, hfound, hrun, hrests, hworld⟩ := linger_run
  obtain ⟨x, hhere, hsent⟩ := World.lingered_sent
  have hended (id : CallId) (howned : v.scene.world.owner? id = some 0) :
      (v.scene.world.ended? id).isSome := by
    rw [hworld] at howned ⊢
    exact World.lingered_over id howned
  exact hclaim h htask hfound hrun hrests (hworld ▸ hhere) hended hsent

end Rounds
end SandboxPool
