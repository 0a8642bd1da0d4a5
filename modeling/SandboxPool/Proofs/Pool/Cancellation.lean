import SandboxPool.Proofs.Pool.Carrying
import SandboxPool.Proofs.Pool.Scopes

/-!
# How long a call obeys its caller's scope

Host functions look at the scope that the context is under at that moment, not at the scope that
the call was begun under. As long as the caller has the context the two are the same, whatever
becomes of the execution that began the call. A caller who gives the context back takes their
scope away from it; the call that was left behind goes on under a scope that nobody can fire.
`Reachable.obeys_while_lent` says exactly that.
-/

namespace SandboxPool

namespace Scene

variable {s t : Scene} {q : Nat} {scope : ScopeId} {c : ContextId} {e : Execution}
  {execution : Option Execution} {id : CallId}

/-- A caller has a context, and under which scope. -/
def Lent (s : Scene) (q : Nat) (scope : ScopeId) (c : ContextId) : Prop :=
  ∃ execution, .holding q scope c execution ∈ s.tasks

/-! ## What becomes of a borrow -/

/-- What becomes of a task by a step of its own. -/
inductive Moves (s t : Scene) : Task → Prop where
  | asks {place scope} : Moves s t (.asking place scope)
  | looks {place scope v} : Moves s t (.waiting place scope v)
  | takes {place scope} : Moves s t (.permitted place scope)
  | works {place scope c execution} (hlent : t.Lent place scope c) :
      Moves s t (.holding place scope c execution)
  | givesBack {place scope c record} (hfound : s.world.letGo c = (record, t.world))
      (hnext : .ofLetGo place scope c record ∈ t.tasks) : Moves s t (.holding place scope c none)
  | settles {place scope c call} (hpast : (s.world.ended? call).isSome) :
      Moves s t (.settling place scope c call)
  | queues {place c} : Moves s t (.returning place c)
  | announces {place c} : Moves s t (.queued place c)

/-- A step leaves every task where it stands, but for the one that moves. -/
theorem Step.remains (hstep : Step s t) {task : Task} (hmember : task ∈ s.tasks) :
    task ∈ t.tasks ∨ s.Moves t task := by
  -- A step replaces one task; any other stays where it was.
  cases hstep with
  | scope | fire _ | gate _ | elsewhere _ | carry _ _ _ | touch _ _ _ | close _ | fault _ =>
    exact .inl hmember
  | enter _ _ _ => exact .inl (.tail _ hmember)
  | ask hbefore _ =>
    rcases Task.eq_or_rest hbefore hmember with rfl | hrest
    · exact .inr .asks
    · exact .inl (Task.mem_among.mpr (.inr hrest))
  | look hbefore _ =>
    rcases Task.eq_or_rest hbefore hmember with rfl | hrest
    · exact .inr .looks
    · exact .inl (Task.mem_among.mpr (.inr hrest))
  | giveUp hbefore =>
    rcases Task.eq_or_rest hbefore hmember with rfl | hrest
    · exact .inr .looks
    · exact .inl hrest
  | take hbefore _ =>
    rcases Task.eq_or_rest hbefore hmember with rfl | hrest
    · exact .inr .takes
    · exact .inl (Task.mem_among.mpr (.inr hrest))
  | @prepare l r place scope c function args e hbefore _ =>
    rcases Task.eq_or_rest hbefore hmember with rfl | hrest
    · exact .inr (.works ⟨some e, by simp⟩)
    · exact .inl (Task.mem_beside hrest)
  | @poll l r place scope c e late polled w hbefore _ =>
    rcases Task.eq_or_rest hbefore hmember with rfl | hrest
    · exact .inr (.works ⟨polled.rest, by simp⟩)
    · exact .inl (Task.mem_beside hrest)
  | release hbefore hfound =>
    rcases Task.eq_or_rest hbefore hmember with rfl | hrest
    · exact .inr (.givesBack hfound (by simp))
    · exact .inl (Task.mem_beside hrest)
  | settle hbefore hpast =>
    rcases Task.eq_or_rest hbefore hmember with rfl | hrest
    · exact .inr (.settles hpast)
    · exact .inl (Task.mem_beside hrest)
  | enqueue hbefore _ =>
    rcases Task.eq_or_rest hbefore hmember with rfl | hrest
    · exact .inr .queues
    · exact .inl (Task.mem_among.mpr (.inr hrest))
  | announce hbefore =>
    rcases Task.eq_or_rest hbefore hmember with rfl | hrest
    · exact .inr .announces
    · exact .inl hrest

/-- Whoever began a call has its context, or gave it back and the context waits for the call. -/
def Followed (s : Scene) (q : Nat) (scope : ScopeId) (c : ContextId) (id : CallId) : Prop :=
  s.Lent q scope c ∨ .settling q scope c id ∈ s.tasks

/-- A call that has not ended is followed, step by step. -/
theorem Step.followed (hstep : Step s t) (h : s.Reachable) (howned : s.world.owner? id = some c)
    (hlive : s.world.ended? id = none) (hfollowed : s.Followed q scope c id) :
    t.Followed q scope c id := by
  rcases hfollowed with ⟨execution, hlent⟩ | hwaits
  · rcases hstep.remains hlent with hstill | hmoved
    · exact .inl ⟨execution, hstill⟩
    cases hmoved with
    | works hlent => exact .inl hlent
    | givesBack hfound hnext =>
      -- nobody but the borrower can know of the call, and only by the record
      rcases h.accounted.known howned with hjoined | ⟨u, hmember, hhas, hknows⟩
      · exact absurd hjoined (h.orderly.unjoined hlive)
      · rw [h.unique hlent hmember rfl hhas] at hknows
        rw [(World.letGo_record hfound).trans hknows] at hnext
        exact .inr hnext
  · rcases hstep.remains hwaits with hstill | hmoved
    · exact .inr hstill
    · cases hmoved with
      | settles hpast =>
        rw [hlive] at hpast
        cases hpast

/-- A call that has not ended is followed through every run. -/
theorem Steps.followed (hrun : Steps s t) (h : s.Reachable) (howned : s.world.owner? id = some c)
    (hlive : t.world.ended? id = none) (hfollowed : s.Followed q scope c id) :
    t.Followed q scope c id ∧ t.world.owner? id = some c := by
  induction hrun with
  | refl => exact ⟨hfollowed, howned⟩
  | @tail u v hbefore hstep ih =>
    -- what has ended stays so, hence the call had not ended before the last step
    have hrunning : u.world.ended? id = none := by
      cases hpast : u.world.ended? id with
      | none => rfl
      | some r =>
        rw [hstep.grown.ended hpast] at hlive
        cases hlive
    obtain ⟨hfollowed, howned⟩ := ih hrunning
    exact ⟨hstep.followed (h.steps hbefore) howned hrunning hfollowed, hstep.grown.owner howned⟩

/-! ## The scope that host functions look at -/

/-- A context that a caller has is under the caller's scope. -/
theorem Reachable.lent_scope (h : s.Reachable) (hlent : s.Lent q scope c) :
    ∃ x, s.world.contexts[c]? = some x ∧ x.scope = scope := by
  obtain ⟨execution, hmember⟩ := hlent
  have hunder : s.world.scope? c = some scope :=
    h.scoped.held (List.mem_filterMap.mpr ⟨_, hmember, rfl⟩)
  unfold World.scope? World.outline? at hunder
  rw [Option.map_map] at hunder
  exact Option.map_eq_some_iff.mp hunder

/-- A context that waits for a call is under a scope that nobody can fire. -/
theorem Reachable.settling_scope (h : s.Reachable) (hwaits : .settling q scope c id ∈ s.tasks) :
    ∃ x, s.world.contexts[c]? = some x ∧ s.world.hasFired x.scope = false := by
  obtain ⟨x, -, hhere, -⟩ := h.there hwaits rfl
  refine ⟨x, hhere, Bool.eq_false_iff.mpr fun hfired => ?_⟩
  have hunder : s.world.scope? c = some x.scope := by
    unfold World.scope? World.outline?
    rw [hhere]
    rfl
  have hlent := h.scoped.only hunder (h.scoped.fired (List.contains_iff_mem.mp hfired))
  obtain ⟨u, hmember, hlends⟩ := List.mem_filterMap.mp hlent
  -- one task only has the context, and it is not lent
  rw [h.unique hwaits hmember rfl (Task.context?_of_lends? hlends)] at hlends
  cases hlends

/-- Let a call be on a context that is lent under a scope, and let the scope fire some time later,
before the call has ended. Then the caller still has the context, or gave it back and it waits for
the call; and the scope counts for the call's host functions exactly as long as the caller has the
context. As long as that is so, the call changes no token store and sends no lock to a client, and
host functions refuse it what nothing else forbids as cancelled. -/
theorem Reachable.obeys_while_lent (h : s.Reachable) (hbegun : s.Lent q scope c)
    (howned : s.world.owner? id = some c) (hrun : Steps s t) (hfired : scope ∈ t.world.fired)
    (hlive : t.world.ended? id = none) :
    (t.Lent q scope c ∨ .settling q scope c id ∈ t.tasks) ∧
    ∃ x, t.world.contexts[c]? = some x ∧
      ((t.world.hostState x).cancelled = true ↔ t.Lent q scope c) ∧
      (t.Lent q scope c →
        (∀ fuel shut,
          (t.world.carryFor (fun _ => fuel) shut id).services = t.world.services ∧
          (t.world.carryFor (fun _ => fuel) shut id).journal.sent = t.world.journal.sent) ∧
        ∀ {a : HostAction} {memory : Memory} {args : List Value} {state : HostState},
          (t.world.hostState x).Obeys state → a.Asks memory args state →
            (a.run memory args state).1 = .failed Cause.cancelled) := by
  obtain ⟨hfollowed, howned⟩ := Steps.followed hrun h howned hlive (.inl hbegun)
  have hreachable := h.steps hrun
  have hsited : t.world.site? id = some c := hreachable.homely.calls ▸ howned
  refine ⟨hfollowed, ?_⟩
  -- Either the context is still lent, or the call was left behind and its borrower is gone.
  rcases hfollowed with hlent | hwaits
  · obtain ⟨x, hhere, hunder⟩ := hreachable.lent_scope hlent
    have hcancelled : (t.world.hostState x).cancelled = true := by
      show t.world.hasFired x.scope = true
      rw [hunder]
      exact List.contains_iff_mem.mpr hfired
    refine ⟨x, hhere, ⟨fun _ => hlent, fun _ => hcancelled⟩, fun _ => ⟨fun fuel shut => ?_, ?_⟩⟩
    · exact World.carryFor_obeys hsited hhere hcancelled _ shut
    · intro a memory args state hobeys hasks
      exact HostAction.run_cancelled hasks (hobeys.cancelled.trans hcancelled)
  -- A release gives a fresh scope, and no one has fired it yet.
  · obtain ⟨x, hhere, hunfired⟩ := hreachable.settling_scope hwaits
    have hfree : ¬ t.Lent q scope c := by
      rintro ⟨execution, hlent⟩
      cases hreachable.unique hwaits hlent rfl rfl
    refine ⟨x, hhere, ⟨fun hcancelled => ?_, fun hlent => absurd hlent hfree⟩,
      fun hlent => absurd hlent hfree⟩
    have hunfired : (t.world.hostState x).cancelled = false := hunfired
    rw [hunfired] at hcancelled
    cases hcancelled

/-! ## A call that outlives the borrow -/

/-- A memory with a string of one letter, its units counted, at address 20. -/
def letter : Memory := (Memory.ofPages 1).setAll 16 [2, 0, 0, 0, 97, 0]

/-- Services with one token store, in which the letter has a count. -/
def counting : Services :=
  ⟨[("tokens", .inMemory ⟨.extendOnTake, [(⟨"a", by decide⟩, ⟨1, 1⟩)]⟩)], [], default⟩

/-- The function that forgets a scope of the store. -/
def forgetting : Imports :=
  ⟨[⟨"store", "releaseTokens", ⟨⟨[.i32], []⟩, .releaseTokens "tokens" .counted⟩⟩]⟩

/-- A script that forgets the letter's count. -/
def forget : Script :=
  [.perform ⟨.call "store" "releaseTokens" [.value (.i32 20)], none, true, false⟩]

/-- A guest with that script. -/
def forgetful : GuestInstance :=
  .script ⟨"guest", some 1, [("store", "releaseTokens")], [("run", forget)]⟩
    (some ⟨letter, 24⟩) forgetting

/-- The script's run. -/
def forgetfulRun : GuestRun := .script ⟨forget, [], [], forgetting⟩ none

/-- The key that the script names. -/
theorem letter_named : ∃ hfits, Tokens.scopeAt .counted letter [.i32 20] = .ok ⟨"a", hfits⟩ := by
  have hread :
      (Tokens.scopeAt .counted letter [.i32 20]).toOption.map ScopeKey.text = some "a" := by
    decide +kernel
  cases hnamed : Tokens.scopeAt .counted letter [.i32 20] with
  | error e =>
    rw [hnamed] at hread
    cases hread
  | ok key =>
    rw [hnamed] at hread
    obtain ⟨text, hfits⟩ := key
    obtain rfl : text = "a" := Option.some.inj hread
    exact ⟨hfits, rfl⟩

/-- Under a scope that has not fired the script does forget the count. -/
theorem forgetful_forgets (gates : List String) (journal : Journal) :
    (forgetfulRun.advanceFor gates 1 forgetful
      ⟨0, .empty, false, counting, journal⟩).2.2.services.stores =
        [("tokens", .inMemory ⟨.extendOnTake, []⟩)] := by
  obtain ⟨hfits, hnamed⟩ := letter_named
  obtain ⟨h, hstate⟩ : ∃ h : HostState, h = ⟨0, .empty, false, counting, journal⟩ := ⟨_, rfl⟩
  have hfound : forgetting.get? "store" "releaseTokens" =
      some ⟨⟨[.i32], []⟩, .releaseTokens "tokens" .counted⟩ := rfl
  have hchecked : FunctionType.check ⟨[.i32], []⟩ "store.releaseTokens" [.i32 20] = .ok () := rfl
  have hreleased : (Tokens.release "tokens" .counted letter [.i32 20] h).2.services.stores =
      [("tokens", .inMemory ⟨.extendOnTake, []⟩)] := by
    unfold Tokens.release
    rw [hnamed, hstate]
    rfl
  have hcalled : GuestM.call forgetting "store" "releaseTokens" [.i32 20] ⟨⟨letter, 24⟩, h⟩ =
      (GuestM.ofReply (Tokens.release "tokens" .counted letter [.i32 20] h).1,
        ⟨⟨letter, 24⟩, (Tokens.release "tokens" .counted letter [.i32 20] h).2⟩) :=
    GuestM.call_found hfound (HostFunction.call_releaseTokens hchecked)
  have hown : (none <|> some (Heap.mk letter 24)).getD (.ofPages 0) = ⟨letter, 24⟩ := rfl
  -- the script's only instruction is the call
  have hwent : (ScriptRun.advanceFor gates 1 ⟨forget, [], [], forgetting⟩
    ⟨⟨letter, 24⟩, h⟩).2.host =
      (GuestM.call forgetting "store" "releaseTokens" [.i32 20] ⟨⟨letter, 24⟩, h⟩).2.host :=
    ScriptRun.advanceFor_call gates rfl rfl rfl rfl
  unfold forgetfulRun forgetful
  rw [← hstate, GuestRun.advanceFor_script, hown, hwent, hcalled]
  exact hreleased

/-- A call that is left behind can change a token store although its caller's scope has fired: it
is not so that a scope counts for every call that was begun under it. -/
theorem disobeys_left_behind : ¬ ∀ {s t : Scene} {q : Nat} {scope : ScopeId} {c : ContextId}
    {id : CallId}, s.Reachable → s.Lent q scope c → s.world.owner? id = some c → Steps s t →
      scope ∈ t.world.fired → t.world.ended? id = none → ∀ fuel shut,
        (t.world.carryFor (fun _ => fuel) shut id).services = t.world.services := by
  intro hclaim
  have hexported : forgetful.function "run" = .ok () := rfl
  have hstarts : forgetful.start "run" [] = .ok forgetfulRun := rfl
  obtain ⟨s, t, h, htasks, howned, hrun, -, hcalls, hfired, hshared, hhere⟩ :=
    call_left_behind counting hexported hstarts
  have hlent : s.Lent 0 1 0 := ⟨_, by rw [htasks]; exact List.mem_singleton_self _⟩
  have hlater : 1 ∈ t.world.fired := by
    rw [hfired]
    exact List.mem_singleton_self 1
  have hlive : t.world.ended? 0 = none := by
    unfold World.ended?
    rw [hcalls]
    rfl
  have hsame := hclaim h hlent howned hrun hlater hlive 1 []
  -- by now the context is under a scope of its own
  have hstate : t.world.hostState ⟨1, 0, [], .ofMillis 30000, forgetful, .empty, 2, none⟩ =
      ⟨0, .empty, false, counting, t.world.journal⟩ := by
    unfold World.hostState World.hasFired
    rw [hfired, hshared]
    rfl
  have hafter : (t.world.carryFor (fun _ => 1) [] 0).services.stores =
      [("tokens", .inMemory ⟨.extendOnTake, []⟩)] := by
    have hfound : t.world.calls[0]? = some ⟨0, ⟨0, "run"⟩, .ready forgetfulRun⟩ := by
      rw [hcalls]
      rfl
    have hready := World.carryFor_ready hfound rfl hhere (fun _ => 1) []
    dsimp only at hready
    rw [hready, hstate, forgetful_forgets]
  rw [hsame, hshared] at hafter
  cases hafter

/-- As long as its caller has the context, the same script changes nothing. -/
theorem obeys_while_lent_forgetful : ∃ s : Scene, s.Reachable ∧ s.Lent 0 1 0 ∧
    1 ∈ s.world.fired ∧ s.world.calls = #[⟨0, ⟨0, "run"⟩, .ready forgetfulRun⟩] ∧
      ∀ fuel shut, (s.world.carryFor (fun _ => fuel) shut 0).services = s.world.services := by
  have hexported : forgetful.function "run" = .ok () := rfl
  have hstarts : forgetful.start "run" [] = .ok forgetfulRun := rfl
  obtain ⟨s, h, htasks, hcalls, hfired, -⟩ := call_begun counting hexported hstarts
  -- The call has not looked at its cancellation, and the scope of its borrower is fired.
  have hlent : s.Lent 0 1 0 := ⟨_, by rw [htasks]; exact List.mem_singleton_self _⟩
  have hlost : 1 ∈ s.world.fired := by
    rw [hfired]
    exact List.mem_singleton_self 1
  have howned : s.world.owner? 0 = some 0 := by
    unfold World.owner?
    rw [hcalls]
    rfl
  have hlive : s.world.ended? 0 = none := by
    unfold World.ended?
    rw [hcalls]
    rfl
  obtain ⟨-, x, -, -, hobeys⟩ := h.obeys_while_lent hlent howned .refl hlost hlive
  exact ⟨s, h, hlent, hlost, hcalls, fun fuel shut => ((hobeys hlent).1 fuel shut).1⟩

end Scene
end SandboxPool
