import SandboxPool.Proofs.Guest.Origin
import SandboxPool.Proofs.Pool.Exclusion

/-!
# Guests stay what they are

Whatever happens, the guest of a context is one of the same module (`Scene.Step.origin`). So a
function that was exported when an execution of it was prepared is exported as long as it is
executed (`Scene.Reachable.exported`).
-/

namespace SandboxPool
namespace World

variable {w w' : World} {place : Nat} {c : ContextId} {scope : ScopeId} {e : Execution}
  {x : Context} {polled : Polled}

/-! ## Operations -/

/-- The module that the guest of a context was made of. -/
def origin? (w : World) (c : ContextId) : Option GuestModule :=
  (w.contexts[c]?).map fun x => x.guest.origin

theorem origin?_of_contexts (hsame : w'.contexts = w.contexts) : w'.origin? = w.origin? := by
  funext d
  unfold origin?
  rw [hsame]

theorem Steady.origin (h : w.Steady w') : w'.origin? = w.origin? := origin?_of_contexts h.contexts

/-- A change of something else on a context. -/
theorem modifyContext_origin {f : Context → Context}
    (hkept : ∀ x, w.contexts[c]? = some x → (f x).guest.origin = x.guest.origin) :
    (w.modifyContext c f).origin? = w.origin? := by
  funext d
  unfold origin?
  rw [modifyContext_contexts]
  by_cases hd : d = c
  · subst hd
    cases hhere : w.contexts[d]? with
    | none => simp
    | some x => simp [hkept x hhere]
  · rw [if_neg hd]

/-- Counters, records and the log do not change what modules the guests are of. -/
theorem origin_blind : Blind origin? where
  count w c g := (count_steady (w := w) c g).origin
  record _ _ _ := modifyContext_origin fun _ _ => rfl
  log _ _ := rfl
  calls _ _ := rfl

/-- What whoever has a context may do leaves its guest of the same module. -/
theorem touch_origin {y : Context} (hhere : w.contexts[c]? = some x) (htouched : x.Touched y) :
    (w.modifyContext c fun _ => y).origin? = w.origin? := by
  refine modifyContext_origin fun x' hhere' => ?_
  obtain rfl := Option.some.inj (hhere.symm.trans hhere')
  cases htouched with
  | insert | discard => rfl
  | write memory => exact x.guest.setMemory_origin memory

/-- A context is lent with the guest that it has. -/
theorem handOut_origin {taken : Outcome ContextId} (hfound : w.handOut place scope = (taken, w')) :
    w'.origin? = w.origin? := by
  rcases handOut_cases hfound with
    ⟨-, -, rfl⟩ | ⟨p, p', -, -, ⟨e, -, rfl⟩ | ⟨c, event, -, rfl⟩⟩
  · rfl
  · rfl
  · exact modifyContext_origin (w := w.setPool place (p'.count Counters.lend)) fun _ _ => rfl

/-- It is let go with it. -/
theorem letGo_origin {record : Option CallId} (hfound : w.letGo c = (record, w')) :
    w'.origin? = w.origin? := by
  obtain ⟨-, rfl⟩ := Prod.mk.inj hfound
  exact modifyContext_origin (w := { w with nextScope := w.nextScope + 1 }) fun _ _ => rfl

/-- And it comes back with it. -/
theorem enqueue_origin {returned : Option Pool.Returned}
    (hfound : w.enqueue place c = (returned, w')) : w'.origin? = w.origin? := by
  have hcleared : (w.clear c).origin? = w.origin? :=
    modifyContext_origin (w := { w with nextScope := w.nextScope + 1 }) fun _ _ => rfl
  rcases enqueue_cases hfound with ⟨-, -, rfl⟩ |
    ⟨p, got, p', -, -, -, ⟨-, event, rfl⟩ | ⟨-, rfl⟩⟩ <;> exact hcleared

theorem carry_origin {id : CallId} {call : Call}
    {act : GuestInstance → HostState → Progress GuestRun × GuestInstance × HostState}
    (hkept : ∀ g h, (act g h).2.1.origin = g.origin) :
    (w.carry id call act).origin? = w.origin? := by
  unfold carry
  cases hhere : w.contexts[call.home]? with
  | none => rfl
  | some x =>
    have hsame := hkept x.guest (w.hostState x)
    rcases act x.guest (w.hostState x) with ⟨progress, g, h⟩
    refine modifyContext_origin (w := { w with services := h.services, journal := h.journal })
      fun x' hhere' => ?_
    obtain rfl := Option.some.inj (hhere.symm.trans hhere')
    exact hsame

/-- However far a call goes on, its guest stays of the same module. -/
theorem carryFor_origin (fuel : GuestRun → Nat) (shut : List String) (id : CallId) :
    (w.carryFor fuel shut id).origin? = w.origin? := by
  unfold carryFor
  dsimp only
  split
  · rfl
  · split
    · exact carry_origin fun g h => GuestRun.advanceFor_origin _ _ _ g h
    · split
      · exact carry_origin fun g h => GuestRun.advanceFor_origin _ _ _ g h
      · rfl
    · split
      · exact carry_origin fun g h => GuestRun.interruptFor_origin _ _ _ _ g h
      · rfl
    · rfl

/-- A function is one that the guest of its home exports. -/
def Exports (w : World) (f : NativeFunction) : Prop :=
  ∃ x, w.contexts[f.home]? = some x ∧ x.guest.hasFunction f.name

/-- A function that a guest exports is exported as long as the modules are the same. -/
theorem Exports.congr {f : NativeFunction} (h : w.Exports f) (hsame : w'.origin? = w.origin?) :
    w'.Exports f := by
  obtain ⟨x, hhere, hexported⟩ := h
  have hthere : w'.origin? f.home = some x.guest.origin := by
    rw [hsame]
    exact congrArg (Option.map _) hhere
  obtain ⟨y, hhere', horigin⟩ := Option.map_eq_some_iff.mp hthere
  refine ⟨y, hhere', ?_⟩
  rw [GuestInstance.hasFunction_of_origin horigin]
  exact hexported

/-- An exported function can be begun. -/
theorem Exports.begins {f : NativeFunction} (h : w.Exports f) (args : List Value) :
    ∃ run, w.begin f args = .ok run := by
  obtain ⟨x, hhere, hexported⟩ := h
  unfold World.begin
  rw [hhere]
  exact GuestInstance.start_of_hasFunction hexported args

/-- A function that is found on a context is one that its guest exports. -/
theorem function_exports {name : String} {f : NativeFunction}
    (hfound : w.function c name = .ok f) : w.Exports f := by
  obtain ⟨rfl, x, hhere, hfound⟩ := function_eq_ok.mp hfound
  refine ⟨x, hhere, ?_⟩
  unfold GuestInstance.function at hfound
  cases hexported : x.guest.hasFunction name with
  | true => rfl
  | false =>
    rw [hexported] at hfound
    cases hfound

end World

namespace Scene

variable {s t : Scene} {q : Nat} {scope : ScopeId} {c : ContextId} {e : Execution}

/-- No step makes another guest of one. -/
theorem Step.origin (hstep : Step s t) : t.world.origin? = s.world.origin? := by
  cases hstep with
  | scope | fire _ | gate _ | elsewhere _ | enter _ _ _ | giveUp _ | prepare _ _ | fault _ => rfl
  | carry id fuel shut => exact World.carryFor_origin _ shut id
  | ask _ hfound => exact (World.ask_steady hfound).origin
  | look _ hfound => exact (World.askAgain_steady hfound).origin
  | take _ hfound => exact World.handOut_origin hfound
  | touch _ hfound htouched => exact World.touch_origin hfound htouched
  | poll _ hfound => exact World.origin_blind.pollWith hfound
  | release _ hfound => exact World.letGo_origin hfound
  | settle _ _ => exact (World.count_steady _ _).origin
  | enqueue _ hfound => exact World.enqueue_origin hfound
  | announce _ => exact (World.announce_steady _ _).origin
  | close place => exact (World.close_steady place).origin

/-- What is executed is exported still, or was so when it was prepared. -/
theorem Step.exported (hstep : Step s t)
    (hexported : ∀ {q scope c e}, .holding q scope c (some e) ∈ s.tasks →
      s.world.Exports e.function)
    (hmember : .holding q scope c (some e) ∈ t.tasks) : t.world.Exports e.function := by
  refine World.Exports.congr ?_ hstep.origin
  rcases hstep.executing hmember with hmember | ⟨name, args, hfound⟩ |
    ⟨e', late, w, hbefore, hfound⟩
  · exact hexported hmember
  · obtain ⟨rfl, hthere⟩ := World.prepare_eq_ok.mp hfound
    exact World.function_exports (World.function_eq_ok.mpr ⟨rfl, hthere⟩)
  · rw [(World.pollWith_function hfound).2]
    exact hexported hbefore

/-- What is executed on a context is exported by its guest. -/
theorem Reachable.exported (h : s.Reachable) (hmember : .holding q scope c (some e) ∈ s.tasks) :
    s.world.Exports e.function := by
  induction h generalizing q scope c e with
  | start hfresh => cases hmember
  | step hbefore hnext ih => exact hnext.exported ih hmember

end Scene
end SandboxPool
