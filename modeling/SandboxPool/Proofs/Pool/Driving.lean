import SandboxPool.Proofs.Pool.Carrying
import SandboxPool.Proofs.Pool.Looking

/-!
# A context while a call on it is driven

While `World.drive` waits for a call, everything else goes on: other calls, and the return of
contexts that were released. None of it touches a context that its caller still has, but for the
call itself, which stores and drops buffers. `World.Served` says so, and holds of every drive that
comes back with results.
-/

namespace SandboxPool
namespace World

variable {w w' w'' : World} {c d : ContextId} {x : Context} {e : Execution}

/-- A context stays with its caller: its record is the same, and its handle table has changed as
guests change tables. -/
structure Served (c : ContextId) (w w' : World) : Prop where
  row : ∀ {x}, w.contexts[c]? = some x → ∃ y, w'.contexts[c]? = some y ∧
    y.inFlight = x.inFlight ∧ x.handles.Worked y.handles
  deferred : w'.deferred ⊆ w.deferred

namespace Served

/-- Where the context and what waits are the same, its caller notices nothing. -/
theorem of_same (hrow : w'.contexts[c]? = w.contexts[c]?) (hdeferred : w'.deferred = w.deferred) :
    Served c w w' := by
  refine ⟨fun {x} hhere => ⟨x, by rw [hrow, hhere], rfl, .refl _⟩, ?_⟩
  rw [hdeferred]
  exact fun _ hmember => hmember

theorem refl (c : ContextId) (w : World) : Served c w w := of_same rfl rfl

theorem trans (h : Served c w w') (h' : Served c w' w'') : Served c w w'' := by
  refine ⟨fun {x} hhere => ?_, fun _ hmember => h.deferred (h'.deferred hmember)⟩
  obtain ⟨y, hthere, hrecord, hworked⟩ := h.row hhere
  obtain ⟨z, hlast, hrecord', hworked'⟩ := h'.row hthere
  exact ⟨z, hlast, hrecord'.trans hrecord, hworked.trans hworked'⟩

/-- Many changes, each of which leaves the context with its caller. -/
theorem foldl {α : Type} {f : World → α → World} {l : List α}
    (heach : ∀ a ∈ l, ∀ w, Served c w (f w a)) (w : World) : Served c w (l.foldl f w) := by
  induction l generalizing w with
  | nil => exact .refl c w
  | cons a l ih =>
    have hfirst := heach a List.mem_cons_self w
    exact hfirst.trans (ih (fun b hmember => heach b (.tail _ hmember)) (f w a))

end Served

/-! ## What goes on by itself -/

/-- A call that goes on does to a context what guests do, or nothing. -/
theorem carryFor_served (c : ContextId) (fuel : GuestRun → Nat) (shut : List String) (id : CallId) :
    Served c w (w.carryFor fuel shut id) := by
  have hsliced := w.carryFor_sliced HostState.stores_law fuel shut id
  generalize w.carryFor fuel shut id = w' at hsliced
  cases hsliced with
  | idle => exact .refl c w
  | @slice call y g h state hfound hthere hkept =>
    refine ⟨fun {x} hhere => ?_, fun _ hmember => hmember⟩
    have hrow := World.modifyContext_contexts (c := call.home) (d := c)
      (w := { w with services := h.services, journal := h.journal })
      fun x => { x with guest := g, handles := h.handles }
    -- the call that went on may be on this context or on another
    by_cases hsame : c = call.home
    · rw [if_pos hsame, show World.contexts _ = w.contexts from rfl, hhere] at hrow
      obtain rfl : y = x := by
        rw [← hsame, hhere] at hthere
        exact (Option.some.inj hthere).symm
      exact ⟨_, hrow, rfl, hkept⟩
    · rw [if_neg hsame] at hrow
      exact ⟨x, hrow.trans hhere, rfl, .refl _⟩

theorem carryAll_served (c : ContextId) (w : World) : Served c w w.carryAll :=
  .foldl (fun id _ _ => carryFor_served c GuestRun.budget [] id) w

/-- Counting does nothing to any context. -/
theorem count_served (c : ContextId) (f : Counters → Counters) : Served c w (w.count d f) := by
  unfold count
  split <;> exact .of_same rfl rfl

/-- Another context that comes back does nothing to this one. -/
theorem enqueue_served {place : Nat} {returned : Option Pool.Returned} (h : c ≠ d)
    (hfound : w.enqueue place d = (returned, w')) : Served c w w' := by
  have hcleared : Served c w (w.clear d) := by
    refine .of_same ?_ rfl
    unfold clear
    rw [modifyContext_contexts, if_neg h]
    rfl
  rcases enqueue_cases hfound with ⟨-, -, rfl⟩ | ⟨p, got, p', -, -, -, ⟨-, event, rfl⟩ | ⟨-, rfl⟩⟩
  · exact hcleared
  · exact hcleared.trans (.of_same rfl rfl)
  · exact hcleared.trans (.of_same rfl rfl)

theorem announce_served (place : Nat) : Served c w (w.announce place d) := by
  unfold announce
  split <;> exact .of_same rfl rfl

/-- Nor does its permit. -/
theorem requeue_served {place : Nat} {result : Outcome Unit} (h : c ≠ d)
    (hfound : w.requeue place d = (result, w')) : Served c w w' := by
  obtain ⟨returned, w₁, hqueued, ⟨-, rfl⟩ | ⟨-, rfl⟩⟩ := requeue_cases hfound
  · exact (enqueue_served h hqueued).trans (announce_served place)
  · exact enqueue_served h hqueued

/-- Putting another context back. -/
theorem putBack_served (h : c ≠ d) : Served c w (w.putBack d) := by
  have hcounted := w.count_served (d := d) c Counters.settle
  rcases putBack_cases w d with ⟨-, hsame⟩ | ⟨place, result, w₂, -, hback, hsame⟩
  · rwa [hsame]
  · have hserved := hcounted.trans (requeue_served h hback)
    rcases hsame with hsame | ⟨event, hsame⟩
    · rwa [hsame]
    · rw [hsame]
      exact hserved.trans (.of_same rfl rfl)

/-- Contexts that were released are put back without a look at the others. -/
theorem settleDeferred_served (hlent : ∀ d ∈ w.deferred, d.1 ≠ c) :
    Served c w w.settleDeferred := by
  unfold settleDeferred
  rw [List.partition_eq_filter_filter]
  dsimp only
  -- what is put back was released, and this context was not
  have hfirst : Served c w
      { w with deferred := w.deferred.filter (not ∘ fun d => (w.ended? d.2).isSome) } :=
    ⟨fun {x} hhere => ⟨x, hhere, rfl, .refl _⟩, fun d hmember => (List.mem_filter.mp hmember).1⟩
  refine hfirst.trans (.foldl (fun d hmember w => putBack_served ?_) _)
  exact (hlent d (List.mem_filter.mp hmember).1).symm

/-- A context that does not wait for a call stays with its caller while things go on by themselves.
-/
theorem runBackground_served (hlent : ∀ d ∈ w.deferred, d.1 ≠ c) : Served c w w.runBackground := by
  have hcarried := carryAll_served c w
  exact hcarried.trans (settleDeferred_served fun d hmember => hlent d (hcarried.deferred hmember))

/-! ## The execution itself -/

/-- A look at an execution that leaves the context with its caller: the execution's own call goes
on, or comes back with results. -/
inductive Tends (w : World) (e : Execution) : Polled → World → Prop where
  | goesOn {own v} {run : Execution} (hcontext : run.context = e.context)
      (hphase : run.phase = .running own) (hserved : Served e.context w v) :
      Tends w e (.pending run) v
  | returns {vs v} (hserved : Served e.context w v) : Tends w e (.done (.ok vs)) v
  | fails {failure v} : Tends w e (.done (.error failure)) v

/-- An execution that begins its call has ended, or its call is under way. -/
theorem BeginFound.tends {shut : List String} {polled : Polled}
    (hfound : w.BeginFound (carryOn shut) e x polled w') : w.Tends e polled w' := by
  cases hfound with
  | cancelled | fails => exact .fails
  | @begins run =>
    have hspawned : Served e.context w (w.spawn e.context e.function run).2 := .of_same rfl rfl
    exact .goesOn rfl rfl (hspawned.trans (carryFor_served _ GuestRun.budget shut _))

/-- A look at it leaves it under way, or ends it. -/
theorem OwnFound.tends {own : CallId} {late : Bool} {polled : Polled}
    (hmine : e.phase = .running own) (hfound : w.OwnFound e x own late polled w') :
    w.Tends e polled w' := by
  cases hfound with
  | @returned result _ =>
    cases result with
    | error failure => exact .fails
    | ok vs => exact .returns (count_served _ _)
  | panicked | cancelled | timedOut => exact .fails
  | waits => exact .goesOn rfl hmine (.refl _ w)

/-- A look at an execution that has not begun, on a context without a record, or that has begun
its own call. -/
theorem poll_tends {late : Bool} {shut : List String} {polled : Polled}
    (hhere : w.contexts[e.context]? = some x) (hrecord : x.inFlight = none)
    (halone : e.phase = .fresh ∨ ∃ own, e.phase = .running own)
    (hfound : w.poll e late shut = (polled, w')) : w.Tends e polled w' := by
  cases pollWith_found hfound with
  | missing hnowhere => cases hnowhere.symm.trans hhere
  | nobody _ _ _ hfound => exact hfound.tends
  | earlier hthere hmine hawaits _ =>
    -- nothing is recorded on the context, so that there is no call to wait behind
    obtain rfl := Option.some.inj (hthere.symm.trans hhere)
    rcases halone with hfresh | ⟨own, hrunning⟩
    · simp [Execution.awaits, hfresh, hrecord] at hawaits
    · cases hmine.symm.trans (Execution.own?_eq_some.mpr hrunning)
  | own _ hphase hfound => exact hfound.tends hphase

/-- Looks at an execution, with everything else in between. -/
theorem pollFor_tends {times : Nat} {shut : List String} {polled : Polled}
    (hhere : w.contexts[e.context]? = some x) (hrecord : x.inFlight = none)
    (hlent : ∀ d ∈ w.deferred, d.1 ≠ e.context)
    (halone : e.phase = .fresh ∨ ∃ own, e.phase = .running own)
    (hfound : pollFor shut times w e = (polled, w')) :
    (times = 0 ∧ polled = .pending e ∧ w' = w) ∨ w.Tends e polled w' := by
  -- after the first look the execution's own call is under way, and stays so
  induction times generalizing w e x with
  | zero =>
    obtain ⟨rfl, rfl⟩ := Prod.mk.inj hfound
    exact .inl ⟨rfl, rfl, rfl⟩
  | succ times ih =>
    right
    unfold pollFor at hfound
    split at hfound
    · next run w₁ hlook =>
      have htends := poll_tends hhere hrecord halone hlook
      cases htends with
      | @goesOn own _ _ hcontext hphase hserved =>
        have hbetween := runBackground_served fun d hmember => hlent d (hserved.deferred hmember)
        have hall := hserved.trans hbetween
        obtain ⟨y, hthere, hsame, -⟩ := hall.row hhere
        rw [← hcontext] at hthere
        have hlent' : ∀ d ∈ w₁.runBackground.deferred, d.1 ≠ run.context := fun d hmember =>
          hcontext ▸ hlent d (hall.deferred hmember)
        rcases ih hthere (hsame.trans hrecord) hlent' (.inr ⟨own, hphase⟩) hfound with
          ⟨-, rfl, rfl⟩ | htends
        · exact .goesOn hcontext hphase hall
        · cases htends with
          | goesOn hcontext' hphase' hserved' =>
            exact .goesOn (hcontext'.trans hcontext) hphase' (hall.trans (hcontext ▸ hserved'))
          | returns hserved' => exact .returns (hall.trans (hcontext ▸ hserved'))
          | fails => exact .fails
    · next result w₁ hlook =>
      obtain ⟨rfl, rfl⟩ := Prod.mk.inj hfound
      exact poll_tends hhere hrecord halone hlook

/-- A drive that comes back with results leaves the context with its caller. -/
theorem drive_served {vs : List Value} (hhere : w.contexts[e.context]? = some x)
    (hrecord : x.inFlight = none) (hlent : ∀ d ∈ w.deferred, d.1 ≠ e.context)
    (hfresh : e.phase = .fresh) (hfound : w.drive e = (.ok vs, w')) : Served e.context w w' := by
  unfold drive at hfound
  split at hfound
  · next result w₁ hlooks =>
    obtain ⟨rfl, rfl⟩ := Prod.mk.inj hfound
    rcases pollFor_tends hhere hrecord hlent (.inl hfresh) hlooks with ⟨hnone, -⟩ | htends
    · cases hnone
    · cases htends with
      | returns hserved => exact hserved
  · next run w₁ hlooks =>
    rcases pollFor_tends hhere hrecord hlent (.inl hfresh) hlooks with ⟨hnone, -⟩ | htends
    · cases hnone
    · cases htends with
      | @goesOn own _ _ hcontext hphase hserved =>
        obtain ⟨y, hthere, hsame, -⟩ := hserved.row hhere
        rw [← hcontext] at hthere
        -- the deadline has passed, but an end that is there counts
        split at hfound
        · next result w₂ hlook =>
          obtain ⟨rfl, rfl⟩ := Prod.mk.inj hfound
          have htends := poll_tends hthere (hsame.trans hrecord) (.inr ⟨own, hphase⟩) hlook
          cases htends with
          | returns hserved' => exact hserved.trans (hcontext ▸ hserved')
        · cases (Prod.mk.inj hfound).1

end World
end SandboxPool
