import SandboxPool.Proofs.Pool.Tables

/-!
# What a borrow begins with

Whoever is handed a context finds it as if nobody had had it before: no buffers, no call, their
own scope. Its handle table tells by its generation how often it was reset, and nothing else of
its past (`Scene.Started.lends_clean`); it goes to the next generation each time the context comes
back (`Scene.ComesBack.generation`).
-/

namespace SandboxPool

namespace HandleTable

variable {t t' : HandleTable}

theorem Bare.get? (hbare : t.Bare) (handle : Int32) : t.get? handle = none :=
  get?_of_bare (congrArg slots hbare) handle

theorem Bare.size (hbare : t.Bare) : t.size = 0 := by
  rw [hbare]
  rfl

theorem Bare.resolve (hbare : t.Bare) (handle : Int32) :
    t.resolve handle = refuse (.staleHandle handle) := by
  unfold HandleTable.resolve
  rw [hbare.get? handle]

/-- Tables without buffers answer alike, up to their generations. -/
theorem Bare.serveAll (hbare : t.Bare) (hbare' : t'.Bare) (h : t.WellFormed) (h' : t'.WellFormed)
    {requests : List Request} (hstays : .reset ∉ requests) :
    t'.serveAll (requests.map (Request.exchange t.generation t'.generation)) =
      (t.serveAll requests).map (Answer.exchange t.generation t'.generation) := by
  have hsame : t' = t.inGeneration t'.generation := by
    rw [hbare]
    exact hbare'
  have hanswers := serveAll_exchange h h'.isGeneration hstays
  rw [← hsame] at hanswers
  exact hanswers

end HandleTable

/-! ## What a borrow begins with -/

/-- A context is as its borrower may expect it. -/
structure World.Clean (w : World) (scope : ScopeId) (c : ContextId) (x : Context) : Prop where
  row : w.contexts[c]? = some x
  empty : x.handles.size = 0
  stale : ∀ handle, x.handles.resolve handle = refuse (.staleHandle handle)
  scope : x.scope = scope
  record : x.inFlight = none
  ended : ∀ {id}, w.owner? id = some c → (w.ended? id).isSome

theorem World.handOut_row {w w' : World} {q : Nat} {scope : ScopeId} {c : ContextId} {x : Context}
    (hfound : w.handOut q scope = (.ok c, w')) (hthere : w.contexts[c]? = some x) :
    w'.contexts[c]? = some { x with scope } := by
  rcases handOut_cases hfound with
    ⟨-, hrefused, -⟩ | ⟨p, p', -, -, ⟨e, hrefused, -⟩ | ⟨d, event, hok, rfl⟩⟩
  · cases hrefused
  · cases hrefused
  · obtain rfl := Except.ok.inj hok
    show ((w.setPool q (p'.count Counters.lend)).modifyContext c fun x =>
      { x with scope }).contexts[c]? = _
    rw [modifyContext_contexts, if_pos rfl]
    exact congrArg (Option.map _) hthere

/-- A world with one context, which nobody has used. -/
theorem World.ofGuest_empty (guest : GuestInstance) (services : Services) {c : ContextId}
    {table : HandleTable} (hthere : (World.ofGuest guest services).table? c = some table) :
    table = .empty := by
  obtain ⟨x, hhere, rfl⟩ := Option.map_eq_some_iff.mp hthere
  obtain ⟨hinside, rfl⟩ := Array.getElem?_eq_some_iff.mp hhere
  obtain rfl : c = 0 := Nat.lt_one_iff.mp hinside
  rfl

namespace Scene

variable {s t u : Scene} {q : Nat} {scope : ScopeId} {c : ContextId} {w : World}

/-- A context that is handed out is clean, and its table is as it was made or reset last. -/
theorem Started.handOut_clean (h : Started s) (hfound : s.world.handOut q scope = (.ok c, w)) :
    ∃ x, w.Clean scope c x ∧ x.handles.Bare ∧ x.handles.WellFormed := by
  obtain ⟨p, hhere, hidle⟩ := World.handOut_idle hfound
  have hreachable := h.reachable
  have hfree := hreachable.idle_free hhere hidle
  obtain ⟨x, -, hthere, -⟩ := World.home?_eq_some (hreachable.housed (.inl ⟨p, hhere, hidle⟩))
  have htable : s.world.table? c = some x.handles := congrArg (Option.map Context.handles) hthere
  have hbare := h.bare hfree htable
  have hrecord : x.inFlight = none := by
    rw [← World.inFlight?_eq hthere, hreachable.free_record hfree]
  refine ⟨{ x with scope }, ⟨World.handOut_row hfound hthere, hbare.size, hbare.resolve, rfl,
    hrecord, fun howned => ?_⟩, hbare, h.wellFormed htable⟩
  have hcalls := World.handOut_calls hfound
  rw [World.owner?_of_calls hcalls] at howned
  rw [World.ended?_of_calls hcalls]
  exact hreachable.orderly.idle_over hhere hidle howned

/-- A run in which a context comes back to its queue, or to a pool that was closed, so many
times. -/
inductive ComesBack (c : ContextId) : Nat → Scene → Scene → Prop where
  | refl (s : Scene) : ComesBack c 0 s s
  | stays {n s t u} (hbefore : ComesBack c n s t) (hstep : Step t u)
      (hreturns : ∀ q, .returning q c ∈ t.tasks → .returning q c ∈ u.tasks) : ComesBack c n s u
  | back {n q s t u} (hbefore : ComesBack c n s t) (hstep : Step t u)
      (hreturns : .returning q c ∈ t.tasks) (hgone : .returning q c ∉ u.tasks) :
      ComesBack c (n + 1) s u

namespace ComesBack

variable {n : Nat} {table table' : HandleTable}

theorem started (hrun : ComesBack c n s t) (h : Started s) : Started t := by
  induction hrun with
  | refl _ => exact h
  | stays _ hstep _ ih | back _ hstep _ _ ih => exact .step (ih h) hstep

/-- Every run is one of these. -/
theorem of_steps (hrun : Steps s t) (c : ContextId) : ∃ n, ComesBack c n s t := by
  induction hrun with
  | refl => exact ⟨0, .refl s⟩
  | @tail t u _ hstep ih =>
    obtain ⟨n, hbefore⟩ := ih
    by_cases hreturns : ∀ q, Task.returning q c ∈ t.tasks → .returning q c ∈ u.tasks
    · exact ⟨n, .stays hbefore hstep hreturns⟩
    · push Not at hreturns
      obtain ⟨q, hmember, hgone⟩ := hreturns
      exact ⟨n + 1, .back hbefore hstep hmember hgone⟩

/-- A step while a context is not on its way to the queue. -/
theorem quiet (hrun : ComesBack c n s t) (hstep : Step t u)
    (haway : ∀ q, .returning q c ∉ t.tasks) : ComesBack c n s u :=
  .stays hrun hstep fun q hmember => absurd hmember (haway q)

/-- A context's table goes to the next generation each time the context comes back. -/
theorem generation (hrun : ComesBack c n s t) (h : Started s)
    (hbefore : s.world.table? c = some table) (hthere : t.world.table? c = some table') :
    table'.generation = HandleTable.nextGeneration^[n] table.generation := by
  induction hrun generalizing table' with
  | refl _ =>
    obtain rfl := Option.some.inj (hbefore.symm.trans hthere)
    -- Only a step that ends its return clears the table, and that is what the number counts.
    rfl
  | stays hrun hstep hreturns ih =>
    obtain ⟨earlier, hthere', hhandled⟩ := hstep.handled (hrun.started h).reachable hthere
    have hsame := ih h hbefore hthere'
    cases hhandled with
    | stays _ => exact hsame
    | works _ _ hwork => exact hwork.generation.trans hsame
    | clears hmember hgone => exact absurd rfl (hgone _ (hreturns _ hmember))
  | back hrun hstep hreturns hgone ih =>
    obtain ⟨earlier, hthere', hhandled⟩ := hstep.handled (hrun.started h).reachable hthere
    have hsame := ih h hbefore hthere'
    cases hhandled with
    | stays hstill => exact absurd (hstill _ hreturns) hgone
    | works htasks _ _ => exact absurd (htasks ▸ hreturns) hgone
    | clears _ _ =>
      rw [Function.iterate_succ_apply', ← hsame]
      rfl

/-- A handle of an earlier borrow leads nowhere, unless the context has come back as often as there
are generations, or a multiple of that. -/
theorem dead (hrun : ComesBack c n s t) (h : Started s) {handle : Int32}
    (hbefore : s.world.table? c = some table) (hlive : (table.get? handle).isSome)
    (hthere : t.world.table? c = some table') (hrounds : ¬ HandleTable.generations ∣ n) :
    table'.get? handle = none := by
  refine HandleTable.get?_of_other_generation hlive fun hsame => hrounds ?_
  rw [hrun.generation h hbefore hthere] at hsame
  exact (HandleTable.nextGeneration_iterate_eq_self (h.wellFormed hbefore).isGeneration).mp hsame

end ComesBack

/-! ## Two borrows -/

/-- A caller has asked for it after another one has had it and left a buffer there. -/
theorem second_asks (guest : GuestInstance) (services : Services) :
    ∃ r s : Scene, r.Started ∧ r.world.table? 0 = some ⟨1, #[some ⟨[7], none⟩], []⟩ ∧
      ComesBack 0 1 r s ∧ s.tasks = [.permitted 0 1] ∧
      s.world.contexts[0]? =
        some ⟨1, 0, [], .ofMillis 30000, guest, ⟨2, #[], []⟩, 3, none⟩ ∧
      (s.world.handOut 0 1).1 = .ok 0 := by
  have hstart := Started.start (World.ofGuest_fresh guest services)
    -- One borrow stores a buffer and ends; then the context waits to be borrowed once more.
    (World.ofGuest_empty guest services)
  have hmade := hstart.step .scope
  have hentered := hmade.step (.enter 0 (List.mem_singleton_self 1) rfl)
  have hasked := hentered.step (.ask (l := []) (r := []) rfl rfl)
  have htaken := hasked.step (.take (l := []) (r := []) rfl rfl)
  have hinserted : HandleTable.empty.insert ⟨[7], none⟩ =
      .ok (65537, ⟨1, #[some ⟨[7], none⟩], []⟩) := rfl
  have hstored := htaken.step (.touch (List.mem_singleton_self _) rfl (.insert hinserted))
  have hbegins {r : Scene} (_ : r.Started) : ComesBack 0 0 r r := .refl r
  have hreleased := (hbegins hstored).quiet (.release (l := []) (r := []) rfl rfl)
    (by simp [Task.ofTaken])
  have hqueued := hreleased.back (.enqueue (l := []) (r := []) rfl rfl) (List.mem_singleton_self _)
    (by simp [Task.ofReturned])
  have hannounced := hqueued.quiet (.announce (l := []) (r := []) rfl) (by simp [Task.ofReturned])
  have hentered' := hannounced.quiet (.enter 0 (List.mem_singleton_self 1) rfl) (by simp)
  have hasked' := hentered'.quiet (.ask (l := []) (r := []) rfl rfl) (by simp)
  exact ⟨_, _, hstored, rfl, hasked', rfl, rfl, rfl⟩

end Scene
end SandboxPool
