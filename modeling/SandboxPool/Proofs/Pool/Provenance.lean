import SandboxPool.Proofs.Pool.Borrows
import SandboxPool.Proofs.Pool.RoundTrip

/-!
# What a borrow can get at

During a borrow exactly those buffers can be got at that were stored in it
(`Scene.Started.own_buffers`): handles lead to no buffer of another caller. A handle does not say
which context it is of, though. It is refused in another borrow unless the same number was given
there as well, and contexts that were lent equally often give the same numbers
(`Scene.accepts_elsewhere`).
-/

namespace SandboxPool

namespace HandleTable

variable {t : HandleTable} {handle : Int32}

/-! ## Handles that lead nowhere -/

/-- A handle is refused as stale, whoever asks for what is under it and however. -/
structure Refuses (t : HandleTable) (handle : Int32) : Prop where
  resolve : t.resolve handle = refuse (.staleHandle handle)
  receive : ∀ (M : Type) [Message M],
    Buffers.receive M t handle = refuse (.staleHandle handle)
  consume : ∀ (M : Type) [Message M],
    Buffers.consume M t handle = (refuse (.staleHandle handle), t)
  bufferSize : ∀ {memory : Memory} {h : HostState}, h.handles = t →
    HostAction.bufferSize.run memory [.i32 handle] h =
      (.failed ⟨.staleHandle handle, []⟩, memory, h)
  readBuffer : ∀ {memory : Memory} {pointer : Int32} {h : HostState}, h.handles = t →
    HostAction.readBuffer.run memory [.i32 handle, .i32 pointer] h =
      (.failed ⟨.staleHandle handle, []⟩, memory, h)

theorem Refuses.of_dead (hdead : t.get? handle = none) : t.Refuses handle := by
  have hresolve := resolve_of_dead hdead
  -- Every host function resolves the handle before it does anything else.
  refine ⟨hresolve, fun M _ => Buffers.receive_dead hresolve, fun M _ => ?_, ?_, ?_⟩
  · unfold Buffers.consume
    rw [Buffers.receive_dead hresolve, discard_of_dead hdead]
  · rintro memory h rfl
    have hsize : Buffers.size [.i32 handle] h = refuse (.staleHandle handle) := by
      unfold Buffers.size
      simp only [i32Arg, List.getElem?_cons_zero, bind, Except.bind, hresolve, refuse]
    show (HostReply.done (Buffers.size [.i32 handle] h), memory, h) = _
    rw [hsize]
    rfl
  · rintro memory pointer h rfl
    have hcopied : Buffers.copyOut memory [.i32 handle, .i32 pointer] h =
        refuse (.staleHandle handle) := by
      unfold Buffers.copyOut
      simp only [i32Arg, List.getElem?_cons_zero, List.getElem?_cons_succ, bind, Except.bind,
        hresolve, refuse]
    unfold HostAction.run
    simp only [hcopied, refuse]

end HandleTable

namespace Scene

variable {s t u : Scene} {q : Nat} {scope : ScopeId} {c : ContextId}

/-! ## Borrows -/

/-- No run forgets a call or revives one. -/
theorem Steps.grown (hrun : Steps s t) : s.world.Grown t.world := by
  induction hrun with
  | refl => exact .of_calls rfl
  | tail _ hstep ih =>
    exact ⟨fun howned => hstep.grown.owner (ih.owner howned),
      fun hpast => hstep.grown.ended (ih.ended hpast)⟩

/-- A borrow that began in the scene `s` and has come to another one, in which the caller still has
the context, with what has been done to the context's table since. -/
inductive Borrow (q : Nat) (scope : ScopeId) (c : ContextId) (s : Scene) :
    List HandleTable.Op → Scene → Prop where
  /-- A caller who has a permit is handed a context. -/
  | begins {l r w} (htask : s.tasks = l ++ .permitted q scope :: r)
      (hfound : s.world.handOut q scope = (.ok c, w)) :
      Borrow q scope c s []
        { s with world := w, tasks := l ++ (Task.ofTaken q scope (.ok c)).toList ++ r }
  /-- Something happens, and the caller keeps the context. -/
  | goesOn {ops more t u table table'} (hbefore : Borrow q scope c s ops t) (hstep : Step t u)
      (hlent : u.Lent q scope c) (hold : t.world.table? c = some table)
      (hnew : u.world.table? c = some table') (hrun : table.Run more table') :
      Borrow q scope c s (ops ++ more) u

namespace Borrow

variable {ops : List HandleTable.Op} {table : HandleTable}

theorem steps (hborrow : s.Borrow q scope c ops t) : Steps s t := by
  induction hborrow with
  | begins htask hfound => exact .single (.take htask hfound)
  | goesOn _ hstep _ _ _ _ ih => exact ih.tail hstep

theorem lent (hborrow : s.Borrow q scope c ops t) : t.Lent q scope c := by
  cases hborrow with
  | begins _ _ => exact ⟨none, by simp [Task.ofTaken]⟩
  | goesOn _ _ hlent _ _ _ => exact hlent

/-- Whatever happens while the caller keeps the context, it is known what was done to its table. -/
theorem next (hborrow : s.Borrow q scope c ops t) (h : Started s) (hstep : Step t u)
    (hlent : u.Lent q scope c) : ∃ more, s.Borrow q scope c (ops ++ more) u := by
  have hreachable : t.Reachable := h.reachable.steps hborrow.steps
  obtain ⟨execution, hmember⟩ := hlent
  obtain ⟨x, -, hhere, -⟩ := (hreachable.step hstep).there hmember rfl
  obtain ⟨table', hnew⟩ : ∃ table', u.world.table? c = some table' :=
    ⟨x.handles, congrArg (Option.map Context.handles) hhere⟩
  obtain ⟨table, hold, hhandled⟩ := hstep.handled hreachable hnew
  have hrun : ∃ more, table.Run more table' := by
    cases hhandled with
    | stays _ => exact ⟨[], .nil _⟩
    | works _ _ hrun => exact ⟨_, hrun⟩
    | clears _ hgone => exact absurd rfl (hgone _ hmember)
  obtain ⟨more, hrun⟩ := hrun
  exact ⟨more, .goesOn hborrow hstep ⟨execution, hmember⟩ hold hnew hrun⟩

/-- What was done during a borrow leads from a table without buffers to the context's table. -/
theorem run (hborrow : s.Borrow q scope c ops t) (h : Started s)
    (hthere : t.world.table? c = some table) :
    ∃ first : HandleTable, first.Bare ∧ first.WellFormed ∧ first.Run ops table := by
  induction hborrow generalizing table with
  | begins _ hfound =>
    obtain ⟨x, hclean, hbare, hformed⟩ := h.handOut_clean hfound
    have hsame : some x.handles = some table :=
      (congrArg (Option.map Context.handles) hclean.row).symm.trans hthere
    obtain rfl := Option.some.inj hsame
    exact ⟨x.handles, hbare, hformed, .nil _⟩
  | goesOn hbefore hstep _ hold hnew hrun ih =>
    obtain ⟨first, hbare, hformed, hearlier⟩ := ih hold
    obtain rfl := Option.some.inj (hnew.symm.trans hthere)
    exact ⟨first, hbare, hformed, hearlier.append hrun⟩

/-- The context was idle when the borrow began. -/
theorem idle (hborrow : s.Borrow q scope c ops t) :
    ∃ p, s.world.pools[q]? = some p ∧ c ∈ p.idle := by
  induction hborrow with
  | begins _ hfound => exact World.handOut_idle hfound
  | goesOn _ _ _ _ _ _ ih => exact ih

/-- The calls that go on during a borrow were begun during it. -/
theorem calls (hborrow : s.Borrow q scope c ops t) (h : Started s) {id : CallId}
    (howned : t.world.owner? id = some c) (hlive : t.world.ended? id = none) :
    s.world.owner? id = none := by
  have hgrown := hborrow.steps.grown
  obtain ⟨p, hhere, hidle⟩ := hborrow.idle
  cases hbefore : s.world.owner? id with
  | none => rfl
  | some d =>
    -- earlier calls were over before the context was handed out, and stay so
    obtain rfl : c = d := Option.some.inj (howned.symm.trans (hgrown.owner hbefore))
    have hpast := h.reachable.orderly.idle_over hhere hidle hbefore
    obtain ⟨r, hpast⟩ := Option.isSome_iff_exists.mp hpast
    rw [hgrown.ended hpast] at hlive
    cases hlive

end Borrow

/-! ## What handles lead to -/

/-- During a borrow, with `ops` done to the context's table since it was handed out: it is known
what is done next; only calls of this borrow go on; a handle leads to a buffer exactly if the
buffer was stored under it last in this borrow and not dropped since, and every other value is
refused as stale. That is so for a handle of an earlier borrow of the same context, unless the
context has come back a multiple of 32767 times since. -/
theorem Started.own_buffers (h : Started s) {ops : List HandleTable.Op}
    (hborrow : s.Borrow q scope c ops t) :
    (∀ {u : Scene}, Step t u → u.Lent q scope c →
      ∃ more, s.Borrow q scope c (ops ++ more) u) ∧
    (∀ {id}, t.world.owner? id = some c → t.world.ended? id = none →
      s.world.owner? id = none) ∧
    ∃ x, t.world.contexts[c]? = some x ∧
      (∀ handle buffer, x.handles.resolve handle = .ok buffer ↔
        HandleTable.latest handle (ops.map .done).reverse = some buffer) ∧
      (∀ handle, HandleTable.latest handle (ops.map .done).reverse = none →
        x.handles.Refuses handle) ∧
      (∀ {n : Nat} {r : Scene} {table handle}, Started r → r.world.table? c = some table →
        (table.get? handle).isSome → ComesBack c n r t → ¬ HandleTable.generations ∣ n →
          x.handles.Refuses handle) := by
  have hreachable : t.Reachable := h.reachable.steps hborrow.steps
  obtain ⟨execution, hmember⟩ := hborrow.lent
  obtain ⟨x, -, hhere, -⟩ := hreachable.there hmember rfl
  have hthere : t.world.table? c = some x.handles := congrArg (Option.map Context.handles) hhere
  obtain ⟨first, hbare, hformed, hrun⟩ := hborrow.run h hthere
  -- the table began without buffers, so it holds what was stored since
  have hknown (handle : Int32) :
      x.handles.get? handle = HandleTable.latest handle (ops.map .done).reverse := by
    have hnothing (handle : Int32) : first.get? handle = HandleTable.latest handle [] :=
      hbare.get? handle
    have hall := hrun.get?_eq_latest hformed hnothing handle
    rw [List.append_nil] at hall
    exact hall
  refine ⟨hborrow.next h, hborrow.calls h, x, hhere, fun handle buffer => ?_,
    fun handle hnone => ?_,
    fun hearlier hbefore hlive hback hrounds => ?_⟩
  · rw [← hknown]
    unfold HandleTable.resolve
    cases x.handles.get? handle <;> simp [refuse]
  · exact .of_dead ((hknown handle).trans hnone)
  · exact .of_dead (hback.dead hearlier hbefore hlive hthere hrounds)

/-- The second borrower of a context stores a buffer of their own; the first one's handle is
refused. -/
theorem own_buffers_second : ∃ (r s t : Scene) (table : HandleTable) (x : Context),
    Started r ∧ r.world.table? 0 = some table ∧ (table.get? 65537).isSome ∧
      ComesBack 0 1 r t ∧ Started s ∧ s.Borrow 0 1 0 [.insert ⟨[8], none⟩ 131073] t ∧
        t.world.contexts[0]? = some x ∧ x.handles.resolve 131073 = .ok ⟨[8], none⟩ ∧
          x.handles.Refuses 65537 := by
  let guest : GuestInstance := .script ⟨"guest", none, [], []⟩ none .empty
  obtain ⟨r, s, hearlier, hbefore, hback, htasks, hhere, htaken⟩ := second_asks guest default
  have h := hback.started hearlier
  have htask : s.tasks = [] ++ .permitted 0 1 :: [] := htasks
  have hfound : s.world.handOut 0 1 = (.ok 0, (s.world.handOut 0 1).2) := Prod.ext htaken rfl
  -- The context as the second borrow finds it, and as it leaves it with one buffer.
  let x : Context := ⟨1, 0, [], .ofMillis 30000, guest, ⟨2, #[], []⟩, 1, none⟩
  let y : Context := { x with handles := ⟨2, #[some ⟨[8], none⟩], []⟩ }
  have hlent : (s.world.handOut 0 1).2.contexts[0]? = some x := World.handOut_row hfound hhere
  have hinserted : (⟨2, #[], []⟩ : HandleTable).insert ⟨[8], none⟩ =
      .ok (131073, ⟨2, #[some ⟨[8], none⟩], []⟩) := rfl
  have hkept : ((s.world.handOut 0 1).2.modifyContext 0 fun _ => y).contexts[0]? = some y := by
    rw [World.modifyContext_contexts, if_pos rfl, hlent]
    rfl
  let t : Scene := { s with
    world := (s.world.handOut 0 1).2
    tasks := [] ++ (Task.ofTaken 0 1 (.ok 0)).toList ++ [] }
  let u : Scene := { t with world := t.world.modifyContext 0 fun _ => y }
  have hbegun : s.Borrow 0 1 0 [] t := .begins htask hfound
  have hstored : Step t u := .touch (List.mem_singleton_self _) hlent (.insert hinserted)
  have hborrow : s.Borrow 0 1 0 [.insert ⟨[8], none⟩ 131073] u :=
    hbegun.goesOn hstored ⟨none, List.mem_singleton_self _⟩
      (congrArg (Option.map Context.handles) hlent) (congrArg (Option.map Context.handles) hkept)
      (.insert hinserted (.nil _))
  have hagain : ComesBack 0 1 r u :=
    (hback.quiet (.take htask hfound) (by simp [htasks])).quiet hstored (by simp [Task.ofTaken])
  obtain ⟨-, -, z, hthere, hown, -, hrefused⟩ := h.own_buffers hborrow
  exact ⟨r, s, u, _, z, hearlier, hbefore, rfl, hagain, h, hborrow, hthere, (hown _ _).mpr rfl,
    hrefused hearlier hbefore rfl hagain (by decide)⟩

end Scene

/-! ## What a handle does not say -/

namespace World

/-- A world with one pool, and in it two contexts with the same guest. -/
def ofGuests (guest : GuestInstance) (services : Services) : World :=
  { ofEngine (.scripts []) services with
    pools := #[.ofContexts 1 [0, 1]]
    nextPool := 2
    contexts := #[⟨1, 0, [], .ofMillis 30000, guest, .empty, 0, none⟩,
      ⟨1, 1, [], .ofMillis 30000, guest, .empty, 1, none⟩]
    nextScope := 2 }

/-- Both contexts are as they were made. -/
theorem ofGuests_contexts {guest : GuestInstance} {services : Services} {c : ContextId}
    {x : Context} (hthere : (ofGuests guest services).contexts[c]? = some x) :
    (c = 0 ∨ c = 1) ∧ x = ⟨1, c, [], .ofMillis 30000, guest, .empty, c, none⟩ := by
  obtain ⟨hinside, rfl⟩ := Array.getElem?_eq_some_iff.mp hthere
  rcases Nat.le_one_iff_eq_zero_or_eq_one.mp (Nat.le_of_lt_succ hinside) with rfl | rfl
  · exact ⟨.inl rfl, rfl⟩
  · exact ⟨.inr rfl, rfl⟩

theorem ofGuests_fresh (guest : GuestInstance) (services : Services) :
    (ofGuests guest services).Fresh where
  pool {q p} hhere := by
    obtain ⟨hinside, rfl⟩ := Array.getElem?_eq_some_iff.mp hhere
    obtain rfl : q = 0 := Nat.lt_one_iff.mp hinside
    have hdistinct : [0, 1].Nodup := by decide
    refine ⟨rfl, hdistinct, ?_⟩
    simp [poolIndex?, ofGuests]
  context {q p c} hhere hmember := by
    obtain ⟨hinside, rfl⟩ := Array.getElem?_eq_some_iff.mp hhere
    obtain rfl : q = 0 := Nat.lt_one_iff.mp hinside
    rcases List.mem_cons.mp hmember with rfl | hmember
    · exact ⟨_, rfl, rfl⟩
    · obtain rfl := List.mem_singleton.mp hmember
      exact ⟨_, rfl, rfl⟩
  unused {c x} hthere := by
    obtain ⟨rfl | rfl, rfl⟩ := ofGuests_contexts hthere
    · exact ⟨rfl, Nat.two_pos⟩
    · exact ⟨rfl, Nat.one_lt_two⟩
  quiet := ⟨rfl, rfl, rfl⟩

theorem ofGuests_empty (guest : GuestInstance) (services : Services) {c : ContextId}
    {table : HandleTable} (hthere : (ofGuests guest services).table? c = some table) :
    table = .empty := by
  obtain ⟨x, hhere, rfl⟩ := Option.map_eq_some_iff.mp hthere
  rw [(ofGuests_contexts hhere).2]

end World

namespace Scene

/-- Two callers who have contexts of one pool at a time get the same handle, each for a buffer of
their own: it is not so that a handle of one borrow is refused in every other. -/
theorem accepts_elsewhere : ¬ ∀ {s : Scene} {q : Nat} {scope scope' : ScopeId} {c d : ContextId}
    {table table' : HandleTable} {handle : Int32}, Started s → s.Lent q scope c →
      s.Lent q scope' d → c ≠ d → s.world.table? c = some table →
        (table.get? handle).isSome → s.world.table? d = some table' →
          table'.Refuses handle := by
  intro hclaim
  let guest : GuestInstance := .script ⟨"guest", none, [], []⟩ none .empty
  -- Two borrowers, one context each, and one buffer in each of the two fresh tables.
  have hstart := Started.start (World.ofGuests_fresh guest default)
    (World.ofGuests_empty guest default)
  have hmade := (hstart.step .scope).step .scope
  have hentered := hmade.step (.enter 0 (.tail 3 (List.mem_singleton_self 2)) rfl)
  have hasked := hentered.step (.ask (l := []) (r := []) rfl rfl)
  have hlent := hasked.step (.take (l := []) (r := []) rfl rfl)
  have hentered' := hlent.step (.enter 0 (.head [2]) rfl)
  have hasked' := hentered'.step (.ask (l := []) (r := [.holding 0 2 0 none]) rfl rfl)
  have hboth := hasked'.step (.take (l := []) (r := [.holding 0 2 0 none]) rfl rfl)
  have hinserted : HandleTable.empty.insert ⟨[97], none⟩ =
      .ok (65537, ⟨1, #[some ⟨[97], none⟩], []⟩) := rfl
  have hinserted' : HandleTable.empty.insert ⟨[98], none⟩ =
      .ok (65537, ⟨1, #[some ⟨[98], none⟩], []⟩) := rfl
  have hstored := hboth.step (.touch (.tail _ (.head [])) rfl (.insert hinserted))
  have hstored' := hstored.step (.touch (.head _) rfl (.insert hinserted'))
  have hlive : ((⟨1, #[some ⟨[97], none⟩], []⟩ : HandleTable).get? 65537).isSome := rfl
  have hrefused : (⟨1, #[some ⟨[98], none⟩], []⟩ : HandleTable).Refuses 65537 :=
    hclaim hstored' ⟨none, .tail _ (.head [])⟩ ⟨none, .head _⟩ Nat.zero_ne_one rfl hlive rfl
  have hresolved : (⟨1, #[some ⟨[98], none⟩], []⟩ : HandleTable).resolve 65537 =
      .ok ⟨[98], none⟩ := rfl
  rw [hrefused.resolve] at hresolved
  cases hresolved

end Scene
end SandboxPool
