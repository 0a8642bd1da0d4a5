import SandboxPool.Proofs.Guest.Law
import SandboxPool.Proofs.Handle.Table

/-!
# What host functions do

Two things hold of every host function, and so of every slice of a guest:

* once the caller's scope has fired, no token store is changed and no lock goes to a client
  (`HostState.Obeys`);
* the handle table changes by storing and dropping buffers, one after another, and what a guest
  stores has no message type (`HostState.Stores`).
-/

namespace SandboxPool

/-- What host functions leave alone under a scope that has fired. -/
structure HostState.Obeys (h h' : HostState) : Prop where
  cancelled : h'.cancelled = h.cancelled
  services : h.cancelled = true → h'.services = h.services
  sent : h.cancelled = true → h'.journal.sent = h.journal.sent

/-- A table changes by what guests do to tables. -/
def HandleTable.Worked (t t' : HandleTable) : Prop :=
  ∃ ops, t.Run ops t' ∧
    ∀ buffer handle, HandleTable.Op.insert buffer handle ∈ ops → buffer.messageType = none

/-- Host functions change the handle table as guests may. -/
def HostState.Stores (h h' : HostState) : Prop := h.handles.Worked h'.handles

namespace HandleTable.Worked

variable {t t' t'' : HandleTable}

theorem refl (t : HandleTable) : t.Worked t :=
  ⟨[], .nil t, fun _ _ hmember => nomatch hmember⟩

theorem trans (h : t.Worked t') (h' : t'.Worked t'') : t.Worked t'' := by
  obtain ⟨ops, hrun, huntyped⟩ := h
  obtain ⟨rest, hfollowing, huntyped'⟩ := h'
  refine ⟨ops ++ rest, hrun.append hfollowing, fun buffer handle hmember => ?_⟩
  rcases List.mem_append.mp hmember with hbefore | hafter
  · exact huntyped buffer handle hbefore
  · exact huntyped' buffer handle hafter

/-- Storing a buffer is work on the table. -/
theorem insert {bytes : List UInt8} {handle : Int32}
    (hstored : t.insert ⟨bytes, none⟩ = .ok (handle, t')) : t.Worked t' := by
  refine ⟨[.insert ⟨bytes, none⟩ handle], .insert hstored (.nil t'), fun buffer given hmember => ?_⟩
  obtain ⟨rfl, -⟩ := Op.insert.inj (List.mem_singleton.mp hmember)
  rfl

/-- So is dropping one, even one that is not there. -/
theorem discard (t : HandleTable) (handle : Int32) : t.Worked (t.discard handle).2 := by
  refine ⟨[.discard handle], .discard (.nil _), fun buffer given hmember => ?_⟩
  cases List.mem_singleton.mp hmember

end HandleTable.Worked

variable {memory : Memory} {args : List Value} {layout : StringLayout} {h : HostState}

namespace HostState

theorem Obeys.refl (h : HostState) : h.Obeys h := ⟨rfl, fun _ => rfl, fun _ => rfl⟩

/-- What obeys at every step obeys all the way: a host that was cancelled stays so. -/
theorem Obeys.trans {h' h'' : HostState} (hfirst : h.Obeys h') (hsecond : h'.Obeys h'') :
    h.Obeys h'' where
  cancelled := hsecond.cancelled.trans hfirst.cancelled
  services hfired :=
    (hsecond.services (hfirst.cancelled.trans hfired)).trans (hfirst.services hfired)
  sent hfired := (hsecond.sent (hfirst.cancelled.trans hfired)).trans (hfirst.sent hfired)

end HostState

/-! ## Diagnostics -/

/-- A state, or the same with one more event in the log. -/
def HostState.LoggedAtMost (h h' : HostState) : Prop := h' = h ∨ ∃ event, h' = h.log event

/-- An abort is logged, or its message cannot be read; no more comes of it. -/
theorem Diagnostics.abort_logs : h.LoggedAtMost (Diagnostics.abort layout memory args h).2 := by
  unfold Diagnostics.abort
  dsimp only
  split
  · exact .inl rfl
  · exact .inr ⟨_, rfl⟩

theorem Diagnostics.trace_logs : h.LoggedAtMost (Diagnostics.trace layout memory args h).2 := by
  unfold Diagnostics.trace
  dsimp only
  split
  · exact .inl rfl
  · exact .inr ⟨_, rfl⟩

namespace HostState.LoggedAtMost

/-- Logging touches neither the services nor what was sent. -/
theorem obeys {h' : HostState} (hlogged : h.LoggedAtMost h') : h.Obeys h' := by
  rcases hlogged with rfl | ⟨event, rfl⟩ <;> exact ⟨rfl, fun _ => rfl, fun _ => rfl⟩

theorem handles {h' : HostState} (hlogged : h.LoggedAtMost h') : h'.handles = h.handles := by
  rcases hlogged with rfl | ⟨event, rfl⟩ <;> rfl

theorem stores {h' : HostState} (hlogged : h.LoggedAtMost h') : h.Stores h' := by
  rcases hlogged with rfl | ⟨event, rfl⟩ <;> exact .refl _

end HostState.LoggedAtMost

/-! ## Tokens -/

/-- A state is left as it is, or the scope has not fired and the handles stay. -/
def HostState.Permitted (h h' : HostState) : Prop :=
  h' = h ∨ (h.cancelled = false ∧ h'.cancelled = h.cancelled ∧ h'.handles = h.handles)

/-- Taking tokens changes nothing once the scope has fired, and the handles never. -/
theorem Tokens.take_permitted (store : String) :
    h.Permitted (Tokens.take store layout memory args h).2 := by
  unfold Tokens.take
  split
  · exact .inl rfl
  · next scope ttl hread =>
    -- the scope is looked at after the request is read and before the store is asked
    by_cases hfired : h.cancelled = true
    · rw [if_pos hfired]
      exact .inl rfl
    · rw [if_neg hfired]
      refine .inr ⟨Bool.eq_false_iff.mpr hfired, ?_⟩
      dsimp only
      split <;> exact ⟨rfl, rfl⟩

/-- The same is true of releasing them. -/
theorem Tokens.release_permitted (store : String) :
    h.Permitted (Tokens.release store layout memory args h).2 := by
  unfold Tokens.release
  split
  · exact .inl rfl
  · next scope hread =>
    by_cases hfired : h.cancelled = true
    · rw [if_pos hfired]
      exact .inl rfl
    · rw [if_neg hfired]
      refine .inr ⟨Bool.eq_false_iff.mpr hfired, ?_⟩
      dsimp only
      split <;> exact ⟨rfl, rfl⟩

namespace HostState.Permitted

theorem obeys {h' : HostState} (hpermitted : h.Permitted h') : h.Obeys h' := by
  rcases hpermitted with rfl | ⟨hunfired, hsame, -⟩
  · exact .refl _
  · refine ⟨hsame, fun hfired => ?_, fun hfired => ?_⟩ <;> rw [hunfired] at hfired <;> cases hfired

/-- A permitted change leaves the handles alone. -/
theorem handles {h' : HostState} (hpermitted : h.Permitted h') : h'.handles = h.handles := by
  rcases hpermitted with rfl | ⟨-, -, hsame⟩
  · rfl
  · exact hsame

/-- So it does nothing to the table that guests may not do. -/
theorem stores {h' : HostState} (hpermitted : h.Permitted h') : h.Stores h' := by
  unfold Stores
  rw [hpermitted.handles]
  exact .refl h.handles

end HostState.Permitted

/-! ## Buffers -/

/-- A guest that registers a buffer stores its bytes without a type. -/
theorem Buffers.register_eq_ok {vs : List Value} {h' : HostState}
    (hdone : Buffers.register memory args h = .ok (vs, h')) :
    ∃ bytes handle handles event, h.handles.insert ⟨bytes, none⟩ = .ok (handle, handles) ∧
      vs = [.i32 handle] ∧ h' = { h with handles }.log event := by
  unfold Buffers.register at hdone
  -- arguments are read one after another, and each may be missing
  cases hpointer : i32Arg args 0 "ptr" with
  | error e => rw [hpointer] at hdone; cases hdone
  | ok p =>
    cases hlength : i32Arg args 1 "len" with
    | error e => rw [hpointer, hlength] at hdone; cases hdone
    | ok l =>
      cases hread : memory.guestRead p l with
      | error e => rw [hpointer, hlength] at hdone; simp [bind, Except.bind, hread] at hdone
      | ok bytes =>
        cases hstored : h.handles.insert ⟨bytes, none⟩ with
        | error e =>
          rw [hpointer, hlength] at hdone
          simp [bind, Except.bind, hread, hstored] at hdone
        | ok given =>
          rw [hpointer, hlength] at hdone
          simp only [bind, Except.bind, hread, hstored, pure, Except.pure] at hdone
          obtain ⟨rfl, rfl⟩ := Prod.mk.inj (Except.ok.inj hdone)
          exact ⟨bytes, given.1, given.2, _, hstored, rfl, rfl⟩

/-- A drop that succeeds has dropped one handle and done nothing else. -/
theorem Buffers.drop_eq_ok {h' : HostState} (hdone : Buffers.drop args h = .ok h') :
    ∃ handle, h' = { h with handles := (h.handles.discard handle).2 } := by
  unfold Buffers.drop at hdone
  cases hgiven : i32Arg args 0 "handle" with
  | error e => rw [hgiven] at hdone; cases hdone
  | ok handle =>
    rw [hgiven] at hdone
    exact ⟨handle, (Except.ok.inj hdone).symm⟩

/-! ## Locks -/

/-- A lock is read from a buffer, which is dropped. -/
theorem Locks.request_worked (t : HandleTable) : t.Worked (Locks.request args t).2 := by
  unfold Locks.request
  split
  · exact .refl t
  · next handle hgiven => exact .discard t handle

/-- A lock goes nowhere under a scope that has fired. -/
theorem Locks.upsert_obeys (client : String) : h.Obeys (Locks.upsert client args h).2 := by
  unfold Locks.upsert
  dsimp only
  split
  · exact ⟨rfl, fun _ => rfl, fun _ => rfl⟩
  · next lock hread =>
    -- the lock is read before the scope is looked at
    by_cases hfired : h.cancelled = true
    · rw [if_pos hfired]
      exact ⟨rfl, fun _ => rfl, fun _ => rfl⟩
    · rw [if_neg hfired]
      refine ⟨?_, fun hheld => (hfired hheld).elim, fun hheld => (hfired hheld).elim⟩
      split <;> split <;> rfl

/-- Whatever becomes of a lock, its buffer is all that the handle table loses. -/
theorem Locks.upsert_handles (client : String) :
    (Locks.upsert client args h).2.handles = (Locks.request args h.handles).2 := by
  unfold Locks.upsert
  dsimp only
  split
  · rfl
  · split
    · rfl
    · split <;> split <;> rfl

/-- Writing a lock back drops its handle, as a guest may. -/
theorem Locks.upsert_stores (client : String) : h.Stores (Locks.upsert client args h).2 := by
  unfold HostState.Stores
  rw [Locks.upsert_handles]
  exact Locks.request_worked h.handles

/-! ## All host functions -/

namespace HostAction

/-- Every host function obeys. -/
theorem run_obeys (a : HostAction) : h.Obeys (a.run memory args h).2.2 := by
  cases a with
  | abort layout => exact Diagnostics.abort_logs.obeys
  | trace layout => exact Diagnostics.trace_logs.obeys
  | seed => exact .refl h
  | takeToken store layout => exact (Tokens.take_permitted store).obeys
  | releaseTokens store layout => exact (Tokens.release_permitted store).obeys
  -- Registering and discarding change the table alone, and only when they succeed.
  | registerBuffer =>
    rw [run]
    split
    · next vs h' hdone =>
      obtain ⟨bytes, handle, handles, event, -, -, rfl⟩ := Buffers.register_eq_ok hdone
      exact ⟨rfl, fun _ => rfl, fun _ => rfl⟩
    · exact .refl h
  | bufferSize => exact .refl h
  | readBuffer =>
    rw [run]
    split <;> exact .refl h
  | discardBuffer =>
    rw [run]
    split
    · next h' hdone =>
      obtain ⟨handle, rfl⟩ := Buffers.drop_eq_ok hdone
      exact ⟨rfl, fun _ => rfl, fun _ => rfl⟩
    · exact .refl h
  | upsertLock client => exact Locks.upsert_obeys client
  | custom behaviour => cases behaviour <;> exact .refl h

/-- Every host function changes the table as guests may. -/
theorem run_stores (a : HostAction) : h.Stores (a.run memory args h).2.2 := by
  cases a with
  | abort layout => exact Diagnostics.abort_logs.stores
  | trace layout => exact Diagnostics.trace_logs.stores
  | seed => exact .refl h.handles
  | takeToken store layout => exact (Tokens.take_permitted store).stores
  | releaseTokens store layout => exact (Tokens.release_permitted store).stores
  -- A refused request leaves the table alone; a granted one is one request to it.
  | registerBuffer =>
    rw [run]
    split
    · next vs h' hdone =>
      obtain ⟨bytes, handle, handles, event, hstored, -, rfl⟩ := Buffers.register_eq_ok hdone
      exact .insert hstored
    · exact .refl h.handles
  | bufferSize => exact .refl h.handles
  | readBuffer =>
    rw [run]
    split <;> exact .refl h.handles
  | discardBuffer =>
    rw [run]
    split
    · next h' hdone =>
      obtain ⟨handle, rfl⟩ := Buffers.drop_eq_ok hdone
      exact .discard h.handles handle
    · exact .refl h.handles
  | upsertLock client => exact Locks.upsert_stores client
  | custom behaviour => cases behaviour <;> exact .refl h.handles

/-- A request that nothing but a fired scope keeps from a store or a client: what the guest asks
for can be read and is well-formed. -/
inductive Asks (memory : Memory) (args : List Value) (h : HostState) : HostAction → Prop where
  | take {store layout request} (hread : Tokens.request layout memory args = .ok request) :
      Asks memory args h (.takeToken store layout)
  | release {store layout scope} (hread : Tokens.scopeAt layout memory args = .ok scope) :
      Asks memory args h (.releaseTokens store layout)
  | upsert {client lock} (hread : (Locks.request args h.handles).1 = .ok lock) :
      Asks memory args h (.upsertLock client)

/-- Under a scope that has fired such a request is refused as cancelled. -/
theorem run_cancelled {a : HostAction} (hasks : a.Asks memory args h)
    (hfired : h.cancelled = true) :
    (a.run memory args h).1 = .failed Cause.cancelled := by
  cases hasks with
  | take hread => simp [run, Tokens.take, hread, hfired]
  | release hread => simp [run, Tokens.release, hread, hfired]
  | upsert hread => simp [run, Locks.upsert, hread, hfired]

end HostAction

/-- Calling a function that releases tokens is releasing them, once the arguments fit. -/
theorem HostFunction.call_releaseTokens {type : FunctionType} {store name : String}
    (hchecked : type.check name args = .ok ()) :
    HostFunction.call ⟨type, .releaseTokens store layout⟩ name args memory h =
      ((Tokens.release store layout memory args h).1, memory,
        (Tokens.release store layout memory args h).2) := by
  unfold HostFunction.call
  rw [hchecked]
  rfl

/-- Under a scope that has fired nothing a guest does reaches a store or a client. -/
theorem HostState.obeys_law : HostLaw HostState.Obeys where
  refl := .refl
  trans := .trans
  function f name args memory h := by
    unfold HostFunction.call
    split
    · exact .refl h
    · exact f.action.run_obeys
  journal hsame := ⟨rfl, fun _ => rfl, fun _ => hsame⟩

/-- A guest changes the handle table by storing and dropping buffers. -/
theorem HostState.stores_law : HostLaw HostState.Stores where
  refl h := .refl h.handles
  trans := .trans
  function f name args memory h := by
    unfold HostFunction.call
    split
    · exact .refl h.handles
    · exact f.action.run_stores
  journal _ := .refl _

end SandboxPool
