import SandboxPool.Host.Capability
import SandboxPool.Proofs.Guest.Boundary

/-!
# What becomes of a lock

A guest asks for a lock to be stored by the handle of a buffer. The handle is looked at first, then
the type of the buffer, its bytes, the rules for locks and the caller's scope (`Locks.Refused` says
what each of them may find), and only then a client gets the lock. Whichever of them ends the
request, the handle is gone afterwards, and the client has been given a lock only if it got that
far.
-/

namespace SandboxPool

/-! ## Clients by name -/

/-- A client that answers at once, whatever it is given. -/
def LockClient.Prompt (c : LockClient) : Prop := ∀ lock, ∃ result, (c.upsert lock).1 = .done result

/-- A client that answers at once keeps what it is given, or refuses everything. -/
theorem LockClient.Prompt.kind {c : LockClient} (hprompt : c.Prompt) :
    (∃ upserts, c = .dryRun upserts) ∨ ∃ fault, c = .refusing fault := by
  cases c with
  | dryRun upserts => exact .inl ⟨upserts, rfl⟩
  | refusing fault => exact .inr ⟨fault, rfl⟩
  | silent gate =>
    obtain ⟨result, hanswer⟩ := hprompt default
    cases hanswer

namespace Services

variable {α : Type} {name other : String} {a : α}

/-- A value that is replaced is found as the new one, if it was there. -/
theorem find?_replace_self (entries : List (String × α)) :
    find? name (replace name a entries) = (find? name entries).map fun _ => a := by
  unfold find? replace
  induction entries with
  | nil => rfl
  | cons entry entries ih =>
    rw [List.map_cons]
    by_cases hsame : entry.1 = name
    · rw [if_pos hsame, List.lookup_cons, List.lookup_cons, hsame, beq_self_eq_true]
      rfl
    · have hapart : (name == entry.1) = false := beq_false_of_ne (Ne.symm hsame)
      rw [if_neg hsame, List.lookup_cons, List.lookup_cons, hapart]
      exact ih

/-- Other values are found as before. -/
theorem find?_replace_other (hne : other ≠ name) (entries : List (String × α)) :
    find? other (replace name a entries) = find? other entries := by
  unfold find? replace
  induction entries with
  | nil => rfl
  | cons entry entries ih =>
    rw [List.map_cons, List.lookup_cons, List.lookup_cons, ih]
    by_cases hsame : entry.1 = name
    · have hapart : (other == name) = false := beq_false_of_ne hne
      rw [if_pos hsame, hsame, hapart]
    · rw [if_neg hsame]

/-- What a client becomes when it is given a lock is found under its name. -/
theorem client_setClient_upsert (s : Services) (name : String) (lock : Lock) :
    (s.setClient name ((s.client name).upsert lock).2).client name =
      ((s.client name).upsert lock).2 := by
  unfold client setClient
  dsimp only
  rw [find?_replace_self]
  cases find? name s.clients with
  -- one that nobody set up stays as it is
  | none => rfl
  | some c => rfl

/-- The other clients are left as they were. -/
theorem client_setClient_other (hne : other ≠ name) (s : Services) (c : LockClient) :
    (s.setClient name c).client other = s.client other := by
  unfold client setClient
  dsimp only
  rw [find?_replace_other hne]

end Services

namespace HostState

variable {h : HostState} {client : String}

/-- The locks that a client was given, the oldest first. One that keeps none leaves them to the
notes. -/
def given (h : HostState) (client : String) : List Lock :=
  match h.services.client client with
  | .dryRun upserts => upserts
  | _ => h.journal.sent.reverse

/-- A dry run has been given the locks that it keeps. -/
theorem given_dryRun {upserts : List Lock} (hkind : h.services.client client = .dryRun upserts) :
    h.given client = upserts := by
  unfold given
  rw [hkind]

/-- What a refusing client was given is in the journal, the latest first. -/
theorem given_refusing {fault : ApiFault} (hkind : h.services.client client = .refusing fault) :
    h.given client = h.journal.sent.reverse := by
  unfold given
  rw [hkind]

end HostState

/-! ## The buffer under a handle -/

namespace HandleTable

/-- Under a handle are bytes that may be read as a lock. -/
def HasLockBytes (t : HandleTable) (handle : Int32) (bytes : List UInt8) : Prop :=
  t.get? handle = some ⟨bytes, none⟩ ∨ t.get? handle = some ⟨bytes, some "types.LockV2"⟩

/-- Under a handle is a lock that breaks no rule; `lock` is that lock with what it left empty
filled in. -/
def HasLock (t : HandleTable) (handle : Int32) (lock : Lock) : Prop :=
  ∃ bytes raw, t.HasLockBytes handle bytes ∧ Message.decode Lock bytes = .ok raw ∧
    raw.complete = (.ok (), lock)

end HandleTable

namespace Locks

/-- Why a request fails before a client sees it: the first of these that applies, with the caller's
scope fired or not. -/
inductive Refused (t : HandleTable) (handle : Int32) (fired : Bool) : Failure → Prop where
  | stale (hdead : t.get? handle = none) : Refused t handle fired (Cause.staleHandle handle)
  | mistyped {bytes actual} (hlive : t.get? handle = some ⟨bytes, some actual⟩)
      (hwrong : actual ≠ "types.LockV2") :
      Refused t handle fired
        (Cause.badArgument "handle" ("holds a " ++ actual ++ ", expected a " ++ "types.LockV2"))
  | undecodable {bytes problem} (hthere : t.HasLockBytes handle bytes)
      (hbroken : Message.decode Lock bytes = .error problem) :
      Refused t handle fired ⟨.undecodable "types.LockV2" problem.message, [problem.message]⟩
  | invalid {bytes raw e} (hthere : t.HasLockBytes handle bytes)
      (hdecoded : Message.decode Lock bytes = .ok raw) (hbroken : raw.complete.1 = .error e) :
      Refused t handle fired e
  | cancelled {lock} (hthere : t.HasLock handle lock) (hheld : fired = true) :
      Refused t handle fired Cause.cancelled

variable {t : HandleTable} {handle : Int32} {bytes : List UInt8} {lock : Lock} {failure : Failure}

/-- Either there is a reason to fail, or there is a lock, and the scope has not fired. -/
theorem refused_or_lock (t : HandleTable) (handle : Int32) (fired : Bool) :
    (∃ failure, Refused t handle fired failure) ∨
      ∃ lock, t.HasLock handle lock ∧ fired = false := by
  -- Untyped buffers and buffers of the right type are read in the same way.
  have hbytesDecide {bytes} (hthere : t.HasLockBytes handle bytes) :
      (∃ failure, Refused t handle fired failure) ∨
        ∃ lock, t.HasLock handle lock ∧ fired = false := by
    cases hdecoded : Message.decode Lock bytes with
    | error problem => exact .inl ⟨_, .undecodable hthere hdecoded⟩
    | ok raw =>
      rcases hcompleted : raw.complete with ⟨e | u, lock⟩
      · exact .inl ⟨e, .invalid hthere hdecoded (congrArg Prod.fst hcompleted)⟩
      · have hproper : t.HasLock handle lock := ⟨bytes, raw, hthere, hdecoded, hcompleted⟩
        cases fired with
        | true => exact .inl ⟨_, .cancelled hproper rfl⟩
        | false => exact .inr ⟨lock, hproper, rfl⟩
  cases hlive : t.get? handle with
  | none => exact .inl ⟨_, .stale hlive⟩
  | some buffer =>
    obtain ⟨bytes, type⟩ := buffer
    cases type with
    | none => exact hbytesDecide (.inl hlive)
    | some actual =>
      by_cases hright : actual = "types.LockV2"
      · subst hright
        exact hbytesDecide (.inr hlive)
      · exact .inl ⟨_, .mistyped hlive hright⟩

/-! ## Reading the request -/

/-- A lock, or why there is none, with what it left empty filled in. -/
def completing (received : Outcome Lock) : Outcome Lock :=
  received.bind fun raw => raw.complete.1.map fun _ => raw.complete.2

theorem request_eq (t : HandleTable) (handle : Int32) : request [.i32 handle] t =
    (completing (Buffers.receive Lock t handle), (t.discard handle).2) :=
  rfl

/-- Once the type of the buffer is right, its bytes decide. -/
theorem receive_of_bytes (hthere : t.HasLockBytes handle bytes) :
    Buffers.receive Lock t handle = Buffers.reading Lock bytes := by
  rcases hthere with hlive | hlive
  · exact Buffers.receive_untyped (HandleTable.resolve_of_live hlive)
  · exact Buffers.receive_typed (HandleTable.resolve_of_live hlive)

/-- A handle under which there is a lock yields that lock completed, and is dropped. -/
theorem request_of_lock (hthere : t.HasLock handle lock) :
    request [.i32 handle] t = (.ok lock, (t.discard handle).2) := by
  obtain ⟨bytes, raw, hthere, hdecoded, hcompleted⟩ := hthere
  rw [request_eq, receive_of_bytes hthere, Buffers.reading, hdecoded]
  show (raw.complete.1.map fun _ => raw.complete.2, _) = _
  rw [hcompleted]
  rfl

/-- A request fails in the order of the reasons, the scope apart. -/
theorem request_of_refused (hrefused : Refused t handle false failure) :
    request [.i32 handle] t = (.error failure, (t.discard handle).2) := by
  rw [request_eq]
  cases hrefused with
  | stale hdead =>
    rw [Buffers.receive_dead (HandleTable.resolve_of_dead hdead)]
    rfl
  | mistyped hlive hwrong =>
    rw [Buffers.receive_other (HandleTable.resolve_of_live hlive) hwrong]
    rfl
  | undecodable hthere hbroken =>
    rw [receive_of_bytes hthere, Buffers.reading, hbroken]
    rfl
  | invalid hthere hdecoded hbroken =>
    rw [receive_of_bytes hthere, Buffers.reading, hdecoded]
    show (Except.map _ _, _) = _
    rw [hbroken]
    rfl
  | cancelled hthere hheld => cases hheld

/-! ## Carrying it out -/

variable {client : String} {h : HostState}

/-- A request that is refused costs its buffer and does nothing else. -/
theorem upsert_of_refused (hrefused : Refused h.handles handle h.cancelled failure) :
    upsert client [.i32 handle] h =
      (.failed failure, { h with handles := (h.handles.discard handle).2 }) := by
  have hearly (hrefused : Refused h.handles handle false failure) : upsert client [.i32 handle] h =
      (.failed failure, { h with handles := (h.handles.discard handle).2 }) := by
    unfold upsert
    rw [request_of_refused hrefused]
  cases hrefused with
  | stale hdead => exact hearly (.stale hdead)
  | mistyped hlive hwrong => exact hearly (.mistyped hlive hwrong)
  | undecodable hthere hbroken => exact hearly (.undecodable hthere hbroken)
  | invalid hthere hdecoded hbroken => exact hearly (.invalid hthere hdecoded hbroken)
  | cancelled hthere hheld =>
    unfold upsert
    rw [request_of_lock hthere]
    dsimp only
    rw [if_pos hheld]

/-- What comes of a request whose lock is handed to a client. -/
structure Handed (client : String) (h : HostState) (lock : Lock) (reply : HostReply)
    (after : HostState) : Prop where
  /-- The reply is what the client says. -/
  reply : ∃ result, ((h.services.client client).upsert lock).1 = .done result ∧
    reply = match result with
      | .ok () => .done (.ok [])
      | .error fault => .failed fault.toFailure
  /-- The client was given one more lock. -/
  given : after.given client = h.given client ++ [lock]
  others : after.services.stores = h.services.stores ∧
    ∀ other, other ≠ client → after.services.client other = h.services.client other

/-- Such a lock is handed to a prompt client unless the scope has fired. -/
theorem upsert_of_lock (hprompt : (h.services.client client).Prompt)
    (hthere : h.handles.HasLock handle lock) (hunfired : h.cancelled = false) :
    Handed client h lock (upsert client [.i32 handle] h).1 (upsert client [.i32 handle] h).2 := by
  have hstored := h.services.client_setClient_upsert client lock
  have hspared (other : String) (hne : other ≠ client) := Services.client_setClient_other hne
    h.services ((h.services.client client).upsert lock).2
  have hheld : ¬ h.cancelled = true := by
    rw [hunfired]
    exact Bool.false_ne_true
  unfold upsert
  rw [request_of_lock hthere]
  dsimp only
  rw [if_neg hheld]
  -- A prompt client either writes the lock down or refuses it with a fault of its own.
  rcases hprompt.kind with ⟨upserts, hkind⟩ | ⟨fault, hkind⟩
  · rw [hkind] at hstored hspared ⊢
    refine ⟨⟨.ok (), congrArg (fun c => (c.upsert lock).1) hkind, rfl⟩, ?_, rfl, hspared⟩
    rw [HostState.given_dryRun hkind]
    exact HostState.given_dryRun hstored
  · rw [hkind] at hstored hspared ⊢
    refine ⟨⟨.error fault, congrArg (fun c => (c.upsert lock).1) hkind, rfl⟩, ?_, rfl, hspared⟩
    rw [HostState.given_refusing hkind, ← List.reverse_cons]
    exact HostState.given_refusing hstored

/-! ## The outcomes of a call -/

/-- How a call that asks for a lock to be stored ends. -/
structure Settled (client : String) (handle : Int32) (h : HostState) (reply : HostReply)
    (after : HostState) : Prop where
  /-- It succeeds or fails; it does not panic or wait. -/
  ends : reply = .done (.ok []) ∨ ∃ failure, reply = .failed failure
  /-- It succeeds just when there is a lock, the scope has not fired and the client accepts. -/
  succeeds : reply = .done (.ok []) ↔ ∃ lock, h.handles.HasLock handle lock ∧
    h.cancelled = false ∧ ((h.services.client client).upsert lock).1 = .done (.ok ())
  /-- It fails for the first reason that there is, the client's own being the last. -/
  fails : ∀ failure, reply = .failed failure ↔ Refused h.handles handle h.cancelled failure ∨
    ∃ lock fault, h.handles.HasLock handle lock ∧ h.cancelled = false ∧
      ((h.services.client client).upsert lock).1 = .done (.error fault) ∧
      failure = fault.toFailure
  /-- A lock under a scope that has not fired has been given to the client after all earlier
  ones. -/
  given : ∀ lock, h.handles.HasLock handle lock → h.cancelled = false →
    after.given client = h.given client ++ [lock]
  /-- A request that is refused has cost its buffer and done nothing else. -/
  kept : ∀ failure, Refused h.handles handle h.cancelled failure →
    after = { h with handles := (h.handles.discard handle).2 }
  others : after.services.stores = h.services.stores ∧
    ∀ other, other ≠ client → after.services.client other = h.services.client other
  /-- The handle is dropped, and no other. -/
  handles : ∀ other, after.handles.get? other =
    if other = handle then none else h.handles.get? other

/-- What a call answers and leaves is settled by its handle, the client and the scope. -/
theorem upsert_settled (hreachable : h.handles.Reachable)
    (hprompt : (h.services.client client).Prompt) (handle : Int32) :
    Settled client handle h (upsert client [.i32 handle] h).1
      (upsert client [.i32 handle] h).2 where
  ends := by
    -- Every field asks the same question first: is there a lock, or a reason to refuse?
    rcases refused_or_lock h.handles handle h.cancelled with
      ⟨failure, hrefused⟩ | ⟨lock, hthere, hunfired⟩
    · rw [upsert_of_refused hrefused]
      exact .inr ⟨failure, rfl⟩
    · obtain ⟨result, -, hreply⟩ := (upsert_of_lock hprompt hthere hunfired).reply
      rw [hreply]
      cases result with
      | ok u => exact .inl rfl
      | error fault => exact .inr ⟨fault.toFailure, rfl⟩
  succeeds := by
    constructor
    · intro hsuccess
      rcases refused_or_lock h.handles handle h.cancelled with
        ⟨failure, hrefused⟩ | ⟨lock, hthere, hunfired⟩
      · rw [upsert_of_refused hrefused] at hsuccess
        cases hsuccess
      · obtain ⟨result, hanswer, hreply⟩ := (upsert_of_lock hprompt hthere hunfired).reply
        rw [hreply] at hsuccess
        cases result with
        | ok u => exact ⟨lock, hthere, hunfired, hanswer⟩
        | error fault => cases hsuccess
    · intro ⟨lock, hthere, hunfired, haccepted⟩
      obtain ⟨result, hanswer, hreply⟩ := (upsert_of_lock hprompt hthere hunfired).reply
      cases haccepted.symm.trans hanswer
      exact hreply
  fails failure := by
    constructor
    · intro hfailed
      rcases refused_or_lock h.handles handle h.cancelled with
        ⟨failure', hrefused⟩ | ⟨lock, hthere, hunfired⟩
      · rw [upsert_of_refused hrefused] at hfailed
        cases hfailed
        exact .inl hrefused
      · obtain ⟨result, hanswer, hreply⟩ := (upsert_of_lock hprompt hthere hunfired).reply
        rw [hreply] at hfailed
        cases result with
        | ok u => cases hfailed
        | error fault =>
          cases hfailed
          exact .inr ⟨lock, fault, hthere, hunfired, hanswer, rfl⟩
    · intro hreason
      rcases hreason with hrefused | ⟨lock, fault, hthere, hunfired, hrejected, rfl⟩
      · rw [upsert_of_refused hrefused]
      · obtain ⟨result, hanswer, hreply⟩ := (upsert_of_lock hprompt hthere hunfired).reply
        cases hrejected.symm.trans hanswer
        exact hreply
  given _ hthere hunfired := (upsert_of_lock hprompt hthere hunfired).given
  kept _ hrefused := congrArg Prod.snd (upsert_of_refused hrefused)
  others := by
    rcases refused_or_lock h.handles handle h.cancelled with
      ⟨failure, hrefused⟩ | ⟨lock, hthere, hunfired⟩
    · rw [upsert_of_refused hrefused]
      exact ⟨rfl, fun _ _ => rfl⟩
    · exact (upsert_of_lock hprompt hthere hunfired).others
  handles other := by
    rw [upsert_handles]
    exact HandleTable.discard_get? hreachable.wellFormed handle other

/-- Let a guest call the function that stores locks, with any handle, by any table, with the
caller's scope fired or not, and with a client that answers at once. The call succeeds just when
the handle is live, its buffer is untyped or a lock's, its bytes are those of a lock that breaks no
rule, the scope has not fired and the client accepts; the client has then been given one more lock,
with what was left empty filled in. Otherwise it fails for the first of these that does not hold
(`Locks.Refused`, or the client's own fault), and a client that was not asked was given nothing. The
handle is dropped either way, and the guest's memory is left alone. -/
theorem upsertLock_settled {f : HostFunction}
    (hdefined : ("api", "upsertLock", f) ∈ (Capability.lockApi client).functions)
    (hreachable : h.handles.Reachable) (hprompt : (h.services.client client).Prompt)
    (name : String) (handle : Int32) (memory : Memory) :
    ∃ reply after, f.call name [.i32 handle] memory h = (reply, memory, after) ∧
      Settled client handle h reply after := by
  obtain rfl : f = ⟨⟨[.i32], []⟩, .upsertLock client⟩ := by
    have hsame := List.mem_singleton.mp hdefined
    exact congrArg (fun e => e.2.2) hsame
  exact ⟨_, _, rfl, upsert_settled hreachable hprompt handle⟩

/-- A host with a lock that names a user and has a name, and nothing else, in one buffer. -/
def withLock : HostState where
  slot := 0
  handles := ⟨1, #[some ⟨[34, 3, 10, 1, 97, 42, 5, 10, 3, 10, 1, 98], none⟩], []⟩
  cancelled := false
  services := ⟨[], [("client", .dryRun [])], default⟩
  journal := .empty

/-- That lock with its kind, its version and its namespace. -/
def plainLock : Lock :=
  ⟨"lock", "", "v2", some ⟨"a", "default", "", .empty⟩,
    some ⟨some ⟨"b", "", "", "", "", "", ""⟩, "", 0⟩⟩

theorem withLock_hasLock : withLock.handles.HasLock 65537 plainLock := by
  refine ⟨_, ⟨"", "", "", some ⟨"a", "", "", .empty⟩,
    some ⟨some ⟨"b", "", "", "", "", "", ""⟩, "", 0⟩⟩, .inl rfl, ?_, by decide⟩
  exact eq_ok_of_toOption (by decide +kernel)

theorem upsertLock_settled_plain : ∃ after : HostState,
    (HostFunction.call ⟨⟨[.i32], []⟩, .upsertLock "client"⟩ "api.upsertLock" [.i32 65537]
      (.ofPages 1) withLock).1 = .done (.ok []) ∧
    (HostFunction.call ⟨⟨[.i32], []⟩, .upsertLock "client"⟩ "api.upsertLock" [.i32 65537]
      (.ofPages 1) withLock).2.2 = after ∧
    after.given "client" = [plainLock] ∧ after.handles.get? 65537 = none := by
  have hreachable : withLock.handles.Reachable := .insert .empty rfl
  have hprompt : (withLock.services.client "client").Prompt := fun lock => ⟨.ok (), rfl⟩
  obtain ⟨reply, after, hcalled, hsettled⟩ := upsertLock_settled (.head _) hreachable hprompt
    "api.upsertLock" 65537 (.ofPages 1)
  have hsuccess := hsettled.succeeds.mpr ⟨plainLock, withLock_hasLock, rfl, rfl⟩
  rw [hcalled]
  refine ⟨after, hsuccess, rfl, hsettled.given plainLock withLock_hasLock rfl, ?_⟩
  rw [hsettled.handles, if_pos rfl]

end Locks
end SandboxPool
