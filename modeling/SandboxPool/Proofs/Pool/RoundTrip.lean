import SandboxPool.Pool.Handlers
import SandboxPool.Proofs.Guest.Boundary
import SandboxPool.Proofs.Pool.Driving
import SandboxPool.Proofs.Pool.Scene

/-!
# What a handler's answer becomes

A handler gets a request under a handle, does what it likes with the buffers of its context, and
returns the handle of a response. The host drops the request and then reads the response. A guest
that drops the request itself may get the same handle once more, for its response: then the host
drops the response unread, and the answer is lost. `World.round_trip` says that this is the only
way in which an answer can be lost, and what becomes of every other one.
-/

namespace SandboxPool

/-- Operations on a table that leave these bytes, without a type, under a handle. -/
def HandleTable.Leaves (ops : List HandleTable.Op) (handle : Int32) (bytes : List UInt8) : Prop :=
  ∃ before after, ops = before ++ .insert ⟨bytes, none⟩ handle :: after ∧ .discard handle ∉ after

namespace HandleTable

variable {t t' : HandleTable} {ops : List Op} {request response : Int32} {buffer : Buffer}
  {bytes : List UInt8}

/-- A buffer that was left is still there once another handle is dropped. -/
theorem Leaves.get?_discard (hleft : Leaves ops response bytes) (hrun : t.Run ops t')
    (h : t.WellFormed) (request : Int32) : (t'.discard request).2.get? response =
      if response = request then none else some ⟨bytes, none⟩ := by
  obtain ⟨before, after, rfl, hheld⟩ := hleft
  rw [discard_get? (hrun.wellFormed h), hrun.stored_get? h hheld]

/-- A request's handle is given once more only if the request was dropped. -/
theorem Leaves.request_dropped (hleft : Leaves ops request bytes) (hrun : t.Run ops t')
    (h : t.WellFormed) (hlive : (t.get? request).isSome) : .discard request ∈ ops := by
  obtain ⟨before, after, rfl, -⟩ := hleft
  exact List.mem_append_left _ (hrun.dropped_of_given h hlive)

end HandleTable

namespace Buffers

variable {R : Type} [Message R] {t : HandleTable} {handle : Int32} {bytes : List UInt8} {r : R}

/-- What a guest has stored is read without a look at its type. -/
theorem receive_of_untyped (hlive : t.get? handle = some ⟨bytes, none⟩)
    (hdecoded : Message.decode R bytes = .ok r) : receive R t handle = .ok r := by
  rw [receive_untyped (HandleTable.resolve_of_live hlive), reading, hdecoded]

end Buffers

namespace World

variable {Q R A : Type} [Message Q] [Message R] {w w' : World} {c : ContextId} {x y : Context}
  {function : String} {request : Q} {q response : Int32} {t : HandleTable}
  {ops : List HandleTable.Op}

/-- The world in which a handler begins: the context has the table with the request. -/
def withTable (w : World) (c : ContextId) (t : HandleTable) : World :=
  w.modifyContext c fun x => { x with handles := t }

/-- With the request under `q` in the table `t`, the handler does `ops` to the table, ends in time
and returns `response`. -/
def Handles (w : World) (c : ContextId) (function : String) (q : Int32) (t : HandleTable)
    (ops : List HandleTable.Op) (response : Int32) : Prop :=
  ∃ w' y,
    (w.withTable c t).drive ⟨c, ⟨c, function⟩, [.i32 q], .fresh⟩ = (.ok [.i32 response], w') ∧
    w'.contexts[c]? = some y ∧ t.Run ops y.handles

/-- What a drive comes to, and the table it leaves, tell how the handler went. -/
theorem Handles.of_drive {table : HandleTable} {driven : Outcome (List Value) × World}
    (hdrive : (w.withTable c t).drive ⟨c, ⟨c, function⟩, [.i32 q], .fresh⟩ = driven)
    (hreturned : driven.1.toOption = some [.i32 response])
    (hleft : (driven.2.contexts[c]?).map Context.handles = some table) (hrun : t.Run ops table) :
    w.Handles c function q t ops response := by
  obtain ⟨y, hrow, rfl⟩ := Option.map_eq_some_iff.mp hleft
  exact ⟨driven.2, y, hdrive.trans (Prod.ext (eq_ok_of_toOption hreturned) rfl), hrow, hrun⟩

theorem withTable_contexts (hhere : w.contexts[c]? = some x) :
    (w.withTable c t).contexts[c]? = some { x with handles := t } := by
  unfold withTable
  rw [modifyContext_contexts, if_pos rfl, hhere]
  rfl

/-- After its handler has returned, a context has no record, and its table has changed as guests
change tables. -/
theorem handler_returns (hhere : w.contexts[c]? = some x) (hrecord : x.inFlight = none)
    (hlent : ∀ d ∈ w.deferred, d.1 ≠ c) {vs : List Value}
    (hdriven : (w.withTable c t).drive ⟨c, ⟨c, function⟩, [.i32 q], .fresh⟩ = (.ok vs, w')) :
    ∃ y, w'.contexts[c]? = some y ∧ y.inFlight = none ∧ t.Worked y.handles := by
  have hthere := withTable_contexts (t := t) hhere
  have hserved := drive_served (e := ⟨c, ⟨c, function⟩, [.i32 q], .fresh⟩) hthere hrecord hlent rfl
    hdriven
  obtain ⟨y, hrow, hsame, hworked⟩ := hserved.row hthere
  exact ⟨y, hrow, hsame.trans hrecord, hworked⟩

/-- A round trip reads the response once the request is dropped. -/
theorem roundTrip_eq (hhere : w.contexts[c]? = some x) (hexported : x.guest.hasFunction function)
    (hsent : Buffers.send x.handles request = .ok (q, t))
    (hdriven : (w.withTable c t).drive ⟨c, ⟨c, function⟩, [.i32 q], .fresh⟩ =
      (.ok [.i32 response], w'))
    (hrow : w'.contexts[c]? = some y) (hrecord : y.inFlight = none) :
    (w.roundTrip R c function request).1 = Buffers.receive R (y.handles.discard q).2 response := by
  have hprepared : w.prepare c function [] = .ok ⟨c, ⟨c, function⟩, [], .fresh⟩ := by
    refine prepare_eq_ok.mpr ⟨rfl, x, hhere, ?_⟩
    unfold GuestInstance.function
    rw [if_pos hexported]
  -- the request is dropped whatever the handler did to it
  have hdropped : (w'.dropRequest c q).contexts[c]? =
      some { y with handles := (y.handles.discard q).2 } := by
    unfold dropRequest
    rw [modifyContext_contexts, if_pos rfl, hrow]
    simp only [Option.map_some, hrecord]
    rfl
  unfold roundTrip
  rw [hprepared, hhere]
  dsimp only
  rw [hsent]
  dsimp only
  rw [show (w.modifyContext c fun x => { x with handles := t }) = w.withTable c t from rfl, hdriven]
  dsimp only
  rw [hdropped]
  rfl

/-- What a host that sends `request` to a handler answers. The request gets a handle `q`; a handler
that returns a handle has done some operations to the table; and if these leave a response under
the handle, the answer is what `read` makes of it, unless the handle is `q` itself, which the
guest has dropped then: such a response counts as stale. -/
def Answers (R : Type) [Message R] (w : World) (c : ContextId) (x : Context) (function : String)
    (request : Q) (read : R → Outcome A) (answer : Outcome A) : Prop :=
  ∃ q t, Buffers.send x.handles request = .ok (q, t) ∧
    (∀ response w',
      (w.withTable c t).drive ⟨c, ⟨c, function⟩, [.i32 q], .fresh⟩ = (.ok [.i32 response], w') →
        ∃ ops, w.Handles c function q t ops response) ∧
    ∀ ops response bytes r, w.Handles c function q t ops response →
      HandleTable.Leaves ops response bytes → Message.decode R bytes = .ok r →
        (answer = if response = q then refuse (.staleHandle response) else read r) ∧
        (response = q → .discard q ∈ ops)

theorem answers_of_roundTrip (hhere : w.contexts[c]? = some x) (hrecord : x.inFlight = none)
    (hlent : ∀ d ∈ w.deferred, d.1 ≠ c) (hreachable : x.handles.Reachable)
    (hroom : x.handles.size < HandleTable.capacity) (hexported : x.guest.hasFunction function)
    (request : Q) {read : R → Outcome A} {answer : Outcome A}
    (hmeans : answer = (w.roundTrip R c function request).1.bind read) :
    w.Answers R c x function request read answer := by
  have hformed := hreachable.wellFormed
  obtain ⟨q, t, hsent⟩ := HandleTable.insert_of_room hformed hroom
    ⟨Message.encode request, some (Message.typeName Q)⟩
  refine ⟨q, t, hsent, fun response w' hdriven => ?_, ?_⟩
  · obtain ⟨y, hrow, -, ops, hrun, -⟩ := handler_returns hhere hrecord hlent hdriven
    exact ⟨ops, w', y, hdriven, hrow, hrun⟩
  · rintro ops response bytes r ⟨w', y, hdriven, hrow, hrun⟩ hleft hdecoded
    obtain ⟨z, hrow', hrecord', -⟩ := handler_returns hhere hrecord hlent hdriven
    obtain rfl : z = y := by
      rw [hrow] at hrow'
      exact (Option.some.inj hrow').symm
    have hformed' := HandleTable.insert_wellFormed hformed hsent
    -- what the guest has left is under its handle unless the host drops that very handle
    have hleads := hleft.get?_discard hrun hformed' q
    rw [hmeans, roundTrip_eq hhere hexported hsent hdriven hrow hrecord']
    constructor
    · by_cases hsame : response = q
      · rw [if_pos hsame] at hleads ⊢
        rw [Buffers.receive_dead (HandleTable.resolve_of_dead hleads)]
        rfl
      · rw [if_neg hsame] at hleads ⊢
        rw [Buffers.receive_of_untyped hleads hdecoded]
        rfl
    · rintro rfl
      refine hleft.request_dropped hrun hformed' ?_
      rw [(HandleTable.insert_get? hformed hsent).2, if_pos rfl]
      rfl

/-- Let a caller have a context on which no abandoned call is recorded, with room for one more
buffer. An event's answer is the event of the response, or the failure it tells of; and headers'
answer is the headers of the response, or its failure: for every guest that exports the handler,
whatever it stores and drops before it returns a response that it has not dropped, unless it
returns the response under the request's own handle, which it has dropped and got again. -/
theorem round_trip (hhere : w.contexts[c]? = some x) (hrecord : x.inFlight = none)
    (hlent : ∀ d ∈ w.deferred, d.1 ≠ c) (hreachable : x.handles.Reachable)
    (hroom : x.handles.size < HandleTable.capacity) :
    (∀ event, x.guest.hasFunction Capability.handleEventExport →
      w.Answers EventResponse c x Capability.handleEventExport (⟨some event⟩ : EventRequest)
        (fun r => if r.success then .ok r.event
          else refuse (.callFailed Capability.handleEventExport r.error))
        (w.handleEvent c event).1) ∧
    ∀ headers, x.guest.hasFunction Capability.rewriteHeadersExport →
      w.Answers HeadersResponse c x Capability.rewriteHeadersExport (⟨headers⟩ : HeadersRequest)
        (fun r => if r.success then .ok r.headers
          else refuse (.callFailed Capability.rewriteHeadersExport r.error))
        (w.rewriteHeaders c headers).1 := by
  constructor
  · intro event hexported
    exact answers_of_roundTrip hhere hrecord hlent hreachable hroom hexported _ rfl
  · intro headers hexported
    refine answers_of_roundTrip hhere hrecord hlent hreachable hroom hexported _ ?_
    unfold rewriteHeaders
    simp only [hhere, hexported]
    rfl

/-! ## A response under the request's handle -/

/-- A memory with a response at address 16 that says yes and no more. -/
def consent : Memory := (Memory.ofPages 1).setAll 16 [8, 1]

/-- Registers the response and returns its handle. -/
def respond : Script := [
  .perform ⟨.callI32 "interop" "registerBuffer" [.value (.i32 16), .value (.i32 2)], some "h",
    true, false⟩,
  .returns [.var "h" 0]]

/-- Drops the request before that. -/
def dropAndRespond : Script :=
  .perform ⟨.call "interop" "discardBuffer" [.arg 0], none, true, false⟩ :: respond

/-- A pool whose guest handles events by a script. -/
def ofHandler (handler : Script) : World :=
  .ofGuest
    (.script ⟨"guest", some 1, [("interop", "discardBuffer"), ("interop", "registerBuffer")],
      [("handleEvent", handler)]⟩ (some ⟨consent, 24⟩) ⟨[
        ⟨"interop", "discardBuffer", ⟨⟨[.i32], []⟩, .discardBuffer⟩⟩,
        ⟨"interop", "registerBuffer", ⟨⟨[.i32, .i32], [.i32]⟩, .registerBuffer⟩⟩]⟩) default

/-- The request with an empty event, in an empty table. -/
def requested : Buffer :=
  ⟨Message.encode (⟨some default⟩ : EventRequest), some (Message.typeName EventRequest)⟩

theorem consent_decoded : Message.decode EventResponse [8, 1] = .ok ⟨true, "", none⟩ :=
  eq_ok_of_toOption (by decide +kernel)

/-- A response that a guest has registered and not dropped can be lost: it is not so that every
event has the answer that the guest's response gives it. -/
theorem response_lost : ¬ ∀ {w : World} {c : ContextId} {x : Context} {event : Event}
    {q response : Int32} {t : HandleTable} {ops : List HandleTable.Op} {bytes : List UInt8}
    {r : EventResponse}, w.contexts[c]? = some x → x.inFlight = none →
    w.hasFired x.scope = false → (∀ d ∈ w.deferred, d.1 ≠ c) → x.handles.Reachable →
    x.handles.size < HandleTable.capacity →
    x.guest.hasFunction Capability.handleEventExport →
    Buffers.send x.handles (⟨some event⟩ : EventRequest) = .ok (q, t) →
    w.Handles c Capability.handleEventExport q t ops response →
    HandleTable.Leaves ops response bytes → Message.decode EventResponse bytes = .ok r →
    r.success = true → (w.handleEvent c event).1 = .ok r.event := by
  intro hclaim
  have hdropped : HandleTable.Run ⟨1, #[some requested], []⟩
      ([.discard 65537] ++ .insert ⟨[8, 1], none⟩ 65537 :: []) ⟨1, #[some ⟨[8, 1], none⟩], []⟩ :=
    .discard (.insert rfl (.nil _))
  have hhandles : (ofHandler dropAndRespond).Handles 0 Capability.handleEventExport 65537
      ⟨1, #[some requested], []⟩ _ 65537 :=
    .of_drive rfl (by decide +kernel) (by decide +kernel) hdropped
  -- the host drops the request's handle, which is the response's by now
  have hlost : ((ofHandler dropAndRespond).handleEvent 0 default).1.toOption = none := by
    decide +kernel
  have hleft : HandleTable.Leaves ([.discard 65537] ++ .insert ⟨[8, 1], none⟩ 65537 :: [])
      65537 [8, 1] := ⟨_, _, rfl, List.not_mem_nil⟩
  have hanswer : ((ofHandler dropAndRespond).handleEvent 0 default).1 = .ok none :=
    hclaim (w := ofHandler dropAndRespond) rfl rfl rfl nofun .empty (by decide) rfl rfl
    hhandles hleft
      consent_decoded rfl
  rw [hanswer] at hlost
  cases hlost

/-- A guest that leaves the request alone is answered. -/
theorem round_trip_consent : ((ofHandler respond).handleEvent 0 default).1 = .ok none := by
  -- The guest discards nothing and registers its answer beside the request.
  have hstored : HandleTable.Run ⟨1, #[some requested], []⟩
      ([] ++ .insert ⟨[8, 1], none⟩ 65538 :: [])
      ⟨1, #[some requested, some ⟨[8, 1], none⟩], []⟩ := .insert rfl (.nil _)
  have hhandles : (ofHandler respond).Handles 0 Capability.handleEventExport 65537
      ⟨1, #[some requested], []⟩ _ 65538 :=
    .of_drive rfl (by decide +kernel) (by decide +kernel) hstored
  obtain ⟨hevents, -⟩ := round_trip (w := ofHandler respond) (c := 0) rfl rfl nofun .empty
    (by decide)
  obtain ⟨q, t, hsent, -, hanswers⟩ := hevents default rfl
  have hfirst : Buffers.send (M := EventRequest) HandleTable.empty ⟨some default⟩ =
      .ok (65537, ⟨1, #[some requested], []⟩) := rfl
  obtain ⟨rfl, rfl⟩ := Prod.mk.inj (Except.ok.inj (hfirst.symm.trans hsent))
  obtain ⟨hanswer, -⟩ := hanswers _ 65538 [8, 1] _ hhandles ⟨_, _, rfl, List.not_mem_nil⟩
    consent_decoded
  rw [hanswer, if_neg (by decide)]
  rfl

end World
end SandboxPool
