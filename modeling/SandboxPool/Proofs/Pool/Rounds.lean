import SandboxPool.Proofs.Pool.Abandonment
import SandboxPool.Proofs.Pool.Apart
import SandboxPool.Proofs.Pool.RoundTrip

/-!
# Round trips, one after another

One who has a context makes round trips with it, in the middle of everything else. `Rounds` is such
a caller at one moment, with the requests of those trips whose execution has waited in vain, for its
own call or for an earlier one. `Rounds.Sound` says which requests may be live then, and when a call
is recorded; `Rounds.Sound.kept` says that the host drops nothing else.
-/

namespace SandboxPool

namespace World

variable {w w' : World} {c : ContextId} {x : Context} {e : Execution} {table : HandleTable}

theorem table?_eq (hhere : w.contexts[c]? = some x) : w.table? c = some x.handles :=
  congrArg (Option.map Context.handles) hhere

theorem withTable_table (hhere : w.contexts[c]? = some x) :
    (w.withTable c table).table? c = some table :=
  table?_eq (withTable_contexts hhere)

/-- A change is told by what it makes of the context that is there. -/
theorem modifyContext_congr {f g : Context → Context} (hhere : w.contexts[c]? = some x)
    (hsame : f x = g x) : w.modifyContext c f = w.modifyContext c g := by
  have hcontexts : (w.modifyContext c f).contexts = (w.modifyContext c g).contexts := by
    refine Array.ext_getElem? fun d => ?_
    rw [modifyContext_contexts, modifyContext_contexts]
    by_cases hd : d = c
    · subst hd
      rw [hhere, Option.map_some, Option.map_some, hsame]
    · rw [if_neg hd, if_neg hd]
  exact congrArg (fun contexts => { w with contexts }) hcontexts

theorem modifyContext_id (w : World) (c : ContextId) : w.modifyContext c id = w := by
  have hcontexts : (w.modifyContext c id).contexts = w.contexts := by
    refine Array.ext_getElem? fun d => ?_
    rw [modifyContext_contexts, Option.map_id, id_eq, ite_self]
  exact congrArg (fun contexts => { w with contexts }) hcontexts

/-- A request is dropped exactly if no call is recorded on the context. -/
theorem dropRequest_eq (hhere : w.contexts[c]? = some x) (request : Int32) :
    w.dropRequest c request =
      if x.inFlight.isSome then w else w.withTable c (x.handles.discard request).2 := by
  unfold dropRequest
  cases hrecord : x.inFlight.isSome with
  | true =>
    rw [if_pos rfl]
    refine (modifyContext_congr hhere ?_).trans (modifyContext_id w c)
    rw [if_pos hrecord]
    rfl
  | false =>
    refine modifyContext_congr hhere ?_
    rw [if_neg (by simp [hrecord])]

/-- The call that an execution waits for goes on. -/
def waitsInVain (w : World) (e : Execution) : Bool :=
  ((w.contexts[e.context]?).bind e.awaits).any fun id => (w.ended? id).isNone

/-- An execution that ends leaves a call recorded exactly if it has waited in vain. -/
theorem Looked.record_of_done {results : Outcome (List Value)}
    (hlooked : w.Looked e x (.done results) w') (hhere : w.contexts[e.context]? = some x)
    (hfits : e.Fits x.inFlight) :
    (w'.inFlight? e.context).isSome = w.waitsInVain e := by
  unfold waitsInVain
  rw [hhere, Option.bind_some]
  -- an execution waits for the record, or for its own call, and then nothing is recorded
  have hawaited := hfits.awaits
  cases hlooked with
  | givesUp _ hmine hawaits hlive hsame _ =>
    rw [hmine, Option.none_or, hawaits] at hawaited
    rw [inFlight?_of_same hsame, inFlight?_eq hhere, ← hawaited, hawaits]
    simp [hlive]
  | refuses _ hmine hpast hsame _ =>
    rw [inFlight?_of_marked_self hsame hhere]
    cases hawaits : e.awaits x with
    | none => rfl
    | some earlier =>
      obtain ⟨r, hgone⟩ := Option.isSome_iff_exists.mp (hpast earlier hawaits)
      simp [hgone, Context.Outline.record]
  | joins _ hmine hpast hsame _ =>
    rw [hmine, Option.some_or] at hawaited
    obtain ⟨r, hgone⟩ := Option.isSome_iff_exists.mp hpast
    rw [inFlight?_of_same hsame, inFlight?_eq hhere, hfits.record_of_own hmine, hawaited]
    simp [hgone]
  | abandons _ hmine hlive hsame _ =>
    rw [hmine, Option.some_or] at hawaited
    rw [inFlight?_of_marked_self hsame hhere, hawaited]
    simp [hlive, Context.Outline.record]

end World

/-! ## Round trips -/

/-- How far a round trip is. -/
inductive Trip where
  /-- None is under way. -/
  | resting
  /-- The request is stored, and the guest has not been called yet. -/
  | sent (function : String) (request : Int32)
  /-- The guest's function is executed on the request. -/
  | executing (request : Int32) (e : Execution)
  /-- The execution has ended; `inVain` tells that it has waited in vain. -/
  | answered (request : Int32) (results : Outcome (List Value)) (inVain : Bool)
  /-- The host has let go of the request, and has still to read the response. -/
  | reading (response : Int32)

namespace Trip

/-- The request, as long as the host has not let go of it. -/
def request? : Trip → Option Int32
  | sent _ request | executing request _ | answered request _ _ => some request
  | resting | reading _ => none

/-- The execution that is under way. -/
def execution? : Trip → Option Execution
  | executing _ e => some e
  | _ => none

/-- The handle that the host drops next. -/
def drops? : Trip → Option Int32
  | answered request _ false => some request
  | reading response => some response
  | _ => none

/-- What follows a look at the execution. -/
def ofPolled (request : Int32) (inVain : Bool) : Polled → Trip
  | .done results => answered request results inVain
  | .pending e => executing request e

/-- What follows letting go of the request. -/
def ofResults : Outcome (List Value) → Trip
  | .ok [.i32 response] => reading response
  | _ => resting

variable {request : Int32} {results : Outcome (List Value)} {inVain : Bool}

@[simp] theorem execution?_ofPolled (polled : Polled) :
    (ofPolled request inVain polled).execution? = polled.rest := by
  cases polled <;> rfl

@[simp] theorem request?_ofPolled (polled : Polled) :
    (ofPolled request inVain polled).request? = some request := by
  cases polled <;> rfl

/-- A response is read exactly if the guest has returned the handle of one. -/
theorem ofResults_cases (results : Outcome (List Value)) :
    (∃ response, results = .ok [.i32 response]) ∨
      ofResults results = resting ∧
        ∀ function, ∃ failure, results.bind (World.responseHandle function) = .error failure := by
  unfold ofResults
  split
  · exact .inl ⟨_, rfl⟩
  · next hother =>
    refine .inr ⟨rfl, fun function => ?_⟩
    cases results with
    | error failure => exact ⟨failure, rfl⟩
    | ok vs =>
      show ∃ failure, World.responseHandle function vs = .error failure
      unfold World.responseHandle
      split
      · exact absurd rfl (hother _)
      · exact ⟨_, rfl⟩

@[simp] theorem execution?_ofResults : (ofResults results).execution? = none := by
  unfold ofResults
  split <;> rfl

@[simp] theorem request?_ofResults : (ofResults results).request? = none := by
  unfold ofResults
  split <;> rfl

theorem ofResults_ne_answered {results' : Outcome (List Value)} :
    ofResults results ≠ answered request results' inVain := by
  unfold ofResults
  split <;> nofun

end Trip

/-- One who makes round trips, in the middle of everything else. -/
structure Rounds where
  scene : Scene
  trip : Trip
  /-- The requests of the trips that have waited in vain. -/
  lost : List Int32

namespace Rounds

variable {q : Nat} {scope : ScopeId} {c : ContextId} {v u : Rounds}

/-- One who has made no round trip yet. -/
def start (s : Scene) : Rounds := ⟨s, .resting, []⟩

/-- The requests that the host has not dropped: that of the trip under way, and those that were
lost. -/
def requests (v : Rounds) : List Int32 := v.trip.request?.toList ++ v.lost

/-- What one who has the context `c` does next. -/
inductive Move (q : Nat) (scope : ScopeId) (c : ContextId) : Rounds → Rounds → Prop where
  /-- A round trip begins: the request is stored. -/
  | sends {v : Rounds} {Q : Type} [Message Q] {request : Q} {function e x handle handles}
      (htrip : v.trip = .resting) (hprepared : v.scene.world.prepare c function [] = .ok e)
      (hhere : v.scene.world.contexts[c]? = some x)
      (hstored : Buffers.send x.handles request = .ok (handle, handles)) :
      Move q scope c v { v with
        scene.world := v.scene.world.withTable c handles
        trip := .sent function handle }
  /-- The execution with the request begins. -/
  | calls {v : Rounds} {l r function handle e} (htrip : v.trip = .sent function handle)
      (htask : v.scene.tasks = l ++ .holding q scope c none :: r)
      (hfound : v.scene.world.prepare c function [.i32 handle] = .ok e) :
      Move q scope c v { v with
        scene.tasks := l ++ .holding q scope c (some e) :: r
        trip := .executing handle e }
  /-- It is looked at; its deadline may have passed. -/
  | looks {v : Rounds} {l r request e late polled w} (htrip : v.trip = .executing request e)
      (htask : v.scene.tasks = l ++ .holding q scope c (some e) :: r)
      (hfound : v.scene.world.pollWith (fun w _ => w) e late = (polled, w)) :
      Move q scope c v { v with
        scene := { v.scene with
          world := w
          tasks := l ++ .holding q scope c polled.rest :: r
          joined := (v.scene.world.joins e).toList ++ v.scene.joined }
        trip := .ofPolled request (v.scene.world.waitsInVain e) polled }
  /-- The host drops the request, unless a call is recorded on the context. -/
  | letsGo {v : Rounds} {request results inVain}
      (htrip : v.trip = .answered request results inVain) :
      Move q scope c v { v with
        scene.world := v.scene.world.dropRequest c request
        trip := .ofResults results
        lost := if inVain then request :: v.lost else v.lost }
  /-- It reads the response, and drops it. -/
  | reads {v : Rounds} {R : Type} [Message R] {response x} (htrip : v.trip = .reading response)
      (hhere : v.scene.world.contexts[c]? = some x) :
      Move q scope c v { v with
        scene.world := v.scene.world.withTable c (Buffers.consume R x.handles response).2
        trip := .resting }

/-- What happens next: the caller goes on, or others do something. -/
inductive Step (q : Nat) (scope : ScopeId) (c : ContextId) : Rounds → Rounds → Prop where
  | move {v u : Rounds} (hmove : Move q scope c v u) : Step q scope c v u
  | aside {v : Rounds} {t : Scene}
      (hapart : v.scene.Apart (.holding q scope c v.trip.execution?) t) :
      Step q scope c v { v with scene := t }

/-- Whole runs of round trips. -/
abbrev Steps (q : Nat) (scope : ScopeId) (c : ContextId) : Rounds → Rounds → Prop :=
  Relation.ReflTransGen (Step q scope c)

/-- What holds of one who makes round trips: only requests that have not been dropped are live, and
a call is recorded at the end of an execution exactly if it has waited in vain. -/
structure Sound (q : Nat) (scope : ScopeId) (c : ContextId) (v : Rounds) : Prop where
  started : v.scene.Started
  mine : .holding q scope c v.trip.execution? ∈ v.scene.tasks
  live : ∀ {table handle}, v.scene.world.table? c = some table → table.Sent handle →
    handle ∈ v.requests
  record : ∀ {request results inVain}, v.trip = .answered request results inVain →
    (v.scene.world.inFlight? c).isSome = inVain

variable {x : Context} {table : HandleTable} {handle : Int32}

/-- Whoever has a context may store and drop buffers. -/
theorem withTable_step {s : Scene} {execution : Option Execution}
    (hmine : .holding q scope c execution ∈ s.tasks) (hhere : s.world.contexts[c]? = some x)
    (htouched : x.Touched { x with handles := table }) :
    s.Step { s with world := s.world.withTable c table } := by
  have hstep := Scene.Step.touch hmine hhere htouched
  rwa [World.modifyContext_congr (g := fun x => { x with handles := table }) hhere rfl] at hstep

/-- A request that is let go of is dropped, or left behind with the call that is recorded. -/
theorem dropRequest_step {s : Scene} {execution : Option Execution}
    (hmine : .holding q scope c execution ∈ s.tasks) (hhere : s.world.contexts[c]? = some x)
    (request : Int32) :
    { s with world := s.world.dropRequest c request } = s ∨
      s.Step { s with world := s.world.dropRequest c request } := by
  rw [World.dropRequest_eq hhere]
  split
  · exact .inl rfl
  · exact .inr (withTable_step hmine hhere (.discard request))

/-- What the caller does is a step of the scene, or none. -/
theorem Move.scene (hmove : Move q scope c v u)
    (hmine : .holding q scope c v.trip.execution? ∈ v.scene.tasks)
    (hthere : v.scene.world.contexts[c]? = some x) :
    u.scene = v.scene ∨ v.scene.Step u.scene := by
  cases hmove with
  | sends htrip _ hhere hstored => exact .inr (withTable_step hmine hhere (.insert hstored))
  | calls _ htask hfound => exact .inr (.prepare htask hfound)
  | looks _ htask hfound => exact .inr (.poll htask hfound)
  | @letsGo request _ _ htrip => exact dropRequest_step hmine hthere request
  | reads htrip hhere => exact .inr (withTable_step hmine hhere (.discard _))

/-- It keeps the context. -/
theorem Move.mine (hmove : Move q scope c v u)
    (hmine : .holding q scope c v.trip.execution? ∈ v.scene.tasks) :
    .holding q scope c u.trip.execution? ∈ u.scene.tasks := by
  cases hmove with
  | sends htrip _ _ _ | reads htrip _ =>
    rw [htrip] at hmine
    exact hmine
  | calls _ _ _ => exact List.mem_append_right _ (.head _)
  | looks _ _ _ =>
    rw [Trip.execution?_ofPolled]
    exact List.mem_append_right _ (.head _)
  | letsGo htrip =>
    rw [htrip] at hmine
    rw [Trip.execution?_ofResults]
    exact hmine

namespace Sound

/-- The context that the caller has. -/
theorem row (h : v.Sound q scope c) : ∃ x, v.scene.world.contexts[c]? = some x := by
  obtain ⟨x, -, hhere, -⟩ := h.started.reachable.there h.mine rfl
  exact ⟨x, hhere⟩

/-- Where the table stays the same, so may the requests. -/
theorem live_kept (h : v.Sound q scope c) {w : World} {requests : List Int32}
    (hsame : w.table? c = v.scene.world.table? c) (hkept : requests = v.requests)
    (hthere : w.table? c = some table) (hsent : table.Sent handle) : handle ∈ requests := by
  rw [hkept]
  exact h.live (hsame.symm.trans hthere) hsent

/-- A request is dropped exactly if its trip has not waited in vain. -/
theorem dropRequest_eq (h : v.Sound q scope c) {request : Int32} {results : Outcome (List Value)}
    {inVain : Bool} (htrip : v.trip = .answered request results inVain)
    (hhere : v.scene.world.contexts[c]? = some x) :
    v.scene.world.dropRequest c request =
      if inVain then v.scene.world
      else v.scene.world.withTable c (x.handles.discard request).2 := by
  have hrecord := h.record htrip
  rw [World.inFlight?_eq hhere] at hrecord
  rw [World.dropRequest_eq hhere, hrecord]

/-- What is live once the request is let go was sent in vain before, or is the request itself, if it
was. -/
theorem live_letsGo (h : v.Sound q scope c) {request : Int32} {results : Outcome (List Value)}
    {inVain : Bool} (htrip : v.trip = .answered request results inVain)
    (hthere : (v.scene.world.dropRequest c request).table? c = some table)
    (hsent : table.Sent handle) : handle ∈ if inVain then request :: v.lost else v.lost := by
  obtain ⟨x, hhere⟩ := h.row
  have hrow := World.table?_eq hhere
  have hrequests : v.requests = request :: v.lost := by
    unfold Rounds.requests
    rw [htrip]
    rfl
  rw [h.dropRequest_eq htrip hhere] at hthere
  -- The request is kept when the wait was in vain, and discarded otherwise.
  cases inVain with
  | true =>
    rw [if_pos rfl, ← hrequests]
    exact h.live hthere hsent
  | false =>
    obtain rfl := Option.some.inj ((World.withTable_table hhere).symm.trans hthere)
    obtain ⟨hother, hbefore⟩ := hsent.of_discard (h.started.wellFormed hrow)
    have hmember := h.live hrow hbefore
    rw [hrequests] at hmember
    exact (List.mem_cons.mp hmember).resolve_left hother

/-- After a move, too, only requests are live. -/
theorem live_move (h : v.Sound q scope c) (hmove : Move q scope c v u)
    (hthere : u.scene.world.table? c = some table) (hsent : table.Sent handle) :
    handle ∈ u.requests := by
  cases hmove with
  | @sends Q _ _ function e x given handles htrip _ hhere hstored =>
    have hrow := World.table?_eq hhere
    obtain rfl := Option.some.inj ((World.withTable_table hhere).symm.trans hthere)
    -- what is live now is the new request, or was live before
    rcases hsent.of_insert (h.started.wellFormed hrow) hstored with rfl | hbefore
    · exact .head _
    · have hmember := h.live hrow hbefore
      unfold Rounds.requests at hmember
      rw [htrip] at hmember
      exact .tail _ hmember
  | calls htrip _ _ =>
    refine h.live_kept rfl ?_ hthere hsent
    unfold Rounds.requests
    rw [htrip]
    rfl
  | looks htrip _ hfound =>
    refine h.live_kept (congrFun (World.pollWith_table hfound) c) ?_ hthere hsent
    unfold Rounds.requests
    rw [htrip, Trip.request?_ofPolled]
    rfl
  | letsGo htrip =>
    unfold Rounds.requests
    rw [Trip.request?_ofResults]
    exact h.live_letsGo htrip hthere hsent
  | @reads R _ response x htrip hhere =>
    have hrow := World.table?_eq hhere
    obtain rfl := Option.some.inj ((World.withTable_table hhere).symm.trans hthere)
    have hmember := h.live hrow (hsent.of_discard (h.started.wellFormed hrow)).2
    unfold Rounds.requests at hmember
    rw [htrip] at hmember
    exact hmember

/-- An execution that has ended leaves a call recorded exactly if it has waited in vain. -/
theorem record_move (h : v.Sound q scope c) (hmove : Move q scope c v u) {request : Int32}
    {results : Outcome (List Value)} {inVain : Bool}
    (htrip' : u.trip = .answered request results inVain) :
    (u.scene.world.inFlight? c).isSome = inVain := by
  cases hmove with
  | sends | calls | reads => cases htrip'
  | @looks l r asked e late polled w htrip htask hfound =>
    have hmine : .holding q scope c (some e) ∈ v.scene.tasks := by simp [htask]
    obtain ⟨rfl, x, hhere, hfits, hlooked⟩ := h.started.reachable.orderly.looked hmine hfound
    cases polled with
    | pending e' => cases htrip'
    | done answer =>
      obtain ⟨-, -, rfl⟩ := Trip.answered.inj htrip'
      exact hlooked.record_of_done hhere hfits
  | letsGo _ => exact absurd htrip' Trip.ofResults_ne_answered

/-- Every move of a round trip is sound. -/
theorem move (h : v.Sound q scope c) (hmove : Move q scope c v u) : u.Sound q scope c where
  started := by
    obtain ⟨x, hhere⟩ := h.row
    rcases hmove.scene h.mine hhere with hsame | hstep
    · rw [hsame]
      exact h.started
    · exact h.started.step hstep
  mine := hmove.mine h.mine
  live := h.live_move hmove
  record := h.record_move hmove

/-- What others do stores no requests, and leaves the record alone. -/
theorem aside (h : v.Sound q scope c) {t : Scene}
    (hapart : v.scene.Apart (.holding q scope c v.trip.execution?) t) :
    Sound q scope c { v with scene := t } where
  started := h.started.step hapart.step
  mine := hapart.mem
  live := by
    intro table handle hthere hsent
    rcases hapart.table h.started.reachable rfl with hsame |
      ⟨id, before, after, -, -, hhere, hthere', hworked⟩
    · exact h.live_kept hsame rfl hthere hsent
    · obtain rfl := Option.some.inj (hthere'.symm.trans hthere)
      exact h.live hhere (hsent.of_worked (h.started.wellFormed hhere) hworked)
  record := by
    intro request results inVain htrip
    rw [hapart.record h.started.reachable rfl]
    exact h.record htrip

theorem step (h : v.Sound q scope c) (hstep : Step q scope c v u) : u.Sound q scope c := by
  cases hstep with
  | move hmove => exact h.move hmove
  | aside hapart => exact h.aside hapart

/-- So is every run of one among others. -/
theorem steps (h : v.Sound q scope c) (hrun : Steps q scope c v u) : u.Sound q scope c := by
  induction hrun with
  | refl => exact h
  | tail _ hnext ih => exact ih.step hnext

end Sound

/-- One who has just been handed a context finds no requests. -/
theorem sound_start {s : Scene} {l r : List Task} {w : World} (h : s.Started)
    (htask : s.tasks = l ++ .permitted q scope :: r)
    (hfound : s.world.handOut q scope = (.ok c, w)) :
    (start { s with world := w, tasks := l ++ .holding q scope c none :: r }).Sound q scope c where
  started := by
    have htaken : Scene.Started
        { s with world := w, tasks := l ++ [.holding q scope c none] ++ r } :=
      h.step (.take htask hfound)
    rwa [List.append_assoc] at htaken
  mine := List.mem_append_right _ (.head _)
  live := by
    intro table handle hthere hsent
    obtain ⟨x, hclean, hbare, -⟩ := h.handOut_clean hfound
    have hsame : some x.handles = some table :=
      (congrArg (Option.map Context.handles) hclean.row).symm.trans hthere
    obtain rfl := Option.some.inj hsame
    exact absurd hsent (hbare.not_sent handle)
  record := nofun

/-- The caller drops the handle that it has come to, and no other. -/
theorem Sound.spares (h : v.Sound q scope c) (hmove : Move q scope c v u) {buffer : Buffer}
    (hthere : v.scene.world.contexts[c]? = some x) (hlive : x.handles.get? handle = some buffer)
    (hspared : v.trip.drops? ≠ some handle) :
    ∃ table, u.scene.world.table? c = some table ∧ table.get? handle = some buffer := by
  have hrow := World.table?_eq hthere
  have hformed := h.started.wellFormed hrow
  have hdropped {other : Int32} (hdrops : v.trip.drops? = some other) :
      (x.handles.discard other).2.get? handle = some buffer := by
    rw [HandleTable.discard_get? hformed, if_neg, hlive]
    rintro rfl
    exact hspared hdrops
  cases hmove with
  | @sends Q _ _ function e y given handles htrip _ hhere hstored =>
    obtain rfl := Option.some.inj (hthere.symm.trans hhere)
    -- the handle of a new request was not live before
    obtain ⟨hunused, hleads⟩ := HandleTable.insert_get? hformed hstored
    refine ⟨handles, World.withTable_table hhere, ?_⟩
    rw [hleads, if_neg, hlive]
    rintro rfl
    rw [hunused] at hlive
    cases hlive
  | calls _ _ _ => exact ⟨_, hrow, hlive⟩
  | looks _ _ hfound => exact ⟨_, (congrFun (World.pollWith_table hfound) c).trans hrow, hlive⟩
  | @letsGo request results inVain htrip =>
    show ∃ table, (v.scene.world.dropRequest c request).table? c = some table ∧ _
    rw [h.dropRequest_eq htrip hthere]
    cases inVain with
    | true => exact ⟨_, hrow, hlive⟩
    | false => exact ⟨_, World.withTable_table hthere, hdropped (by rw [htrip]; rfl)⟩
  | reads htrip hhere =>
    obtain rfl := Option.some.inj (hthere.symm.trans hhere)
    exact ⟨_, World.withTable_table hhere, hdropped (by rw [htrip]; rfl)⟩

/-- At every step the host drops the handle that it has come to and no other; a guest drops what it
likes, but only as long as a call of it goes on. -/
theorem Sound.kept (h : v.Sound q scope c) (hstep : Step q scope c v u) {buffer : Buffer}
    (hthere : v.scene.world.contexts[c]? = some x) (hlive : x.handles.get? handle = some buffer)
    (hspared : v.trip.drops? ≠ some handle)
    (hquiet : ∀ id, v.scene.world.owner? id = some c → (v.scene.world.ended? id).isSome) :
    ∃ y, u.scene.world.contexts[c]? = some y ∧ y.handles.get? handle = some buffer := by
  obtain ⟨table, hrow, hlive'⟩ :
      ∃ table, u.scene.world.table? c = some table ∧ table.get? handle = some buffer := by
    cases hstep with
    | move hmove => exact h.spares hmove hthere hlive hspared
    | aside hapart =>
      rcases hapart.table h.started.reachable rfl with hsame | ⟨id, -, -, howned, hgoesOn, -⟩
      · exact ⟨_, hsame.trans (World.table?_eq hthere), hlive⟩
      · have hpast := hquiet id howned
        rw [hgoesOn] at hpast
        cases hpast
  obtain ⟨y, hthere', rfl⟩ := Option.map_eq_some_iff.mp hrow
  exact ⟨y, hthere', hlive'⟩

end Rounds
end SandboxPool
