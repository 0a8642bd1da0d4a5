import SandboxPool.Program.Run
import SandboxPool.Proofs.Pool.Callbacks
import SandboxPool.Proofs.Pool.Closing

/-!
# The program and its callers

The program sends its callers off, each under a scope of its own, and joins them as they come to
their end. `Hosting` is the program at one moment with the callers that are under way, and
`Hosting.Step` says that anything may happen next: any caller makes its next move (`Stage.Move`),
any guest call goes on, any caller that has come to its end is joined. What holds of every run
holds for every order in which the callers end and are joined. It is collected in
`Hosting.Lawful`, an invariant of the steps, and in `Hosting.Runs.produced`, which looks back to
the moment at which the failure arose that the program reports.
-/

namespace SandboxPool

/-! ## What a pool tells its callers -/

/-- What callers find out of a pool: whether it is closed, and its permits. -/
structure Front where
  closed : Bool
  permits : Permits

/-- The pool takes callers, nobody stands in line, and so many permits are free. -/
structure Front.Spares (f : Front) (n : Nat) : Prop where
  opened : f.closed = false
  live : f.permits.closed = false
  line : f.permits.line = []
  free : n ≤ f.permits.free

namespace Pool

/-- What callers find out of a pool. -/
def front (p : Pool) : Front := ⟨p.closed, p.permits⟩

variable {p p' : Pool} {c : ContextId} {n : Nat}

/-- Callers do not find out which contexts are idle. -/
theorem takeIdle_front {taken : Outcome ContextId} (hfound : p.takeIdle = (taken, p')) :
    p'.front = p.front := by
  obtain ⟨idle, rfl⟩ := takeIdle_queue hfound
  rfl

theorem pushIdle_front {got : Returned} (hfound : p.pushIdle c = (got, p')) :
    p'.front = p.front := by
  obtain ⟨idle, rfl⟩ := pushIdle_queue hfound
  rfl

/-- One who asks while a permit is free gets it. -/
theorem request_spares {v : Waiter} {got : PermitAnswer} (h : p.front.Spares (n + 1))
    (hfound : p.request v = (got, p')) : got = .given ∧ p'.front.Spares n := by
  have hfree : 0 < p.permits.free := Nat.zero_lt_of_lt h.free
  have hopened : ¬ p.closed = true := by
    rw [show p.closed = false from h.opened]
    decide
  have hlive : ¬ p.permits.closed = true := by
    rw [show p.permits.closed = false from h.live]
    decide
  unfold request Permits.request at hfound
  rw [if_neg hopened, if_neg hlive, if_pos hfree] at hfound
  obtain ⟨rfl, rfl⟩ := Prod.mk.inj hfound
  exact ⟨rfl, h.opened, h.live, h.line, Nat.le_sub_one_of_lt h.free⟩

/-- Where nobody stands in line, a permit that comes free stays free. -/
theorem addPermit_spares (h : p.front.Spares n) : p.addPermit.front.Spares n := by
  have hline : p.permits.line = [] := h.line
  unfold addPermit Permits.add
  rw [hline]
  exact ⟨h.opened, h.live, rfl, Nat.le_succ_of_le h.free⟩

end Pool

namespace World

variable {w w' w'' : World} {q place n : Nat} {scope : ScopeId} {c : ContextId}

/-- What callers find out of the pool at a place. -/
def front? (w : World) (q : Nat) : Option Front := (w.pools[q]?).map Pool.front

/-- The pool at a place takes callers, and has so many permits for those who have not asked. -/
def Spares (w : World) (q n : Nat) : Prop := ∃ f, w.front? q = some f ∧ f.Spares n

/-- Where there is a permit for many, there is one for fewer. -/
theorem Spares.mono {m : Nat} (h : w.Spares q n) (hfewer : m ≤ n) : w.Spares q m := by
  obtain ⟨f, hfront, hopened, hlive, hline, hfree⟩ := h
  exact ⟨f, hfront, hopened, hlive, hline, hfewer.trans hfree⟩

theorem closed?_eq_front (w : World) (q : Nat) : w.closed? q = (w.front? q).map Front.closed := by
  unfold closed? standing? front?
  rw [Option.map_map, Option.map_map]
  rfl

/-- Of what happens next, the callers of a pool notice nothing but that more permits are free: no
scope fires, and the pool is not closed. -/
structure Kept (q : Nat) (w w' : World) : Prop where
  fired : w'.fired = w.fired
  closed : w'.closed? q = w.closed? q
  spares : ∀ {n}, w.Spares q n → w'.Spares q n

namespace Kept

/-- Where no scope fires, it is enough that the pool shows the same. -/
theorem of_front (hfired : w'.fired = w.fired) (hfront : w'.front? q = w.front? q) :
    w.Kept q w' where
  fired := hfired
  closed := by rw [closed?_eq_front, closed?_eq_front, hfront]
  spares h := by
    unfold Spares
    rw [hfront]
    exact h

theorem refl (q : Nat) (w : World) : w.Kept q w := ⟨rfl, rfl, id⟩

theorem trans (h : w.Kept q w') (h' : w'.Kept q w'') : w.Kept q w'' :=
  ⟨h'.fired.trans h.fired, h'.closed.trans h.closed, fun hspares => h'.spares (h.spares hspares)⟩

end Kept

theorem Recounts.front (h : w.Recounts w') (q : Nat) : w'.front? q = w.front? q := by
  obtain ⟨f, hsame⟩ := h
  unfold front?
  rw [hsame, Option.map_map]
  rfl

/-- Counting, records and the log are none of the callers' concern. -/
theorem Calm.kept (h : w.Calm w') (q : Nat) : w.Kept q w' := .of_front h.fired (h.pools.front q)

/-- One who takes a context has had its permit before. -/
theorem handOut_kept {taken : Outcome ContextId} (q : Nat)
    (hfound : w.handOut place scope = (taken, w')) : w.Kept q w' := by
  rcases handOut_cases hfound with
    ⟨-, -, rfl⟩ | ⟨p, p', hhere, hanswer, ⟨e, -, rfl⟩ | ⟨c, event, -, rfl⟩⟩
  · exact .refl q _
  · exact .of_front rfl (setPool_map hhere (Pool.takeIdle_front hanswer) q)
  · have hkept : p'.front = p.front := Pool.takeIdle_front hanswer
    exact .of_front rfl
      (setPool_map hhere (show (p'.count Counters.lend).front = _ from hkept) q)

/-- Nobody notices a look at another one's execution. -/
theorem pollWith_kept {e : Execution} {late : Bool} {polled : Polled} (q : Nat)
    (hfound : w.pollWith (fun w _ => w) e late = (polled, w')) : w.Kept q w' := by
  rcases pollWith_looked hfound with ⟨-, -, rfl⟩ | ⟨x, -, hlooked⟩
  · exact .refl q _
  · exact hlooked.calm.kept q

theorem letGo_kept {record : Option CallId} (q : Nat) (hfound : w.letGo c = (record, w')) :
    w.Kept q w' := by
  obtain ⟨-, rfl⟩ := Prod.mk.inj hfound
  exact .of_front rfl rfl

/-- A context in the queue is not noticed before its permit is given. -/
theorem enqueue_kept {returned : Option Pool.Returned} (q : Nat)
    (hfound : w.enqueue place c = (returned, w')) : w.Kept q w' := by
  rcases enqueue_cases hfound with ⟨-, -, rfl⟩ |
    ⟨p, got, p', hhere, hanswer, -, ⟨-, event, rfl⟩ | ⟨-, rfl⟩⟩
  · exact .of_front rfl rfl
  · have hkept : p'.front = p.front := Pool.pushIdle_front hanswer
    exact .of_front rfl (setPool_map (w := w.clear c) hhere
      (show (p'.count Counters.takeBack).front = _ from hkept) q)
  · exact .of_front rfl (setPool_map (w := w.clear c) hhere (Pool.pushIdle_front hanswer) q)

/-- Then there is one more permit, where nobody stands in line. -/
theorem announce_kept (w : World) (q place : Nat) (c : ContextId) :
    w.Kept q (w.announce place c) where
  fired := (announce_steady place c).fired
  closed := congrFun (closed?_of_standing (announce_standing place c)) q
  spares {n} := fun ⟨f, hfront, hspares⟩ => by
    unfold announce
    split
    -- The permit is added to this pool, or to another that does not matter here.
    · next p x hhere hthere =>
      by_cases hsame : q = place
      · subst hsame
        have hfront : (w.pools[q]?).map Pool.front = some f := hfront
        rw [hhere] at hfront
        obtain rfl : p.front = f := Option.some.inj hfront
        have hmore : (p.count Counters.takeBack).addPermit.front.Spares n :=
          Pool.addPermit_spares (p := p.count Counters.takeBack) hspares
        exact ⟨_, congrArg (Option.map Pool.front) (setPool_get hhere), hmore⟩
      · exact ⟨f, (congrArg (Option.map Pool.front) (setPool_other hsame)).trans hfront, hspares⟩
    · exact ⟨f, hfront, hspares⟩

theorem requeue_kept {result : Outcome Unit} (q : Nat)
    (hfound : w.requeue place c = (result, w')) : w.Kept q w' := by
  obtain ⟨returned, w₁, hqueued, ⟨-, rfl⟩ | ⟨-, rfl⟩⟩ := requeue_cases hfound
  · exact (enqueue_kept q hqueued).trans (announce_kept _ q place c)
  · exact enqueue_kept q hqueued

/-- Giving back in one go comes to the same. -/
theorem release_kept {result : Outcome Unit} (q : Nat)
    (hfound : w.release place c = (result, w')) : w.Kept q w' := by
  unfold release at hfound
  split at hfound
  · split at hfound
    · obtain ⟨-, rfl⟩ := Prod.mk.inj hfound
      exact .refl q w
    · split at hfound
      · next w₁ hletGo => exact (letGo_kept q hletGo).trans (requeue_kept q hfound)
      · next call w₁ hletGo =>
        obtain ⟨-, rfl⟩ := Prod.mk.inj hfound
        exact (letGo_kept q hletGo).trans (.of_front rfl rfl)
  · obtain ⟨-, rfl⟩ := Prod.mk.inj hfound
    exact .refl q w

/-- So does putting back a context that waited for a call. -/
theorem putBack_kept (w : World) (q : Nat) (c : ContextId) : w.Kept q (w.putBack c) := by
  have hcounted := (count_calm (w := w) c Counters.settle).kept q
  rcases putBack_cases w c with ⟨-, hsame⟩ | ⟨place, result, w₂, -, hback, hsame⟩
  · rwa [hsame]
  · have hkept := hcounted.trans (requeue_kept q hback)
    rcases hsame with hsame | ⟨event, hsame⟩
    · rwa [hsame]
    · rw [hsame]
      exact hkept.trans (.of_front rfl rfl)

theorem carryFor_kept (w : World) (q : Nat) (fuel : GuestRun → Nat) (shut : List String)
    (id : CallId) : w.Kept q (w.carryFor fuel shut id) := by
  have hcarried := w.carryFor_carried fuel shut id
  exact .of_front hcarried.fired (by unfold front?; rw [hcarried.pools])

/-- Callers notice no more of what goes on by itself. -/
theorem Background.kept (hmove : Background w w') (q : Nat) : w.Kept q w' := by
  cases hmove with
  | carries id fuel shut => exact carryFor_kept w q _ shut id
  | @settles l r c call hfound hpast =>
    have hwithout : w.Kept q { w with deferred := l ++ r } := .of_front rfl rfl
    exact hwithout.trans (putBack_kept _ q c)

/-- One who asks while a permit is free gets it, or finds that its scope has fired. -/
theorem ask_spares {asked : Asked} (h : w.Spares q (n + 1))
    (hfound : w.ask q scope = (asked, w')) :
    ((∃ cause, asked = .refused cause) ∧ w' = w) ∨ asked = .permitted ∧ w'.Spares q n := by
  rcases ask_cases hfound with hrefused | ⟨p, p', got, hhere, hanswer, rfl, rfl⟩
  · exact .inl hrefused
  · obtain ⟨f, hfront, hspares⟩ := h
    have hfront : (w.pools[q]?).map Pool.front = some f := hfront
    rw [hhere] at hfront
    obtain rfl : p.front = f := Option.some.inj hfront
    obtain ⟨rfl, hless⟩ := Pool.request_spares hspares hanswer
    have hlast : (setPool { w with nextWaiter := w.nextWaiter + 1 } q p').pools[q]? = some p' :=
      setPool_get hhere
    exact .inr ⟨rfl, _, congrArg (Option.map Pool.front) hlast, hless⟩

/-- Fires scopes, one after another. -/
def fireAll (w : World) (scopes : List ScopeId) : World := scopes.foldl World.fire w

theorem fireAll_front (w : World) (scopes : List ScopeId) (q : Nat) :
    (w.fireAll scopes).front? q = w.front? q := by
  induction scopes generalizing w with
  | nil => rfl
  | cons scope rest ih => exact ih (w.fire scope)

/-- A scope has fired if it had before or is among those that are fired. -/
theorem mem_fireAll {scopes : List ScopeId} :
    scope ∈ (w.fireAll scopes).fired ↔ scope ∈ scopes ∨ scope ∈ w.fired := by
  induction scopes generalizing w with
  | nil => simp [fireAll]
  | cons first rest ih =>
    have hfired : (w.fire first).fired = first :: w.fired := rfl
    show scope ∈ ((w.fire first).fireAll rest).fired ↔ _
    rw [ih, hfired, List.mem_cons, List.mem_cons]
    tauto

end World

/-! ## One caller among others -/

namespace Stage

variable {β : Type}

/-- What one who runs a callback with a context of the pool at `q` does next, under a scope. It is
what a visit does, but for a context with a call on it: that one is deferred in the world. -/
inductive Move (q : Nat) (scope : ScopeId) : World × Stage β → World × Stage β → Prop where
  /-- What anybody does next who runs a callback. -/
  | goes {w stage notes w' stage'} (hgoes : Goes q scope w stage notes w' stage') :
      Move q scope (w, stage) (w', stage')
  /-- It finds the pool open. -/
  | enters {w callback} (hfound : w.isOpen q) :
      Move q scope (w, outside callback) (w, asking callback)
  /-- The callback has ended, and the context is given back in one go. -/
  | releases {w c ended back w'} (hfound : w.release q c = (back, w')) :
      Move q scope (w, inside c (.ends ended)) (w', released back ended)
  /-- Or it is let go first, if it is one of the pool's and has no call on it. -/
  | letsGo {w c ended w'}
      (hmine : (w.contexts[c]?).map Context.pool = (w.pools[q]?).map Pool.id)
      (hfound : w.letGo c = (none, w')) :
      Move q scope (w, inside c (.ends ended)) (w', returning c ended)
  /-- It counts a panic, logs it and reports it. -/
  | faults {w back message} (event : Log.Event) :
      Move q scope (w, released back (.panicked message))
        ((w.modifyPool q (·.count Counters.fault)).log event,
          finished (some (.panicked message))
            (back.bind fun _ => (World.CallbackEnd.panicked message).outcome))

/-- How many permits one at this stage will ask for. -/
def asksFor : Stage β → Nat
  | outside _ | asking _ => 1
  | _ => 0

/-- It stands in line for a permit. -/
def InLine : Stage β → Prop
  | waiting _ _ => True
  | _ => False

variable {q : Nat} {scope : ScopeId} {a b : World × Stage β}

/-- From one moment to the next one asks for a permit, or looks for it again, or does nothing of
which the other callers notice more than that permits are free. -/
def Minds (q : Nat) (scope : ScopeId) (a b : World × Stage β) : Prop :=
  (a.1.Kept q b.1 ∧ b.2.asksFor ≤ a.2.asksFor ∧ ¬ b.2.InLine) ∨
    (∃ callback asked, a.2 = asking callback ∧ b.2 = ofAsked callback asked ∧
      a.1.ask q scope = (asked, b.1)) ∨
    ∃ v callback asked, a.2 = waiting v callback ∧ b.2 = ofAsked callback asked ∧
      a.1.askAgain q scope v = (asked, b.1)

/-- Whatever one does who runs a callback, it does no more than that. -/
theorem Goes.minds {w w' : World} {stage stage' : Stage β} {notes : Notes}
    (hgoes : Goes q scope w stage notes w' stage') : Minds q scope (w, stage) (w', stage') := by
  cases hgoes with
  -- Asking and looking depend on the permits that are left; any other move can only add to them.
  | asks hstage hfound => exact .inr (.inl ⟨_, _, hstage, rfl, hfound⟩)
  | looks hstage hfound => exact .inr (.inr ⟨_, _, _, hstage, rfl, hfound⟩)
  | turnsAway => exact .inl ⟨.refl _ _, Nat.zero_le _, id⟩
  | misses | prepares | reports => exact .inl ⟨.refl _ _, Nat.zero_le _, id⟩
  | @takes _ taken _ _ hfound =>
    refine .inl ⟨World.handOut_kept q hfound, ?_, ?_⟩ <;> cases taken
    · exact Nat.zero_le _
    · exact Nat.zero_le _
    · exact id
    · exact id
  | @polls _ _ _ _ polled _ _ hfound =>
    refine .inl ⟨World.pollWith_kept q hfound, ?_, ?_⟩ <;> cases polled
    · exact Nat.zero_le _
    · exact Nat.zero_le _
    · exact id
    · exact id
  | @enqueues _ _ returned _ _ hfound =>
    refine .inl ⟨World.enqueue_kept q hfound, ?_, ?_⟩ <;> rcases returned with _ | (_ | _ | _)
    all_goals first | exact Nat.zero_le _ | exact id
  | announces => exact .inl ⟨World.announce_kept _ q q _, Nat.zero_le _, id⟩

/-- Nor does it where a visit of a pool and a caller of the program differ. -/
theorem Move.minds (hmove : Move q scope a b) : Minds q scope a b := by
  cases hmove with
  | goes hgoes => exact hgoes.minds
  | enters _ => exact .inl ⟨.refl _ _, Nat.le_refl _, id⟩
  | releases hfound => exact .inl ⟨World.release_kept q hfound, Nat.le_refl _, id⟩
  | letsGo _ hfound => exact .inl ⟨World.letGo_kept q hfound, Nat.le_refl _, id⟩
  | faults event =>
    refine .inl ⟨?_, Nat.le_refl _, id⟩
    exact .of_front rfl ((World.modifyPool_recounts Counters.fault).front q)

/-- No move fires a scope, opens the pool or closes it. -/
theorem Move.steady (hmove : Move q scope a b) :
    b.1.fired = a.1.fired ∧ b.1.closed? q = a.1.closed? q := by
  rcases hmove.minds with ⟨hkept, -, -⟩ | ⟨_, _, -, -, hfound⟩ | ⟨_, _, _, -, -, hfound⟩
  · exact ⟨hkept.fired, hkept.closed⟩
  · exact ⟨(World.ask_steady hfound).fired,
      congrFun (World.closed?_of_standing (World.ask_standing hfound)) q⟩
  · exact ⟨(World.askAgain_steady hfound).fired,
      congrFun (World.closed?_of_standing (World.askAgain_standing hfound)) q⟩

/-- As long as the pool has a permit for everyone who will ask, nobody gets into line. -/
theorem Move.spares (hmove : Move q scope a b) {n : Nat} (h : a.1.Spares q (a.2.asksFor + n))
    (hfree : ¬ a.2.InLine) : b.1.Spares q (b.2.asksFor + n) ∧ ¬ b.2.InLine := by
  rcases hmove.minds with ⟨hkept, hfewer, hout⟩ | ⟨callback, asked, hbefore, hafter, hfound⟩ |
    ⟨v, callback, asked, hbefore, -⟩
  · exact ⟨(hkept.spares h).mono (Nat.add_le_add_right hfewer n), hout⟩
  · rw [hbefore, show (asking callback).asksFor = 1 from rfl, Nat.add_comm] at h
    rw [hafter]
    rcases World.ask_spares h hfound with ⟨⟨cause, rfl⟩, hsame⟩ | ⟨rfl, hless⟩
    · rw [hsame]
      exact ⟨h.mono (by simp [ofAsked, asksFor]), id⟩
    · exact ⟨hless.mono (by simp [ofAsked, asksFor]), id⟩
  · rw [hbefore] at hfree
    exact absurd trivial hfree

end Stage

/-- A caller of the program: its number, its scope, and how far it has come. -/
structure Seat where
  number : Nat
  scope : ScopeId
  stage : Stage (List Value)

namespace Joined

/-- A caller and what it came to, if that is no failure. -/
def Succeeded (o : Nat × Outcome (List Value)) : Prop := ∃ values, o.2 = .ok values

/-- What is known once callers were joined, the first of them first. -/
def of (outcomes : List (Nat × Outcome (List Value))) : Joined :=
  outcomes.foldl (fun j o => j.add o.2) .nobody

variable {outcomes : List (Nat × Outcome (List Value))}

theorem of_append (o : Nat × Outcome (List Value)) :
    of (outcomes ++ [o]) = (of outcomes).add o.2 := by
  unfold of
  rw [List.foldl_append]
  rfl

/-- All callers that were joined succeeded, or what is kept is the failure of the first one that
did not. -/
theorem of_cases (outcomes : List (Nat × Outcome (List Value))) :
    ((∀ o ∈ outcomes, Succeeded o) ∧ of outcomes = .nobody) ∨
      ∃ earlier number e later, outcomes = earlier ++ (number, .error e) :: later ∧
        (∀ o ∈ earlier, Succeeded o) ∧ of outcomes = ⟨some e, true⟩ := by
  -- By the last outcome: it is the first failure when all before it succeeded.
  induction outcomes using List.reverseRecOn with
  | nil => exact .inl ⟨List.forall_mem_nil _, rfl⟩
  | append_singleton outcomes o ih =>
    obtain ⟨number, result⟩ := o
    rw [of_append]
    rcases ih with ⟨hall, hsame⟩ | ⟨earlier, first, e, later, rfl, hall, hsame⟩
    · rw [hsame]
      cases result with
      | ok values =>
        refine .inl ⟨fun o hmember => ?_, rfl⟩
        rcases List.mem_append.mp hmember with hold | hnew
        · exact hall o hold
        · obtain rfl := List.mem_singleton.mp hnew
          exact ⟨values, rfl⟩
      | error e => exact .inr ⟨outcomes, number, e, [], rfl, hall, rfl⟩
    · rw [hsame]
      refine .inr ⟨earlier, first, e, later ++ [(number, result)], by simp, hall, ?_⟩
      cases result <;> rfl

end Joined

/-- The program while it waits for its callers. -/
structure Hosting where
  world : World
  /-- Callers that have not been sent off. -/
  due : List Nat
  /-- Callers that were sent off and have not been joined. -/
  seats : List Seat
  /-- What the program keeps of those that were joined. -/
  joined : Joined
  /-- The callers that were joined, the first of them first, and what each came to. -/
  outcomes : List (Nat × Outcome (List Value))
  /-- What the program comes to, once it has closed the pool. -/
  exit : Option (Except ExitError Unit)

namespace Hosting

/-- The program with its pool, before it sends off so many callers. -/
def start (w : World) (callers : Nat) : Hosting :=
  ⟨w, List.range callers, [], .nobody, [], none⟩

/-- What the program comes to, by the failure that it keeps. -/
def verdict (words : String) : Option Failure → Except ExitError Unit
  | none => .ok ()
  | some e => .error (.inContext words e)

/-- A caller has been joined, and `rest` are under way. Once a caller has failed, every joining
cancels all the others. -/
def join (s : Hosting) (number : Nat) (result : Outcome (List Value)) (rest : List Seat) :
    Hosting :=
  let joined := s.joined.add result
  let w := s.world.log (Joined.event number result)
  { s with
    world := if joined.cancelled then w.fireAll (rest.map Seat.scope) else w
    seats := rest
    joined
    outcomes := s.outcomes ++ [(number, result)] }

/-- The program logs its counters, closes the pool and comes to its end. -/
def finish (q : Nat) (words : String) (s : Hosting) : Hosting :=
  let counters := ((s.world.pools[q]?).map Pool.counters).getD .zero
  { s with
    world := (s.world.log (Program.completeEvent counters)).close q
    exit := some (verdict words s.joined.failure) }

/-- What may happen next. The callers run their callbacks with contexts of the pool at `q`. -/
inductive Step (q : Nat) (words : String) (callback : Nat → Callback (List Value)) :
    Hosting → Hosting → Prop where
  /-- The next caller is sent off, under a scope of its own. -/
  | spawns {s : Hosting} {number due} (hnext : s.due = number :: due) :
      Step q words callback s { s with
        world := s.world.freshScope.2
        due
        seats := s.seats ++ [⟨number, s.world.nextScope, .outside (callback number)⟩] }
  /-- A caller makes a move. -/
  | moves {s : Hosting} {l seat r w stage} (hwho : s.seats = l ++ seat :: r)
      (hmove : Stage.Move q seat.scope (s.world, seat.stage) (w, stage)) :
      Step q words callback s { s with world := w, seats := l ++ { seat with stage } :: r }
  /-- Something goes on by itself. -/
  | background {s : Hosting} {w} (hmove : World.Background s.world w) :
      Step q words callback s { s with world := w }
  /-- A gate at which guests stand opens. -/
  | gate {s : Hosting} (gate : String) :
      Step q words callback s { s with
        world := { s.world with openGates := gate :: s.world.openGates } }
  /-- Clocks go on, and others use the stores and clients. -/
  | elsewhere {s : Hosting} (services : Services) :
      Step q words callback s { s with world := { s.world with services } }
  /-- All callers are under way, and one that has come to its end is joined. -/
  | joins {s : Hosting} {l seat r ended result} (hall : s.due = [])
      (hwho : s.seats = l ++ seat :: r) (hstage : seat.stage = .finished ended result) :
      Step q words callback s (s.join seat.number result (l ++ r))
  /-- All callers have been joined. -/
  | exits {s : Hosting} (hall : s.due = []) (heveryone : s.seats = []) (hrunning : s.exit = none) :
      Step q words callback s (s.finish q words)

/-- Any number of steps. -/
abbrev Runs (q : Nat) (words : String) (callback : Nat → Callback (List Value)) :
    Hosting → Hosting → Prop :=
  Relation.ReflTransGen (Step q words callback)

variable {q n : Nat} {words : String} {callback : Nat → Callback (List Value)} {s t : Hosting}

/-! ## The law of all runs -/

/-- What holds at every moment of a run with so many callers. -/
structure Lawful (q n : Nat) (words : String) (s : Hosting) : Prop where
  /-- Every caller has been joined, is under way or is due, and only one of these. -/
  everyone : (s.outcomes.map Prod.fst ++ (s.seats.map Seat.number ++ s.due)).Perm (List.range n)
  /-- Nobody is joined before all callers were sent off. -/
  sent : s.due ≠ [] → s.outcomes = []
  joined : s.joined = .of s.outcomes
  /-- The pool is open as long as the program runs, and closed when it has come to its end. -/
  closed : s.world.closed? q = some s.exit.isSome
  /-- It comes to its end when all callers have been joined. -/
  exits : ∀ v, s.exit = some v →
    s.due = [] ∧ s.seats = [] ∧ v = verdict words (Joined.of s.outcomes).failure
  /-- No scope fires before a caller was joined that failed. -/
  quiet : (∀ o ∈ s.outcomes, Joined.Succeeded o) → s.world.fired = []
  /-- Once one was, the scopes of all that are under way have fired. -/
  reached : ∀ o ∈ s.outcomes, ¬ Joined.Succeeded o → ∀ seat ∈ s.seats, seat.scope ∈ s.world.fired

/-- The law holds before anything has happened. -/
theorem lawful_start {w : World} (hopened : w.closed? q = some false) (hunfired : w.fired = []) :
    (start w n).Lawful q n words where
  everyone := .refl _
  sent _ := rfl
  joined := rfl
  closed := hopened
  exits _ hnone := by cases hnone
  quiet _ := hunfired
  reached _ hnone := by cases hnone

/-- While the callers keep their numbers and scopes, it holds as before. -/
theorem Lawful.kept (h : s.Lawful q n words) {w : World} {seats : List Seat}
    (hnumbers : seats.map Seat.number = s.seats.map Seat.number)
    (hscopes : seats.map Seat.scope = s.seats.map Seat.scope)
    (hsteady : w.fired = s.world.fired ∧ w.closed? q = s.world.closed? q) :
    Lawful q n words { s with world := w, seats } where
  everyone := by
    rw [hnumbers]
    exact h.everyone
  sent := h.sent
  joined := h.joined
  closed := hsteady.2.trans h.closed
  exits v hdone := by
    obtain ⟨hall, hnone, hsame⟩ := h.exits v hdone
    rw [hnone] at hnumbers
    exact ⟨hall, List.map_eq_nil_iff.mp hnumbers, hsame⟩
  quiet hall := hsteady.1.trans (h.quiet hall)
  reached o hmember hfailed seat hunder := by
    have hunder : seat.scope ∈ seats.map Seat.scope := List.mem_map_of_mem hunder
    rw [hscopes] at hunder
    obtain ⟨seat', hunder', hsame⟩ := List.mem_map.mp hunder
    rw [← hsame, hsteady.1]
    exact h.reached o hmember hfailed seat' hunder'

/-- Joining a caller leaves the pool as it is. -/
theorem join_front (s : Hosting) (number : Nat) (result : Outcome (List Value)) (rest : List Seat)
    (q : Nat) : (s.join number result rest).world.front? q = s.world.front? q := by
  unfold join
  dsimp only
  split
  · exact World.fireAll_front (s.world.log _) _ q
  · rfl

/-- Joining a caller keeps the law: the first failure fires the scopes of all others. -/
theorem Lawful.join (h : s.Lawful q n words) {l r : List Seat} {seat : Seat}
    {result : Outcome (List Value)} (hall : s.due = []) (hwho : s.seats = l ++ seat :: r) :
    (s.join seat.number result (l ++ r)).Lawful q n words := by
  have hjoined : s.joined.add result = .of (s.outcomes ++ [(seat.number, result)]) := by
    rw [Joined.of_append, h.joined]
  refine ⟨?_, fun hdue => absurd hall hdue, hjoined, ?_, fun v hdone => ?_, fun hsuccess => ?_, ?_⟩
  · have hbefore := h.everyone
    rw [hwho] at hbefore
    show ((s.outcomes ++ [(seat.number, result)]).map Prod.fst ++
      ((l ++ r).map Seat.number ++ s.due)).Perm _
    refine List.Perm.trans ?_ hbefore
    simp only [List.map_append, List.map_cons, List.map_nil, List.append_assoc, List.cons_append,
      List.nil_append]
    exact List.Perm.append_left _ List.perm_middle.symm
  · rw [World.closed?_eq_front, join_front, ← World.closed?_eq_front]
    exact h.closed
  · have hnone := (h.exits v hdone).2.1
    rw [hwho] at hnone
    simp at hnone
  · -- nobody has failed, so nothing was cancelled
    have hfine : ∀ o ∈ s.outcomes, Joined.Succeeded o :=
      fun o hmember => hsuccess o (List.mem_append_left _ hmember)
    have hcalm : (s.joined.add result).cancelled = false := by
      rw [hjoined]
      rcases Joined.of_cases (s.outcomes ++ [(seat.number, result)]) with
        ⟨-, hsame⟩ | ⟨earlier, number, e, later, houtcomes, -, -⟩
      · rw [hsame]
        rfl
      · have hmember : (number, .error e) ∈ s.outcomes ++ [(seat.number, result)] := by
          simp [houtcomes]
        obtain ⟨values, hwrong⟩ := hsuccess _ hmember
        cases hwrong
    unfold Hosting.join
    dsimp only
    rw [hcalm]
    exact h.quiet hfine
  · intro o hmember hfailed seat' hunder
    have hfires : (s.joined.add result).cancelled = true := by
      rw [hjoined]
      rcases Joined.of_cases (s.outcomes ++ [(seat.number, result)]) with
        ⟨hfine, -⟩ | ⟨_, _, _, _, -, -, hsame⟩
      · exact absurd (hfine o hmember) hfailed
      · rw [hsame]
    unfold Hosting.join
    dsimp only
    rw [hfires]
    exact World.mem_fireAll.mpr (.inl (List.mem_map_of_mem hunder))

/-- Every step keeps the law. -/
theorem Step.lawful (hstep : Step q words callback s t) (h : s.Lawful q n words) :
    t.Lawful q n words := by
  have hkept {w : World} (hkept : s.world.Kept q w) : Lawful q n words { s with world := w } :=
    h.kept rfl rfl ⟨hkept.fired, hkept.closed⟩
  cases hstep with
  | @spawns number due hnext =>
    -- nobody was joined yet, so the new caller's scope need not have fired
    have hsome : s.due ≠ [] := by simp [hnext]
    have hnobody := h.sent hsome
    refine ⟨?_, fun _ => hnobody, h.joined, h.closed, fun v hdone => ?_, h.quiet, ?_⟩
    · have hbefore := h.everyone
      rw [hnext] at hbefore
      simpa using hbefore
    · exact absurd (h.exits v hdone).1 hsome
    · intro o hmember
      have hmember : o ∈ s.outcomes := hmember
      rw [hnobody] at hmember
      cases hmember
  | @moves l seat r w stage hwho hmove =>
    exact h.kept (by simp [hwho]) (by simp [hwho]) hmove.steady
  | background hmove => exact hkept (hmove.kept q)
  | gate gate => exact hkept (.of_front rfl rfl)
  | elsewhere services => exact hkept (.of_front rfl rfl)
  | joins hall hwho hstage => exact h.join hall hwho
  | exits hall heveryone hrunning =>
    have hopened : s.world.closed? q = some false := by
      rw [h.closed, hrunning]
      rfl
    have hsteady (event : Log.Event) := World.close_steady (w := s.world.log event) q
    refine ⟨h.everyone, h.sent, h.joined, ?_, fun v hdone => ?_, fun hfine => ?_, ?_⟩
    · cases hhere : s.world.pools[q]? with
      | none =>
        unfold World.closed? World.standing? at hopened
        rw [hhere] at hopened
        cases hopened
      | some p =>
        exact World.close_shut (w := s.world.log (Program.completeEvent _)) hhere
    · obtain rfl := Option.some.inj hdone
      exact ⟨hall, heveryone, congrArg (fun j => verdict words j.failure) h.joined⟩
    · exact (hsteady _).fired.trans (h.quiet hfine)
    · intro o hmember hfailed seat hunder
      exact (hsteady _).fired ▸ h.reached o hmember hfailed seat hunder

/-- What holds of the program before it sends off its callers holds at every moment after. -/
theorem Runs.lawful (hrun : Runs q words callback s t) (h : s.Lawful q n words) :
    t.Lawful q n words := by
  induction hrun with
  | refl => exact h
  | tail _ hnext ih => exact hnext.lawful ih

/-! ## Where the reported failure comes from -/

/-- A scope that has fired stays so. -/
theorem Step.fired (hstep : Step q words callback s t) : s.world.fired ⊆ t.world.fired := by
  have hsame (hfired : t.world.fired = s.world.fired) : s.world.fired ⊆ t.world.fired :=
    hfired ▸ List.Subset.refl _
  cases hstep with
  | spawns _ | gate _ | elsewhere _ => exact hsame rfl
  | moves _ hmove => exact hsame hmove.steady.1
  | background hmove => exact hsame (hmove.kept q).fired
  | exits => exact hsame (World.close_steady (w := s.world.log _) q).fired
  -- A join fires scopes and takes back none.
  | @joins l seat r ended result hall hwho hstage =>
    intro scope hmember
    unfold join
    dsimp only
    split
    · exact World.mem_fireAll.mpr (.inr hmember)
    · exact hmember

/-- So do all that have fired in a run. -/
theorem Runs.fired (hrun : Runs q words callback s t) : s.world.fired ⊆ t.world.fired := by
  induction hrun with
  | refl => exact List.Subset.refl _
  | tail _ hnext ih => exact List.Subset.trans ih hnext.fired

/-- A step joins nobody, or one caller that has come to its end. -/
theorem Step.outcomes (hstep : Step q words callback s t) : t.outcomes = s.outcomes ∨
    ∃ seat ∈ s.seats, ∃ ended result, seat.stage = .finished ended result ∧
      t.outcomes = s.outcomes ++ [(seat.number, result)] := by
  cases hstep with
  | @joins l seat r ended result hall hwho hstage =>
    exact .inr ⟨seat, by simp [hwho], ended, result, hstage, rfl⟩
  | _ => exact .inl rfl

/-- The failure of the caller that was the first to fail among those joined arose before any scope
fired: at a moment of the run at which none had, nor before, the caller had come to its end. -/
theorem Runs.produced (hrun : Runs q words callback s t) (h : s.Lawful q n words)
    (hbegun : s.outcomes = []) {earlier later : List (Nat × Outcome (List Value))} {number : Nat}
    {e : Failure} (hjoined : t.outcomes = earlier ++ (number, .error e) :: later)
    (hfirst : ∀ o ∈ earlier, Joined.Succeeded o) :
    ∃ u, Runs q words callback s u ∧ Runs q words callback u t ∧ u.outcomes = earlier ∧
      (∀ v, Runs q words callback v u → v.world.fired = []) ∧ ∃ seat ∈ u.seats,
        seat.number = number ∧ ∃ ended, seat.stage = .finished ended (.error e) := by
  -- by induction on the run; `later` shrinks to nothing on the way back to the joining
  induction hrun generalizing later with
  | refl =>
    rw [hbegun] at hjoined
    simp at hjoined
  | @tail v t hbefore hstep ih =>
    rcases hstep.outcomes with hsame | ⟨seat, hmember, ended, result, hstage, hgrown⟩
    · obtain ⟨u, hhere, hthere, hrest⟩ := ih (hsame ▸ hjoined)
      exact ⟨u, hhere, hthere.tail hstep, hrest⟩
    · rw [hgrown] at hjoined
      rcases List.eq_nil_or_concat later with rfl | ⟨later', o, rfl⟩
      · -- this step joins the caller: all before it succeeded, so no scope has fired
        obtain ⟨rfl, hlast⟩ := List.append_inj' hjoined rfl
        obtain ⟨hsame, rfl⟩ := Prod.mk.inj (List.singleton_inj.mp hlast)
        have hquiet : v.world.fired = [] := (Runs.lawful hbefore h).quiet hfirst
        refine ⟨v, hbefore, .single hstep, rfl, fun u hpast => ?_, seat, hmember, hsame, ended,
          hstage⟩
        exact List.subset_nil.mp (hquiet ▸ Runs.fired hpast)
      · have hjoined' : v.outcomes ++ [(seat.number, result)] =
            (earlier ++ (number, .error e) :: later') ++ [o] := by simpa using hjoined
        obtain ⟨u, hhere, hthere, hrest⟩ := ih (List.append_inj' hjoined' rfl).1
        exact ⟨u, hhere, hthere.tail hstep, hrest⟩

end Hosting
end SandboxPool
