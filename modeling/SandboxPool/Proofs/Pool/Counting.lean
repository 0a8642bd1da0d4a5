import SandboxPool.Proofs.Pool.Exclusion

/-!
# What operations do to a pool's accounts

A pool counts the contexts that are out of its queue and the abandoned calls that nobody has
joined (`Pool.account`). Every operation of a world leaves all accounts alone, or changes one
counter of one pool by one. The lemmas here say which; what becomes of a record that an execution
finds or makes goes with what is counted (`World.pollWith_booked`).
-/

namespace SandboxPool

/-- What a pool counts of its contexts. -/
structure Account where
  capacity : Nat
  /-- Contexts that are lent, or on their way back. -/
  borrowed : Counter
  /-- Abandoned calls that nobody has joined. -/
  settling : Counter

/-- The account of a pool. -/
def Pool.account (p : Pool) : Account := ⟨p.capacity, p.counters.borrowed, p.counters.settling⟩

namespace Pool

/-- A pool but for its permits. -/
def stock (p : Pool) : Pool := { p with permits := .ofNat p.capacity }

variable {p p' : Pool} {v : Waiter} {c : ContextId}

/-! ## Operations on a pool, none of which counts anything -/

/-- Asking for a permit changes the permits alone. -/
theorem request_stock {got : PermitAnswer} (hfound : p.request v = (got, p')) :
    p'.stock = p.stock := by
  unfold request at hfound
  split at hfound <;> obtain ⟨-, rfl⟩ := Prod.mk.inj hfound <;> rfl

/-- So does looking again. -/
theorem look_stock {got : PermitAnswer} (hfound : p.look v = (got, p')) : p'.stock = p.stock := by
  rw [← (Prod.mk.inj hfound).2]
  rfl

/-- One who finds no context leaves everything as it was. -/
theorem takeIdle_refused {failure : Failure} (hfound : p.takeIdle = (.error failure, p')) :
    p' = p := by
  unfold takeIdle at hfound
  split at hfound
  · cases (Prod.mk.inj hfound).1
  · exact (Prod.mk.inj hfound).2.symm

/-- A context that leaves the queue is counted as lent by the world, not by the queue. -/
theorem takeIdle_account {taken : Outcome ContextId} (hfound : p.takeIdle = (taken, p')) :
    p'.account = p.account := by
  obtain ⟨idle, rfl⟩ := takeIdle_queue hfound
  rfl

/-- A look into the queue neither opens nor closes the pool. -/
theorem takeIdle_closed {taken : Outcome ContextId} (hfound : p.takeIdle = (taken, p')) :
    p'.closed = p.closed := by
  obtain ⟨idle, rfl⟩ := takeIdle_queue hfound
  rfl

/-- Nor does the queue count what comes back to it. -/
theorem pushIdle_account {got : Returned} (hfound : p.pushIdle c = (got, p')) :
    p'.account = p.account := by
  obtain ⟨idle, rfl⟩ := pushIdle_queue hfound
  rfl

/-- A pool that is closed still counts what is out. -/
theorem close_account {disposed : List ContextId} (hfound : p.close? = some (disposed, p')) :
    p'.account = p.account := by
  unfold close? at hfound
  split at hfound
  · cases hfound
  · obtain ⟨-, rfl⟩ := Prod.mk.inj (Option.some.inj hfound)
    rfl

end Pool

namespace Account

/-- One more context is lent. -/
def lend (a : Account) : Account := { a with borrowed := a.borrowed + 1 }

/-- One context is back. -/
def takeBack (a : Account) : Account := { a with borrowed := a.borrowed - 1 }

/-- A call was abandoned. -/
def abandon (a : Account) : Account := { a with settling := a.settling + 1 }

/-- An abandoned call was joined. -/
def settle (a : Account) : Account := { a with settling := a.settling - 1 }

end Account

namespace World

/-- The account of the pool at a place. -/
def account? (w : World) (q : Nat) : Option Account := (w.pools[q]?).map Pool.account

/-- The accounts once the one at a place has changed. -/
def booked (w : World) (place : Nat) (f : Account → Account) (q : Nat) : Option Account :=
  if q = place then (w.account? q).map f else w.account? q

variable {w w' : World} {place q : Nat} {c : ContextId} {scope : ScopeId} {f : Account → Account}
  {e : Execution} {x : Context} {late : Bool} {polled : Polled}

theorem account?_eq {p : Pool} (hhere : w.pools[q]? = some p) : w.account? q = some p.account :=
  congrArg (Option.map Pool.account) hhere

/-- Where the pools are the same, so are the accounts. -/
theorem account?_of_pools (hsame : w'.pools = w.pools) : w'.account? = w.account? := by
  funext q
  unfold account?
  rw [hsame]

theorem booked_self {p : Pool} (hhere : w.pools[q]? = some p) :
    w.booked q f q = some (f p.account) := by
  unfold booked
  rw [if_pos rfl, account?_eq hhere, Option.map_some]

/-- A change at one place leaves the other accounts alone. -/
theorem booked_other (h : q ≠ place) : w.booked place f q = w.account? q := if_neg h

theorem booked_id : w.booked place id = w.account? := by
  funext q
  unfold booked
  rw [Option.map_id, id_eq, ite_self]

/-- An account after a change is one before it, or the one that has changed. -/
theorem booked_eq_some {a' : Account} (hafter : w.booked place f q = some a') :
    ∃ a, w.account? q = some a ∧ (q = place ∧ a' = f a ∨ q ≠ place ∧ a' = a) := by
  by_cases hq : q = place
  · unfold booked at hafter
    rw [if_pos hq] at hafter
    obtain ⟨a, hbefore, rfl⟩ := Option.map_eq_some_iff.mp hafter
    exact ⟨a, hbefore, .inl ⟨hq, rfl⟩⟩
  · rw [booked_other hq] at hafter
    exact ⟨a', hafter, .inr ⟨hq, rfl⟩⟩

/-- A change of a pool is a change of its account if it shows as one there. -/
theorem modifyPool_account {g : Pool → Pool} (hshown : ∀ p, (g p).account = f p.account) :
    (w.modifyPool place g).account? = w.booked place f := by
  funext q
  unfold booked account?
  rw [modifyPool_pools]
  split
  · rw [Option.map_map, Option.map_map]
    exact congrArg (Option.map · w.pools[q]?) (funext hshown)
  · rfl

/-- A change that does not show in the account leaves all accounts alone. -/
theorem modifyPool_account_kept {g : Pool → Pool} (hkept : ∀ p, (g p).account = p.account) :
    (w.modifyPool place g).account? = w.account? := funext (modifyPool_map hkept)

/-- So does putting a pool in the place of another, by what shows of the two. -/
theorem setPool_account {p p' : Pool} (hhere : w.pools[place]? = some p)
    (hshown : p'.account = f p.account) : (w.setPool place p').account? = w.booked place f := by
  funext q
  by_cases hq : q = place
  · subst hq
    rw [booked_self hhere, ← hshown]
    unfold account?
    rw [setPool_get hhere]
    rfl
  · rw [booked_other hq]
    unfold account?
    rw [setPool_other hq]

theorem setPool_account_kept {p p' : Pool} (hhere : w.pools[place]? = some p)
    (hkept : p'.account = p.account) : (w.setPool place p').account? = w.account? :=
  funext (setPool_map hhere hkept)

/-- What is counted for a context is counted at its home. -/
theorem count_account {g : Counters → Counters} (hhome : w.home? c = some place)
    (hshown : ∀ p : Pool, (p.count g).account = f p.account) :
    (w.count c g).account? = w.booked place f := by
  rw [count_of_home hhome]
  exact modifyPool_account hshown

/-- What is not in the accounts may be counted. -/
theorem count_account_kept {g : Counters → Counters}
    (hkept : ∀ p : Pool, (p.count g).account = p.account) :
    (w.count c g).account? = w.account? := funext (count_map hkept c)

/-! ## Permits -/

/-- What a pool has beside its permits. -/
def stock? (w : World) (q : Nat) : Option Pool := (w.pools[q]?).map Pool.stock

/-- What does not depend on the permits stays the same with the rest of the pool. -/
theorem map_of_stock {α : Type} {f : Pool → α} (hapart : ∀ p : Pool, f p.stock = f p)
    (hsame : w'.stock? = w.stock?) (q : Nat) :
    (w'.pools[q]?).map f = (w.pools[q]?).map f := by
  have hthrough (v : World) : (v.pools[q]?).map f = (v.stock? q).map f := by
    unfold stock?
    rw [Option.map_map]
    exact congrArg (Option.map · v.pools[q]?) (funext hapart).symm
  rw [hthrough, hthrough, hsame]

/-- Accounts do not depend on the permits. -/
theorem account?_of_stock (hsame : w'.stock? = w.stock?) : w'.account? = w.account? :=
  funext (map_of_stock (fun _ => rfl) hsame)

/-- One who asks for a permit leaves the pools alone but for their permits. -/
theorem ask_stock {asked : Asked} (hfound : w.ask place scope = (asked, w')) :
    w'.stock? = w.stock? := by
  rcases ask_cases hfound with ⟨-, rfl⟩ | ⟨p, p', got, hhere, hanswer, -, rfl⟩
  · rfl
  · exact funext (setPool_map (w := { w with nextWaiter := w.nextWaiter + 1 }) hhere
      (Pool.request_stock hanswer))

/-- So does one who gives up waiting. -/
theorem giveUp_stock (place : Nat) (v : Waiter) : (w.giveUp place v).stock? = w.stock? :=
  funext (modifyPool_map fun _ => rfl)

/-- And one who looks again, whether it is refused or not. -/
theorem askAgain_stock {v : Waiter} {asked : Asked}
    (hfound : w.askAgain place scope v = (asked, w')) : w'.stock? = w.stock? := by
  rcases askAgain_cases hfound with ⟨-, ⟨-, rfl⟩ | rfl⟩ | ⟨p, p', got, hhere, hanswer, -, rfl⟩
  · rfl
  · exact giveUp_stock place v
  · exact funext (setPool_map hhere (Pool.look_stock hanswer))

/-- One who finds no context for its permit changes nothing but permits. -/
theorem handOut_stock_refused {failure : Failure}
    (hfound : w.handOut place scope = (.error failure, w')) : w'.stock? = w.stock? := by
  rcases handOut_cases hfound with
    ⟨-, -, rfl⟩ | ⟨p, p', hhere, hanswer, ⟨e, -, rfl⟩ | ⟨d, event, hok, -⟩⟩
  · rfl
  · exact funext (setPool_map hhere (congrArg Pool.stock (Pool.takeIdle_refused hanswer)))
  · cases hok

theorem ask_account {asked : Asked} (hfound : w.ask place scope = (asked, w')) :
    w'.account? = w.account? := account?_of_stock (ask_stock hfound)

theorem giveUp_account (place : Nat) (v : Waiter) : (w.giveUp place v).account? = w.account? :=
  account?_of_stock (giveUp_stock place v)

theorem askAgain_account {v : Waiter} {asked : Asked}
    (hfound : w.askAgain place scope v = (asked, w')) : w'.account? = w.account? :=
  account?_of_stock (askAgain_stock hfound)

theorem handOut_account_refused {failure : Failure}
    (hfound : w.handOut place scope = (.error failure, w')) : w'.account? = w.account? :=
  account?_of_stock (handOut_stock_refused hfound)

/-! ## Lending and taking back -/

/-- A context that is handed out is counted as lent. -/
theorem handOut_account (hfound : w.handOut place scope = (.ok c, w')) :
    w'.account? = w.booked place .lend := by
  rcases handOut_cases hfound with
    ⟨-, hrefused, -⟩ | ⟨p, p', hhere, hanswer, ⟨e, hrefused, -⟩ | ⟨d, event, -, rfl⟩⟩
  · cases hrefused
  · cases hrefused
  · have hlent : (p'.count Counters.lend).account = p.account.lend :=
      congrArg Account.lend (Pool.takeIdle_account hanswer)
    exact setPool_account hhere hlent

/-- A context that is back in its queue is counted as back with its permit. -/
theorem announce_account {p : Pool} (hhere : w.pools[place]? = some p)
    (hthere : w.contexts[c]? = some x) :
    (w.announce place c).account? = w.booked place .takeBack := by
  obtain ⟨event, hsame⟩ := announce_eq hhere hthere
  rw [hsame]
  exact setPool_account hhere rfl

/-- A context that comes back to a pool that was closed is counted as back at once. -/
theorem enqueue_account {returned : Option Pool.Returned}
    (hfound : w.enqueue place c = (returned, w')) :
    w'.account? = if returned = some .disposed then w.booked place .takeBack else w.account? := by
  rcases enqueue_cases hfound with ⟨-, rfl, rfl⟩ |
    ⟨p, got, p', hhere, hanswer, rfl, ⟨rfl, event, rfl⟩ | ⟨hlive, rfl⟩⟩
  · rfl
  · rw [if_pos rfl]
    have hback : (p'.count Counters.takeBack).account = p.account.takeBack :=
      congrArg Account.takeBack (Pool.pushIdle_account hanswer)
    exact setPool_account (w := w.clear c) hhere hback
  · rw [if_neg fun hsame => hlive (Option.some.inj hsame)]
    exact setPool_account_kept (w := w.clear c) hhere (Pool.pushIdle_account hanswer)

/-- Closing a pool counts nothing: what is out comes back later. -/
theorem close_account (place : Nat) : (w.close place).account? = w.account? := by
  rcases close_cases (w := w) place with hsame | ⟨p, p', disposed, event, hhere, hcloses, hsame⟩
  · rw [hsame]
  · rw [hsame]
    exact setPool_account_kept hhere (Pool.close_account hcloses)

/-! ## Executions -/

/-- What a look at an execution does to the accounts and to the record on its context, which is at
home at a place: nothing; or a call that was recorded is joined; or a call is recorded that was
not. -/
inductive Booked (w : World) (place : Nat) (c : ContextId) (w' : World) : Prop where
  | nothing (haccount : w'.account? = w.account?) (hrecord : w'.inFlight? c = w.inFlight? c)
  | joins {call} (haccount : w'.account? = w.booked place .settle)
      (hbefore : w.inFlight? c = some call) (hafter : w'.inFlight? c = none)
  | records {call} (haccount : w'.account? = w.booked place .abandon)
      (hbefore : w.inFlight? c = none) (hafter : w'.inFlight? c = some call)

/-- Where contexts and accounts stay as they are, nothing happens to either. -/
theorem Booked.of_steady (hsteady : w.Steady w') (haccount : w'.account? = w.account?) :
    w.Booked place c w' :=
  .nothing haccount (by rw [inFlight?_of_same hsteady.outline])

/-- Beginning the own call of an execution changes no account and no record. -/
theorem BeginFound.booked (hfound : w.BeginFound (fun w _ => w) e x polled w') :
    w'.account? = w.account? ∧ w'.outline? = w.outline? := by
  cases hfound <;> exact ⟨rfl, rfl⟩

/-- An earlier call that is over is taken off the account of the pool at whose context it ran. -/
theorem unrecord_account (hhome : w.home? c = some place) (event : Log.Event) :
    (w.unrecord c event).account? = w.booked place .settle := by
  -- the record is cleared before the counter is changed, and homes stay
  have hstays : (w.modifyContext c fun x => { x with inFlight := none }).home? = w.home? := by
    refine Keeps.home (.of_eq rfl) fun d => ?_
    rw [modifyContext_outline (g := .record none) fun _ => rfl]
    exact marked_pool (by intro o; rfl) d
  exact count_account (by rw [hstays, hhome]) fun _ => rfl

/-- An execution that waits behind a recorded call joins it once it is over, or leaves the record as
it is. -/
theorem EarlierFound.booked {earlier : CallId} (hhome : w.home? e.context = some place)
    (hhere : w.contexts[e.context]? = some x) (hrecord : x.inFlight = some earlier)
    (hfound : w.EarlierFound (fun w _ => w) e x earlier late polled w') :
    w.Booked place e.context w' := by
  cases hfound with
  | settled _ hfound =>
    obtain ⟨haccount, hsame⟩ := hfound.booked
    have hbefore : w.inFlight? e.context = some earlier := by rw [inFlight?_eq hhere, hrecord]
    exact .joins (haccount.trans (unrecord_account hhome _)) hbefore
      (inFlight?_of_marked_self (hsame.trans (unrecord_outline _ _)) hhere)
  | cancelled => exact .of_steady (count_steady _ _) (count_account_kept fun _ => rfl)
  | timedOut =>
    exact .of_steady ((log_steady _).trans (count_steady _ _))
      (count_account_kept (w := w.log _) fun _ => rfl)
  | waits => exact .nothing rfl rfl

/-- A call that is left to itself is counted, and recorded on its context. -/
theorem Booked.of_abandon {w₁ : World} {own : CallId} (hhome : w.home? e.context = some place)
    (hhere : w.contexts[e.context]? = some x) (hrecord : x.inFlight = none) (hsteady : w.Steady w₁)
    (hkeeps : w.Keeps w₁) (haccount : w₁.account? = w.account?) :
    w.Booked place e.context (w₁.abandon e.context own) := by
  -- the counter is that of the same pool as before, for contexts do not change their homes
  have hstays : w₁.home? = w.home? := hkeeps.home fun d => by rw [hsteady.outline]
  have hcounted : (w₁.count e.context Counters.abandon).account? = w₁.booked place .abandon :=
    count_account (by rw [hstays, hhome]) fun _ => rfl
  have hsame : w₁.booked place .abandon = w.booked place .abandon := by
    unfold booked
    rw [haccount]
  have hbefore : w.inFlight? e.context = none := by rw [inFlight?_eq hhere, hrecord]
  have hafter : (w₁.abandon e.context own).inFlight? e.context = some own :=
    inFlight?_of_marked_self (abandon_outline hsteady.outline) hhere
  exact .records (hcounted.trans hsame) hbefore hafter

/-- An execution whose own call is under way records it if it ends first, on a context without a
record. -/
theorem OwnFound.booked {own : CallId} (hhome : w.home? e.context = some place)
    (hhere : w.contexts[e.context]? = some x) (hrecord : x.inFlight = none)
    (hfound : w.OwnFound e x own late polled w') : w.Booked place e.context w' := by
  cases hfound with
  | returned | panicked => exact .of_steady (count_steady _ _) (count_account_kept fun _ => rfl)
  | cancelled | timedOut =>
    -- the call is left behind after the loss is logged, and both leave the contexts alone
    exact .of_abandon hhome hhere hrecord ((log_steady _).trans (count_steady _ _))
      ((log_calm _).trans (count_calm _ _)).pools.keeps
      (count_account_kept (w := w.log _) fun _ => rfl)
  | waits => exact .nothing rfl rfl

/-- Every look at an execution that fits what is recorded on its context is one of these. -/
theorem pollWith_booked (hhome : w.home? e.context = some place)
    (hhere : w.contexts[e.context]? = some x) (hfits : e.Fits x.inFlight)
    (hfound : w.pollWith (fun w _ => w) e late = (polled, w')) : w.Booked place e.context w' := by
  cases pollWith_found hfound with
  | missing hnowhere => cases hnowhere.symm.trans hhere
  | nobody _ _ _ hfound =>
    obtain ⟨haccount, hsame⟩ := hfound.booked
    exact .nothing haccount (by rw [inFlight?_of_same hsame])
  | @earlier x earlier _ _ hthere hmine hawaits hfound =>
    obtain rfl := Option.some.inj (hthere.symm.trans hhere)
    have hrecord : x.inFlight = some earlier := by
      rw [← hawaits, hfits.awaits, hmine]
      rfl
    exact hfound.booked hhome hhere hrecord
  | own hthere hphase hfound =>
    obtain rfl := Option.some.inj (hthere.symm.trans hhere)
    exact hfound.booked hhome hhere (hfits.record_of_own (Execution.own?_eq_some.mpr hphase))

end World
end SandboxPool
