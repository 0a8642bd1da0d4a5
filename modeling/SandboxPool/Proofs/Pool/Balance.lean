import SandboxPool.Proofs.Pool.Scene

/-!
# The queue and the permits balance

A pool keeps a queue of contexts and a number of permits, and changes them at different moments
and in a different order: who borrows gets a permit first and a context later, who gives back
queues the context first and gives the permit later. What ties the two together counts those in
between as well. `Pool.Balanced` says it for a pool and a `Tally` of the tasks that have to do
with it, and every operation of the pool keeps it.
-/

namespace SandboxPool

/-- How many tasks are at which point with the pool at a place. -/
structure Tally where
  /-- They have a permit and have not taken a context yet. -/
  permitted : Nat
  /-- They have queued a context and owe its permit. -/
  due : Nat
  /-- They keep a context out of the queue. -/
  out : Nat
  /-- They keep this context out of the queue. -/
  keeps : ContextId → Nat
  /-- They wait for a permit under this name. -/
  waits : Waiter → Nat

namespace Tally

/-- One task more has a permit. -/
def permit (n : Tally) : Tally := { n with permitted := n.permitted + 1 }

/-- One task more owes a permit. -/
def owing (n : Tally) : Tally := { n with due := n.due + 1 }

/-- One task more keeps a context out of the queue. -/
def keeping (n : Tally) (c : ContextId) : Tally :=
  { n with out := n.out + 1, keeps := fun d => n.keeps d + if d = c then 1 else 0 }

/-- One task more waits for a permit. -/
def waiting (n : Tally) (v : Waiter) : Tally :=
  { n with waits := fun u => n.waits u + if u = v then 1 else 0 }

end Tally

/-- A pool is balanced with the tasks in a tally. -/
structure Pool.Balanced (p : Pool) (n : Tally) : Prop where
  /-- The permits are closed together with the pool. -/
  shut : p.permits.closed = p.closed
  /-- There is a context in the queue for every permit that is free, granted or taken, and for
  every permit that is still due. -/
  balance : p.closed = false →
    p.idle.length = p.permits.free + (p.permits.granted.length + n.permitted) + n.due
  /-- Every context is in the queue or out of it. -/
  whole : p.closed = false → p.idle.length + n.out = p.capacity
  /-- No more contexts are out than there are. -/
  bounded : n.out ≤ p.capacity
  /-- A closed pool has no idle contexts. -/
  emptied : p.closed = true → p.idle = []
  /-- A context is in one place at a time. -/
  apart : ∀ c, p.idle.count c + n.keeps c ≤ 1
  /-- Nobody is in line while a permit is free. -/
  starved : p.permits.line ≠ [] → p.permits.free = 0
  /-- Those who wait are in line or have been granted a permit. -/
  waiting : ∀ v, p.permits.line.count v + p.permits.granted.count v = n.waits v
  /-- Nobody else waits under the same name. -/
  single : ∀ v, n.waits v ≤ 1

/-! ## Counting in lists -/

/-- How often something stands in a list that has grown by one. -/
theorem count_concat (l : List Nat) (u v : Nat) :
    (l ++ [v]).count u = l.count u + if u = v then 1 else 0 := by
  rw [List.count_append, List.count_singleton]
  by_cases hu : u = v
  · simp [hu]
  · simp [hu, Ne.symm hu]

theorem count_cons_eq (l : List Nat) (u v : Nat) :
    (v :: l).count u = l.count u + if u = v then 1 else 0 := by
  rw [List.count_cons]
  by_cases hu : u = v
  · simp [hu]
  · simp [hu, Ne.symm hu]

theorem count_erase_add {l : List Nat} {v : Nat} (h : v ∈ l) (u : Nat) :
    (l.erase v).count u + (if u = v then 1 else 0) = l.count u := by
  rw [← count_cons_eq]
  exact (List.perm_cons_erase h).symm.count_eq u

/-! ## One permit more -/

namespace Permits

/-- One permit more is free, or granted to the first in line. -/
theorem add_count (p : Permits) :
    p.add.free + p.add.granted.length = p.free + p.granted.length + 1 := by
  unfold add
  cases p.line with
  | nil => simp only; omega
  | cons w line => simp only [List.length_append, List.length_singleton]; omega

/-- Whoever waited waits still. -/
theorem add_waiting (p : Permits) (v : Waiter) :
    p.add.line.count v + p.add.granted.count v = p.line.count v + p.granted.count v := by
  unfold add
  cases hl : p.line with
  | nil => simp only
  | cons w line => simp only [List.count_append, List.count_cons, List.count_nil]; omega

/-- Permits stay scarce as long as somebody is in line. -/
theorem add_starved {p : Permits} (h : p.line ≠ [] → p.free = 0) :
    p.add.line ≠ [] → p.add.free = 0 := by
  unfold add
  cases hl : p.line with
  | nil => simp
  | cons w line => exact fun _ => h (by simp [hl])

@[simp] theorem add_closed (p : Permits) : p.add.closed = p.closed := by
  unfold add
  cases p.line <;> rfl

end Permits

namespace Pool.Balanced

variable {p p' : Pool} {n : Tally} {c : ContextId} {v : Waiter}

/-- Counters do not matter. -/
theorem count (h : p.Balanced n) (f : Counters → Counters) : (p.count f).Balanced n :=
  { h with }

/-! ## Borrowing -/

/-- A permit is given at once if one is free. -/
theorem request_cases (h : p.Balanced n) (v : Waiter) :
    (p.closed = true ∧ p.request v = (.closed, p)) ∨
      (0 < p.permits.free ∧ p.request v =
        (.given, { p with permits := { p.permits with free := p.permits.free - 1 } })) ∨
      (p.permits.free = 0 ∧ p.request v =
        (.wait, { p with permits := { p.permits with line := p.permits.line ++ [v] } })) := by
  unfold Pool.request Permits.request
  by_cases hclosed : p.closed = true
  · exact .inl ⟨hclosed, if_pos hclosed⟩
  · have hopened : ¬ p.permits.closed = true := h.shut ▸ hclosed
    rw [if_neg hclosed, if_neg hopened]
    by_cases hfree : 0 < p.permits.free
    · rw [if_pos hfree]
      exact .inr (.inl ⟨hfree, rfl⟩)
    · rw [if_neg hfree]
      exact .inr (.inr ⟨by omega, rfl⟩)

/-- A permit that is given is one less that is free and one more that is held. -/
theorem request_given (h : p.Balanced n) (hfound : p.request v = (.given, p')) :
    p'.Balanced n.permit := by
  rcases h.request_cases v with ⟨-, hgot⟩ | ⟨hfree, hgot⟩ | ⟨-, hgot⟩ <;>
    obtain ⟨hanswer, rfl⟩ := Prod.mk.inj (hgot.symm.trans hfound)
  · cases hanswer
  · exact { h with
      balance := fun ho => by have := h.balance ho; simp only [Tally.permit]; omega
      starved := fun hline => by have := h.starved hline; omega }
  · cases hanswer

/-- Whoever has to wait is in line, and was not before. -/
theorem request_wait (h : p.Balanced n) (hfresh : n.waits v = 0)
    (hfound : p.request v = (.wait, p')) : p'.Balanced (n.waiting v) := by
  rcases h.request_cases v with ⟨-, hgot⟩ | ⟨-, hgot⟩ | ⟨hnone, hgot⟩ <;>
    obtain ⟨hanswer, rfl⟩ := Prod.mk.inj (hgot.symm.trans hfound)
  · cases hanswer
  · cases hanswer
  · refine { h with starved := fun _ => hnone, waiting := fun u => ?_, single := fun u => ?_ }
    · have := h.waiting u
      rw [count_concat]
      simp only [Tally.waiting]
      omega
    · -- nobody waits under the new name yet
      have := h.single u
      by_cases hu : u = v
      · subst hu
        simp [Tally.waiting, hfresh]
      · simpa [Tally.waiting, hu] using this

/-- One who is turned away changes nothing. -/
theorem request_closed (h : p.Balanced n) (hfound : p.request v = (.closed, p')) : p' = p := by
  rcases h.request_cases v with ⟨-, hgot⟩ | ⟨-, hgot⟩ | ⟨-, hgot⟩ <;>
    obtain ⟨hanswer, rfl⟩ := Prod.mk.inj (hgot.symm.trans hfound)
  · rfl
  · cases hanswer
  · cases hanswer

/-- One who looks again is given the permit that was granted to them. -/
theorem look_cases (h : p.Balanced n) (v : Waiter) :
    (p.closed = true ∧ p.look v = (.closed, { p with permits := { p.permits with
        line := p.permits.line.erase v, granted := p.permits.granted.erase v } })) ∨
      (v ∈ p.permits.granted ∧ p.look v =
        (.given, { p with permits := { p.permits with granted := p.permits.granted.erase v } })) ∨
      (v ∉ p.permits.granted ∧ p.look v = (.wait, p)) := by
  unfold Pool.look Permits.look
  by_cases hclosed : p.permits.closed = true
  · rw [if_pos hclosed]
    exact .inl ⟨h.shut ▸ hclosed, rfl⟩
  · rw [if_neg hclosed]
    by_cases hgranted : v ∈ p.permits.granted
    · rw [if_pos (List.contains_iff_mem.mpr hgranted)]
      exact .inr (.inl ⟨hgranted, rfl⟩)
    · rw [if_neg fun hthere => hgranted (List.contains_iff_mem.mp hthere)]
      exact .inr (.inr ⟨hgranted, rfl⟩)

/-- Where somebody waits, they are in line or have been granted a permit, but not both. -/
theorem counts_of_waiting (h : p.Balanced (n.waiting v)) :
    p.permits.line.count v + p.permits.granted.count v = 1 ∧ n.waits v = 0 := by
  have hone := h.single v
  have hall := h.waiting v
  simp only [Tally.waiting, if_true] at hone hall
  omega

/-- A permit that was granted is taken up. -/
theorem look_given (h : p.Balanced (n.waiting v)) (hfound : p.look v = (.given, p')) :
    p'.Balanced n.permit := by
  rcases h.look_cases v with ⟨-, hgot⟩ | ⟨hgranted, hgot⟩ | ⟨-, hgot⟩ <;>
    obtain ⟨hanswer, rfl⟩ := Prod.mk.inj (hgot.symm.trans hfound)
  · cases hanswer
  · obtain ⟨hone, hnone⟩ := h.counts_of_waiting
    have hlength := List.length_erase_of_mem hgranted
    have hpos := List.length_pos_of_mem hgranted
    -- the permit is no longer promised: the task has it
    refine { h with balance := fun ho => ?_, waiting := fun u => ?_, single := fun u => ?_ }
    · have := h.balance ho
      simp only [Tally.permit, Tally.waiting] at this ⊢
      omega
    · have := h.waiting u
      have herased := count_erase_add hgranted u
      simp only [Tally.waiting, Tally.permit] at this ⊢
      omega
    · have := h.single u
      simp only [Tally.waiting, Tally.permit] at this ⊢
      omega
  · cases hanswer

/-- One who waits on changes nothing. -/
theorem look_wait (h : p.Balanced n) (hfound : p.look v = (.wait, p')) : p' = p := by
  rcases h.look_cases v with ⟨-, hgot⟩ | ⟨-, hgot⟩ | ⟨-, hgot⟩ <;>
    obtain ⟨hanswer, rfl⟩ := Prod.mk.inj (hgot.symm.trans hfound)
  · cases hanswer
  · cases hanswer
  · rfl

/-- One who waits leaves the line, or what was granted to them. -/
theorem count_leave (h : p.Balanced (n.waiting v)) (u : Waiter) :
    (p.permits.line.erase v).count u + (p.permits.granted.erase v).count u = n.waits u := by
  obtain ⟨hone, hnone⟩ := h.counts_of_waiting
  have := h.waiting u
  simp only [Tally.waiting] at this
  -- it is in one of the two lists, once, so one of the erasures changes nothing
  by_cases hl : v ∈ p.permits.line
  · have := count_erase_add hl u
    have := List.count_pos_iff.mpr hl
    have hg : v ∉ p.permits.granted := fun hg => by
      have := List.count_pos_iff.mpr hg
      omega
    rw [List.erase_of_not_mem hg]
    omega
  · have hg : v ∈ p.permits.granted := by
      rw [List.count_eq_zero.mpr hl] at hone
      exact List.count_pos_iff.mp (by omega)
    have := count_erase_add hg u
    rw [List.erase_of_not_mem hl]
    omega

/-- One who is turned away while waiting leaves the line. -/
theorem look_closed (h : p.Balanced (n.waiting v)) (hfound : p.look v = (.closed, p')) :
    p'.Balanced n := by
  rcases h.look_cases v with ⟨hclosed, hgot⟩ | ⟨-, hgot⟩ | ⟨-, hgot⟩ <;>
    obtain ⟨hanswer, rfl⟩ := Prod.mk.inj (hgot.symm.trans hfound)
  · refine { h with
      balance := fun ho => absurd ho (by simp [hclosed])
      starved := fun hline => h.starved fun hnone => hline (by simp [hnone])
      waiting := h.count_leave, single := fun u => ?_ }
    have := h.single u
    simp only [Tally.waiting] at this
    omega
  · cases hanswer
  · cases hanswer

/-- One who gives up hands a permit that was granted to them on. -/
theorem giveUp (h : p.Balanced (n.waiting v)) : (p.giveUp v).Balanced n := by
  have hsingle : ∀ u, n.waits u ≤ 1 := by
    intro u
    have := h.single u
    simp only [Tally.waiting] at this
    omega
  obtain ⟨hone, hnone⟩ := h.counts_of_waiting
  unfold Pool.giveUp Permits.giveUp
  by_cases hg : v ∈ p.permits.granted
  · -- the promise is gone, and its permit is added again
    have hlength := List.length_erase_of_mem hg
    have hpos := List.length_pos_of_mem hg
    have hl : v ∉ p.permits.line := fun hl => by
      have := List.count_pos_iff.mpr hl
      have := List.count_pos_iff.mpr hg
      omega
    simp only [List.contains_eq_mem, hg, decide_true, if_true]
    refine { h with
      shut := by rw [Permits.add_closed]; exact h.shut
      balance := fun ho => ?_
      starved := Permits.add_starved h.starved
      waiting := fun u => ?_
      single := hsingle }
    · have := h.balance ho
      have := Permits.add_count { p.permits with granted := p.permits.granted.erase v }
      simp only [Tally.waiting] at *
      omega
    · have := h.count_leave u
      rw [Permits.add_waiting]
      rwa [List.erase_of_not_mem hl] at this
  · simp only [List.contains_eq_mem, hg, decide_false, Bool.false_eq_true, if_false]
    refine { h with
      starved := fun hline => h.starved fun hnone => hline (by simp [hnone])
      waiting := fun u => ?_
      single := hsingle }
    have := h.count_leave u
    rwa [List.erase_of_not_mem hg] at this

/-- A permit is exchanged for a context of the queue. -/
theorem takeIdle_ok (h : p.Balanced n.permit) (hfound : p.takeIdle = (.ok c, p')) :
    p'.Balanced (n.keeping c) := by
  unfold Pool.takeIdle at hfound
  cases hi : p.idle with
  | nil => simp [hi, refuse] at hfound
  | cons d idle =>
    simp only [hi, Prod.mk.injEq, Except.ok.injEq] at hfound
    obtain ⟨rfl, rfl⟩ := hfound
    -- a pool that has an idle context was not closed
    have hopened : p.closed = false := by
      cases hc : p.closed with
      | false => rfl
      | true => simp [h.emptied hc] at hi
    have hwhole := h.whole hopened
    rw [hi, List.length_cons] at hwhole
    refine { h with
      balance := fun ho => ?_
      whole := fun _ => ?_
      bounded := ?_
      emptied := fun hclosed => absurd hclosed (by simp [hopened])
      apart := fun e => ?_ }
    · have := h.balance ho
      rw [hi, List.length_cons] at this
      simp only [Tally.permit, Tally.keeping] at this ⊢
      omega
    · simp only [Tally.permit, Tally.keeping] at hwhole ⊢
      omega
    · simp only [Tally.permit, Tally.keeping] at hwhole ⊢
      omega
    · have := h.apart e
      rw [hi, count_cons_eq] at this
      simp only [Tally.permit, Tally.keeping] at this ⊢
      omega

/-- One who has a permit finds a context, unless the pool was closed. -/
theorem takeIdle_of_open (h : p.Balanced n.permit) (hopened : p.closed = false) :
    ∃ c p', p.takeIdle = (.ok c, p') := by
  unfold Pool.takeIdle
  cases hi : p.idle with
  | nil =>
    -- an empty queue has no permit that anyone could have
    have := h.balance hopened
    rw [hi] at this
    simp only [Tally.permit, List.length_nil] at this
    omega
  | cons c idle => exact ⟨c, _, rfl⟩

/-- At a pool that was closed a permit is worth nothing. -/
theorem takeIdle_of_closed (h : p.Balanced n.permit) (hclosed : p.closed = true) :
    p.takeIdle = (refuse .shuttingDown, p) := by
  simp [Pool.takeIdle, h.emptied hclosed, hclosed]

/-- A permit that gets no context is spent. -/
theorem takeIdle_error (h : p.Balanced n.permit) {e : Failure}
    (hfound : p.takeIdle = (.error e, p')) : p'.Balanced n := by
  cases hclosed : p.closed with
  | false =>
    obtain ⟨c, p'', hok⟩ := h.takeIdle_of_open hclosed
    simp [hok] at hfound
  | true =>
    rw [h.takeIdle_of_closed hclosed] at hfound
    obtain ⟨-, rfl⟩ := Prod.mk.inj hfound
    exact { h with balance := fun ho => absurd ho (by simp [hclosed]) }

/-! ## Giving back -/

/-- A context that comes back is queued, unless the pool was closed. -/
theorem pushIdle_eq (h : p.Balanced (n.keeping c)) :
    p.pushIdle c =
      if p.closed then (.disposed, p) else (.queued, { p with idle := p.idle ++ [c] }) := by
  unfold Pool.pushIdle
  cases hclosed : p.closed with
  | true => rfl
  | false =>
    -- the context itself is missing from the queue
    have := h.whole hclosed
    simp only [Tally.keeping] at this
    have hroom : ¬ p.capacity ≤ p.idle.length := by omega
    simp [hroom]

/-- A context in the queue is owed a permit. -/
theorem pushIdle_queued (h : p.Balanced (n.keeping c)) (hfound : p.pushIdle c = (.queued, p')) :
    p'.Balanced n.owing := by
  rw [h.pushIdle_eq] at hfound
  cases hclosed : p.closed with
  | true => simp [hclosed] at hfound
  | false =>
    -- Nothing is added up but lengths: the context moves from the tally into the queue.
    simp only [hclosed, Bool.false_eq_true, if_false, Prod.mk.injEq, true_and] at hfound
    subst hfound
    have hbounded := h.bounded
    refine { h with
      shut := h.shut.trans hclosed
      balance := fun _ => ?_
      whole := fun _ => ?_
      bounded := ?_
      emptied := fun hc => absurd hc (by simp)
      apart := fun d => ?_ }
    · have := h.balance hclosed
      simp only [List.length_append, List.length_singleton, Tally.keeping, Tally.owing] at this ⊢
      omega
    · have := h.whole hclosed
      simp only [List.length_append, List.length_singleton, Tally.keeping, Tally.owing] at this ⊢
      omega
    · simp only [Tally.keeping, Tally.owing] at hbounded ⊢
      omega
    · have := h.apart d
      rw [count_concat]
      simp only [Tally.keeping, Tally.owing] at this ⊢
      omega

/-- A context that a closed pool disposes of is out of its accounts. -/
theorem pushIdle_disposed (h : p.Balanced (n.keeping c))
    (hfound : p.pushIdle c = (.disposed, p')) : p'.Balanced n := by
  rw [h.pushIdle_eq] at hfound
  cases hclosed : p.closed with
  | false => simp [hclosed] at hfound
  | true =>
    simp only [hclosed, if_true, Prod.mk.injEq, true_and] at hfound
    subst hfound
    have hbounded := h.bounded
    -- A closed pool owes no balance, so only the bounds are left to show.
    refine { h with
      balance := fun ho => absurd ho (by simp [hclosed])
      whole := fun ho => absurd ho (by simp [hclosed])
      bounded := ?_
      apart := fun d => ?_ }
    · simp only [Tally.keeping] at hbounded
      omega
    · have := h.apart d
      simp only [Tally.keeping] at this
      omega

/-- The permit of a context in the queue is free, or granted to the first in line. -/
theorem addPermit (h : p.Balanced n.owing) : p.addPermit.Balanced n where
  shut := by
    unfold Pool.addPermit
    rw [Permits.add_closed]
    exact h.shut
  balance := by
    intro ho
    -- what is no longer due is free now, or promised
    have := h.balance ho
    have := Permits.add_count p.permits
    simp only [Pool.addPermit, Tally.owing] at *
    omega
  whole := h.whole
  bounded := h.bounded
  emptied := h.emptied
  apart := h.apart
  starved := Permits.add_starved h.starved
  waiting := by
    intro v
    have := h.waiting v
    unfold Pool.addPermit
    rwa [Permits.add_waiting]
  single := h.single

/-! ## Closing -/

/-- Closing a pool disposes of the queue and sends everyone away. -/
theorem close (h : p.Balanced n) {disposed : List ContextId}
    (hfound : p.close? = some (disposed, p')) : p'.Balanced n := by
  unfold Pool.close? at hfound
  cases hclosed : p.closed with
  | true => simp [hclosed] at hfound
  | false =>
    simp only [hclosed, Bool.false_eq_true, if_false, Option.some.injEq, Prod.mk.injEq] at hfound
    obtain ⟨-, rfl⟩ := hfound
    refine { h with
      shut := rfl
      balance := fun ho => absurd ho (by simp)
      whole := fun ho => absurd ho (by simp)
      emptied := fun _ => rfl
      apart := fun c => ?_ }
    have := h.apart c
    simp only [List.count_nil]
    omega

end Pool.Balanced

end SandboxPool
