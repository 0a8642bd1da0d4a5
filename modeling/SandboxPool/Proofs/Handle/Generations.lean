import SandboxPool.Proofs.Handle.History
import Mathlib.Logic.Equiv.Basic

/-!
# The same table in another generation

Two tables with the same slots and free lists in different generations are asked the same, up to
the generation in the upper half of every handle. They answer the same, up to the generation. So
whoever begins with a table without buffers cannot tell from its answers how often it was reset,
but for the generation itself.
-/

namespace SandboxPool

namespace HandleTable

/-- A handle with two generations exchanged in its upper half. Its slot stays, and so does a value
that is no handle of either generation. -/
def exchange (g g' : Nat) (handle : Int32) : Int32 :=
  let n := handle.toNatClampNeg
  if 0 < handle then Int32.ofNat (Equiv.swap g g' (n / 65536) * 65536 + n % 65536) else handle

end HandleTable

/-- A failure that is about a handle, if about any, with two generations exchanged. -/
def Failure.exchange (g g' : Nat) (e : Failure) : Failure :=
  match e.cause with
  | .staleHandle handle => { e with cause := .staleHandle (HandleTable.exchange g g' handle) }
  | _ => e

namespace HandleTable

/-- A request with two generations exchanged. -/
def Request.exchange (g g' : Nat) : Request → Request
  | .insert buffer => .insert buffer
  | .resolve handle => .resolve (HandleTable.exchange g g' handle)
  | .discard handle => .discard (HandleTable.exchange g g' handle)
  | .reset => .reset

/-- An answer with two generations exchanged. -/
def Answer.exchange (g g' : Nat) : Answer → Answer
  | .stored handle => .stored (HandleTable.exchange g g' handle)
  | .failed e => .failed (e.exchange g g')
  | answer => answer

/-- The same slots in another generation. -/
def inGeneration (t : HandleTable) (g : Nat) : HandleTable := { t with generation := g }

/-- The answers to requests one after another, the earliest request first. -/
def serveAll : HandleTable → List Request → List Answer
  | _, [] => []
  | t, r :: later => (t.serve r).1 :: serveAll (t.serve r).2 later

/-- A number that generations have. -/
def IsGeneration (g : Nat) : Prop := 0 < g ∧ g ≤ generations

variable {t : HandleTable} {g g' i : Nat} {handle : Int32}

theorem WellFormed.isGeneration (h : t.WellFormed) : IsGeneration t.generation :=
  ⟨h.positive, h.generation⟩

theorem WellFormed.inGeneration (h : t.WellFormed) (hother : IsGeneration g) :
    (t.inGeneration g).WellFormed :=
  ⟨hother.1, hother.2, h.size, h.free, h.nodup⟩

/-! ## Handles -/

/-- Exchanging generations keeps within the numbers that handles have. -/
theorem swap_le (hsmall : g ≤ generations) (hsmall' : g' ≤ generations) {n : Nat}
    (h : n ≤ generations) : Equiv.swap g g' n ≤ generations := by
  rw [Equiv.swap_apply_def]
  split_ifs <;> assumption

/-- The number of an exchanged handle: another upper half, and the same lower half. -/
theorem exchange_toNat (hfirst : IsGeneration g) (hsecond : IsGeneration g')
    (hpositive : 0 < handle) :
    (exchange g g' handle).toNatClampNeg =
      Equiv.swap g g' (handle.toNatClampNeg / 65536) * 65536 + handle.toNatClampNeg % 65536 := by
  have hsmall := Int32.toNatClampNeg_lt handle
  have hupper : handle.toNatClampNeg / 65536 ≤ generations := by
    unfold generations
    omega
  have hswapped := swap_le hfirst.2 hsecond.2 hupper
  unfold exchange
  rw [if_pos hpositive]
  refine Int32.toNatClampNeg_ofNat_of_lt ?_
  unfold generations at hswapped
  omega

/-- No handle is exchanged for a value that is none. -/
theorem exchange_positive (hfirst : IsGeneration g) (hsecond : IsGeneration g') :
    0 < exchange g g' handle ↔ 0 < handle := by
  constructor
  · intro hpositive
    by_contra hnone
    unfold exchange at hpositive
    rw [if_neg hnone] at hpositive
    exact hnone hpositive
  · intro hpositive
    have hnumber := Int32.toNatClampNeg_pos_iff handle |>.mpr hpositive
    rw [← Int32.toNatClampNeg_pos_iff, exchange_toNat hfirst hsecond hpositive]
    -- the generation before the first is not exchanged
    by_cases hlow : handle.toNatClampNeg / 65536 = 0
    · omega
    · have hstays : Equiv.swap g g' (handle.toNatClampNeg / 65536) ≠ 0 := by
        rw [Ne, Equiv.swap_apply_eq_iff, Equiv.swap_apply_of_ne_of_ne]
        · exact hlow
        · exact Nat.ne_of_lt hfirst.1
        · exact Nat.ne_of_lt hsecond.1
      omega

/-- An exchanged handle leads to the same slot. -/
theorem decode?_exchange (h : t.WellFormed) (hother : IsGeneration g) (handle : Int32) :
    (t.inGeneration g).decode? (exchange t.generation g handle) = t.decode? handle := by
  have hpositive : 0 < exchange t.generation g handle ↔ 0 < handle :=
    exchange_positive h.isGeneration hother
  unfold decode?
  by_cases hnone : 0 < handle
  · have hnumber := exchange_toNat h.isGeneration hother hnone
    have hupper : (exchange t.generation g handle).toNatClampNeg / 65536 =
        Equiv.swap t.generation g (handle.toNatClampNeg / 65536) := by omega
    have hlower : (exchange t.generation g handle).toNatClampNeg % 65536 =
        handle.toNatClampNeg % 65536 := by omega
    have hsame : Equiv.swap t.generation g (handle.toNatClampNeg / 65536) = g ↔
        handle.toNatClampNeg / 65536 = t.generation := by
      rw [Equiv.swap_apply_eq_iff, Equiv.swap_apply_right]
    simp only [hupper, hlower, hpositive, inGeneration, hsame]
  · simp [hpositive, hnone]

/-- The handles of slots are exchanged for each other. -/
theorem exchange_encode (h : t.WellFormed) (hother : IsGeneration g) (hsmall : i < capacity) :
    exchange t.generation g (encode t.generation i) = encode g i := by
  have hfound := decode?_exchange h hother (encode t.generation i)
  rw [decode?_encode h hsmall] at hfound
  have hown : _ = encode (t.inGeneration g).generation i := eq_encode hfound
  exact hown

/-! ## Answers -/

theorem get?_exchange (h : t.WellFormed) (hother : IsGeneration g) (handle : Int32) :
    (t.inGeneration g).get? (exchange t.generation g handle) = t.get? handle := by
  unfold get?
  rw [decode?_exchange h hother]
  rfl

/-- A buffer is stored in every generation alike, or refused. -/
theorem insert_exchange (h : t.WellFormed) (hother : IsGeneration g) (buffer : Buffer) :
    (t.inGeneration g).insert buffer = (t.insert buffer).map fun stored =>
      (exchange t.generation g stored.1, stored.2.inGeneration g) := by
  unfold insert inGeneration
  cases hfree : t.free with
  | cons i free' =>
    have hspare := (h.free i).mp (hfree ▸ List.mem_cons_self)
    have hinside := (Array.getElem?_eq_some_iff.mp hspare).1
    have hown := exchange_encode h hother (Nat.lt_of_lt_of_le hinside h.size)
    simp [Except.map, hown]
  | nil =>
    by_cases hroom : t.slots.size < capacity
    · have hown := exchange_encode h hother hroom
      simp [hroom, Except.map, hown]
    · simp [hroom, Except.map, refuse]

theorem discard_exchange (h : t.WellFormed) (hother : IsGeneration g) (handle : Int32) :
    (t.inGeneration g).discard (exchange t.generation g handle) =
      ((t.discard handle).1, (t.discard handle).2.inGeneration g) := by
  unfold discard
  rw [decode?_exchange h hother]
  cases t.decode? handle with
  | none => rfl
  | some i => cases hheld : t.slots[i]?.join <;> simp [inGeneration, hheld]

/-- A table answers in every generation alike. -/
theorem serve_exchange (h : t.WellFormed) (hother : IsGeneration g) {r : Request}
    (hstays : r ≠ .reset) : (t.inGeneration g).serve (r.exchange t.generation g) =
      ((t.serve r).1.exchange t.generation g, (t.serve r).2.inGeneration g) := by
  -- Every request but a reset only compares generations, and both sides are exchanged alike.
  cases r with
  | insert buffer =>
    rcases insert_cases_overflow t buffer with ⟨handle, t', hstored⟩ | hrefused
    · simp [serve, Request.exchange, insert_exchange h hother, hstored, Except.map, Answer.exchange]
    · simp [serve, Request.exchange, insert_exchange h hother, hrefused, Except.map,
        Answer.exchange, Failure.exchange, overflow]
  | resolve handle =>
    have hfound := get?_exchange h hother handle
    cases hheld : t.get? handle with
    | none =>
      rw [hheld] at hfound
      simp [serve, Request.exchange, resolve, hfound, hheld, refuse, Answer.exchange,
        Failure.exchange]
    | some buffer =>
      rw [hheld] at hfound
      simp [serve, Request.exchange, resolve, hfound, hheld, Answer.exchange]
  | discard handle =>
    simp [serve, Request.exchange, discard_exchange h hother, Answer.exchange]
  | reset => exact absurd rfl hstays

theorem insert_generation {buffer : Buffer} {t' : HandleTable}
    (hstored : t.insert buffer = .ok (handle, t')) : t'.generation = t.generation := by
  rcases insert_cases hstored with ⟨i, free, -, -, rfl⟩ | ⟨-, -, -, rfl⟩ <;> rfl

theorem discard_generation (t : HandleTable) (handle : Int32) :
    (t.discard handle).2.generation = t.generation := by
  rcases discard_cases t handle with ⟨-, hkept⟩ | ⟨i, buffer, -, -, hchanged⟩
  · rw [hkept]
  · rw [hchanged]

/-- A table that is not reset stays in its generation. -/
theorem serve_generation (t : HandleTable) {r : Request} (hstays : r ≠ .reset) :
    (t.serve r).2.generation = t.generation := by
  rcases serve_cases t r with ⟨buffer, handle, t', hstored, -, hsame⟩ | ⟨handle, -, hsame⟩ |
    ⟨rfl, -⟩ | ⟨answer, -, hsame⟩
  · rw [hsame]
    exact insert_generation hstored
  · rw [hsame]
    exact discard_generation t handle
  · exact absurd rfl hstays
  · rw [hsame]

/-- Operations in a row leave a table in its generation. -/
theorem Run.generation {t' : HandleTable} {ops : List Op} (hrun : t.Run ops t') :
    t'.generation = t.generation := by
  induction hrun with
  | nil _ => rfl
  | insert hstored _ ih => exact ih.trans (insert_generation hstored)
  | discard _ ih => exact ih.trans (discard_generation _ _)

/-- The same requests have the same answers in every generation, up to the generation in the
handles. -/
theorem serveAll_exchange (h : t.WellFormed) (hother : IsGeneration g) {requests : List Request}
    (hstays : .reset ∉ requests) :
    (t.inGeneration g).serveAll (requests.map (Request.exchange t.generation g)) =
      (t.serveAll requests).map (Answer.exchange t.generation g) := by
  induction requests generalizing t with
  | nil => rfl
  | cons r later ih =>
    have hfirst : r ≠ .reset := fun hsame => hstays (hsame ▸ List.mem_cons_self)
    have hgeneration := serve_generation t hfirst
    have hrest := ih (serve_wellFormed h r) fun hmember => hstays (.tail _ hmember)
    rw [hgeneration] at hrest
    rw [List.map_cons, serveAll, serve_exchange h hother hfirst, hrest]
    rfl

/-! ## How often a table was reset -/

variable {t' : HandleTable} {n : Nat}

/-- Generations go round in a circle. -/
theorem nextGeneration_iterate (h : IsGeneration g) (n : Nat) :
    nextGeneration^[n] g = (g - 1 + n) % generations + 1 := by
  obtain ⟨hpositive, hsmall⟩ := h
  induction n with
  | zero =>
    have hbefore : (g - 1 + 0) % generations = g - 1 := Nat.mod_eq_of_lt (by omega)
    rw [Function.iterate_zero_apply, hbefore]
    omega
  | succ n ih =>
    rw [Function.iterate_succ_apply', ih]
    unfold nextGeneration generations
    split <;> omega

/-- A table is in an earlier generation again only after a whole number of rounds. -/
theorem nextGeneration_iterate_eq_self (h : IsGeneration g) :
    nextGeneration^[n] g = g ↔ generations ∣ n := by
  rw [nextGeneration_iterate h]
  obtain ⟨hpositive, hsmall⟩ := h
  unfold generations at *
  omega

/-- A handle that leads somewhere in one generation leads nowhere in another. -/
theorem get?_of_other_generation (hlive : (t.get? handle).isSome)
    (hother : t'.generation ≠ t.generation) : t'.get? handle = none := by
  have hmine : handle.toNatClampNeg / 65536 = t.generation := by
    obtain ⟨buffer, hlive⟩ := Option.isSome_iff_exists.mp hlive
    obtain ⟨i, hfound, -⟩ := Option.bind_eq_some_iff.mp hlive
    simp only [decode?, Option.ite_none_right_eq_some] at hfound
    exact hfound.1.2.1
  have helsewhere : t'.decode? handle = none := if_neg fun hfound =>
    hother (hfound.2.1.symm.trans hmine)
  rw [get?, helsewhere]
  rfl

end HandleTable
end SandboxPool
