import SandboxPool.Handle.Table

/-!
# Handle tables as maps

A `HandleTable` is an array of slots with a list of the free ones. Seen through `get?` it is a map
from handles to buffers: storing a buffer adds a handle that was not live, dropping one removes
it, and neither touches any other handle. This holds of every table that was ever made
(`HandleTable.Reachable`), because its free list names free slots only, each once.
-/

namespace SandboxPool
namespace HandleTable

/-- The tables that come of an empty one. -/
inductive Reachable : HandleTable → Prop where
  | empty : Reachable empty
  | insert {t : HandleTable} {buffer handle t'} (hbefore : Reachable t)
      (hstored : t.insert buffer = .ok (handle, t')) : Reachable t'
  | discard {t : HandleTable} (hbefore : Reachable t) (handle : Int32) :
      Reachable (t.discard handle).2
  | reset {t : HandleTable} (hbefore : Reachable t) : Reachable t.reset

/-- The generation and the slots of a table are such that handles are positive, and the free list
names the free slots, each once. -/
structure WellFormed (t : HandleTable) : Prop where
  positive : 0 < t.generation
  generation : t.generation ≤ generations
  size : t.slots.size ≤ capacity
  free : ∀ i, i ∈ t.free ↔ t.slots[i]? = some none
  nodup : t.free.Nodup

variable {t t' : HandleTable} {buffer : Buffer} {content : Option Buffer} {handle other : Int32}
  {i : Nat}

/-! ## Handles and slots -/

theorem encode_toNat (hgeneration : t.generation ≤ generations) (hsmall : i < capacity) :
    (encode t.generation i).toNatClampNeg = t.generation * 65536 + (i + 1) := by
  unfold encode
  refine Int32.toNatClampNeg_ofNat_of_lt ?_
  unfold generations at hgeneration
  unfold capacity at hsmall
  omega

/-- A handle leads back to its slot. -/
theorem decode?_encode (h : t.WellFormed) (hsmall : i < capacity) :
    t.decode? (encode t.generation i) = some i := by
  have hnumber := encode_toNat h.generation hsmall
  have hpositive : 0 < encode t.generation i := by
    have hnumber : (encode t.generation i).toInt.toNat = _ := hnumber
    rw [Int32.lt_iff_toInt_lt, Int32.toInt_zero]
    omega
  have hbelow : i + 1 < 65536 := by
    unfold capacity at hsmall
    omega
  unfold decode?
  rw [hnumber]
  have hgeneration : (t.generation * 65536 + (i + 1)) / 65536 = t.generation := by omega
  have hslot : (t.generation * 65536 + (i + 1)) % 65536 = i + 1 := by omega
  simp [hpositive, hgeneration, hslot]

/-- Only one handle leads to a slot. -/
theorem eq_encode (hfound : t.decode? handle = some i) : handle = encode t.generation i := by
  unfold decode? at hfound
  simp only [Option.ite_none_right_eq_some, Option.some.injEq] at hfound
  obtain ⟨⟨hpositive, hgeneration, hslot⟩, hindex⟩ := hfound
  have hnumber : handle.toNatClampNeg = t.generation * 65536 + (i + 1) := by omega
  rw [encode, ← hnumber]
  exact (Int32.ofNat_toNatClampNeg handle (Int32.le_of_lt hpositive)).symm

/-- A handle leads to a slot of its table only if it is the slot's own. -/
theorem decode?_eq_some (h : t.WellFormed) (hsmall : i < capacity) :
    t.decode? handle = some i ↔ handle = encode t.generation i :=
  ⟨eq_encode, fun hsame => hsame ▸ decode?_encode h hsmall⟩

/-! ## The buffer under a handle -/

/-- Where the content of one slot changes, what its handle leads to changes, and nothing else. -/
theorem get?_change (h : t.WellFormed) (hsmall : i < capacity)
    (hgeneration : t'.generation = t.generation)
    (hslots : ∀ j, t'.slots[j]?.join = if j = i then content else t.slots[j]?.join) :
    t'.get? other = if other = encode t.generation i then content else t.get? other := by
  have hdecodes : t'.decode? other = t.decode? other := by
    unfold decode?
    rw [hgeneration]
  unfold get?
  rw [hdecodes]
  -- handles of one table lead to different slots
  by_cases hsame : other = encode t.generation i
  · rw [if_pos hsame, (decode?_eq_some h hsmall).mpr hsame, Option.bind_some, hslots, if_pos rfl]
  · rw [if_neg hsame]
    cases hfound : t.decode? other with
    | none => rfl
    | some j =>
      rw [Option.bind_some, Option.bind_some, hslots, if_neg]
      rintro rfl
      exact hsame (eq_encode hfound)

theorem resolve_of_live (hlive : t.get? handle = some buffer) : t.resolve handle = .ok buffer := by
  unfold resolve
  rw [hlive]

/-- A handle that leads nowhere is refused as stale. -/
theorem resolve_of_dead (hdead : t.get? handle = none) :
    t.resolve handle = refuse (.staleHandle handle) := by
  unfold resolve
  rw [hdead]

theorem live_of_resolve (hfound : t.resolve handle = .ok buffer) :
    t.get? handle = some buffer := by
  cases hlive : t.get? handle with
  | none =>
    rw [resolve_of_dead hlive] at hfound
    cases hfound
  | some other =>
    rw [resolve_of_live hlive] at hfound
    rw [Except.ok.inj hfound]

/-! ## Storing -/

/-- A buffer goes into a free slot, or into a new one at the end. -/
theorem insert_cases (hstored : t.insert buffer = .ok (handle, t')) :
    (∃ i free, t.free = i :: free ∧ handle = encode t.generation i ∧
        t' = { t with slots := t.slots.setIfInBounds i (some buffer), free }) ∨
      (t.free = [] ∧ t.slots.size < capacity ∧ handle = encode t.generation t.slots.size ∧
        t' = { t with slots := t.slots.push (some buffer) }) := by
  unfold insert at hstored
  split at hstored
  · next i free hfound =>
    obtain ⟨rfl, rfl⟩ := Prod.mk.inj (Except.ok.inj hstored)
    exact .inl ⟨i, free, hfound, rfl, rfl⟩
  · next hfound =>
    split at hstored
    · next hroom =>
      obtain ⟨rfl, rfl⟩ := Prod.mk.inj (Except.ok.inj hstored)
      exact .inr ⟨hfound, hroom, rfl, rfl⟩
    · cases hstored

/-- Storing keeps a table in order. -/
theorem insert_wellFormed (h : t.WellFormed) (hstored : t.insert buffer = .ok (handle, t')) :
    t'.WellFormed := by
  -- Either a free slot is filled, the first of the list, or one is added at the end.
  rcases insert_cases hstored with ⟨i, free, hfound, -, rfl⟩ | ⟨hfound, hroom, -, rfl⟩
  · have hdistinct := h.nodup
    rw [hfound, List.nodup_cons] at hdistinct
    have hinside : i < t.slots.size := by
      have hspare := (h.free i).mp (hfound ▸ List.mem_cons_self)
      exact (Array.getElem?_eq_some_iff.mp hspare).1
    refine ⟨h.positive, h.generation, ?_, fun j => ?_, hdistinct.2⟩
    · rw [Array.size_setIfInBounds]
      exact h.size
    · rw [Array.getElem?_setIfInBounds]
      by_cases hsame : i = j
      · subst hsame
        simp [hinside, hdistinct.1]
      · rw [if_neg hsame, ← h.free j, hfound, List.mem_cons]
        exact ⟨.inr, Or.rec (fun hequal => (hsame hequal.symm).elim) id⟩
  · refine ⟨h.positive, h.generation, ?_, fun j => ?_, h.nodup⟩
    · rw [Array.size_push]
      exact hroom
    · rw [Array.getElem?_push]
      by_cases hlast : j = t.slots.size
      · simp [hlast, hfound]
      · rw [if_neg hlast]
        exact h.free j

/-- The handle of a stored buffer was not live, and leads to the buffer; every other handle leads
where it did. -/
theorem insert_get? (h : t.WellFormed) (hstored : t.insert buffer = .ok (handle, t')) :
    t.get? handle = none ∧
      ∀ other, t'.get? other = if other = handle then some buffer else t.get? other := by
  -- In both ways one slot is filled that held nothing, and this is all that matters.
  have hfilled {i : Nat} (hsmall : i < capacity) (hspare : t.slots[i]?.join = none)
      (hgeneration : t'.generation = t.generation)
      (hslots : ∀ j, t'.slots[j]?.join = if j = i then some buffer else t.slots[j]?.join) :
      t.get? (encode t.generation i) = none ∧ ∀ other,
        t'.get? other = if other = encode t.generation i then some buffer else t.get? other := by
    refine ⟨?_, fun other => get?_change h hsmall hgeneration hslots⟩
    unfold get?
    rw [decode?_encode h hsmall, Option.bind_some, hspare]
  rcases insert_cases hstored with ⟨i, free, hfound, rfl, rfl⟩ | ⟨hfound, hroom, rfl, rfl⟩
  · have hspare := (h.free i).mp (hfound ▸ List.mem_cons_self)
    have hinside : i < t.slots.size := (Array.getElem?_eq_some_iff.mp hspare).1
    refine hfilled (Nat.lt_of_lt_of_le hinside h.size) (by rw [hspare]; rfl) rfl fun j => ?_
    rw [Array.getElem?_setIfInBounds]
    by_cases hsame : i = j
    · subst hsame
      simp [hinside]
    · rw [if_neg hsame, if_neg (Ne.symm hsame)]
  · have hspare : t.slots[t.slots.size]? = none := Array.getElem?_eq_none (Nat.le_refl _)
    refine hfilled hroom (by rw [hspare]; rfl) rfl fun j => ?_
    rw [Array.getElem?_push]
    by_cases hlast : j = t.slots.size
    · simp [hlast]
    · rw [if_neg hlast, if_neg hlast]

/-- While fewer buffers are live than may be, there is a place for another one. -/
theorem insert_of_room (h : t.WellFormed) (hroom : t.size < capacity) (buffer : Buffer) :
    ∃ handle t', t.insert buffer = .ok (handle, t') := by
  unfold insert
  cases hfound : t.free with
  | cons i free => exact ⟨_, _, rfl⟩
  | nil =>
    -- without a free slot all slots are in use
    have hfull : t.slots.countP Option.isSome = t.slots.size := by
      rw [Array.countP_eq_size]
      intro content hused
      obtain ⟨i, hthere⟩ := Array.getElem?_of_mem hused
      cases content with
      | some buffer => rfl
      | none =>
        have hspare := (h.free i).mpr hthere
        rw [hfound] at hspare
        cases hspare
    have hsmall : t.slots.size < capacity := hfull ▸ hroom
    dsimp only
    rw [if_pos hsmall]
    exact ⟨_, _, rfl⟩

/-! ## Dropping -/

/-- A handle that is not live is ignored; the slot of one that is becomes free. -/
theorem discard_cases (t : HandleTable) (handle : Int32) :
    (t.get? handle = none ∧ t.discard handle = (false, t)) ∨
      ∃ i buffer, handle = encode t.generation i ∧ t.slots[i]? = some (some buffer) ∧
        t.discard handle =
          (true, { t with slots := t.slots.setIfInBounds i none, free := i :: t.free }) := by
  unfold discard get?
  cases hfound : t.decode? handle with
  | none => exact .inl ⟨rfl, rfl⟩
  | some i =>
    rw [Option.bind_some]
    cases hheld : t.slots[i]?.join with
    | none => exact .inl ⟨rfl, by simp [hheld]⟩
    | some buffer =>
      have hused : t.slots[i]? = some (some buffer) := Option.join_eq_some_iff.mp hheld
      exact .inr ⟨i, buffer, eq_encode hfound, hused, by simp [hused]⟩

/-- So does dropping, whatever handle is given. -/
theorem discard_wellFormed (h : t.WellFormed) (handle : Int32) :
    (t.discard handle).2.WellFormed := by
  rcases discard_cases t handle with ⟨-, hsame⟩ | ⟨i, buffer, -, hused, hchanged⟩
  · rw [hsame]
    exact h
  · rw [hchanged]
    have hinside : i < t.slots.size := (Array.getElem?_eq_some_iff.mp hused).1
    -- a slot in use is not in the free list
    have hfresh : i ∉ t.free := by
      rw [h.free i, hused]
      simp
    refine ⟨h.positive, h.generation, ?_, fun j => ?_, List.nodup_cons.mpr ⟨hfresh, h.nodup⟩⟩
    · rw [Array.size_setIfInBounds]
      exact h.size
    · rw [Array.getElem?_setIfInBounds, List.mem_cons]
      by_cases hsame : i = j
      · subst hsame
        simp [hinside]
      · rw [if_neg hsame, ← h.free j]
        exact ⟨Or.rec (fun hequal => (hsame hequal.symm).elim) id, .inr⟩

/-- A dropped handle leads nowhere; every other handle leads where it did. -/
theorem discard_get? (h : t.WellFormed) (handle other : Int32) :
    (t.discard handle).2.get? other = if other = handle then none else t.get? other := by
  rcases discard_cases t handle with ⟨hdead, hsame⟩ | ⟨i, buffer, rfl, hused, hchanged⟩
  · rw [hsame]
    by_cases hequal : other = handle
    · rw [if_pos hequal, hequal, hdead]
    · rw [if_neg hequal]
  · rw [hchanged]
    have hinside : i < t.slots.size := (Array.getElem?_eq_some_iff.mp hused).1
    refine get?_change h (Nat.lt_of_lt_of_le hinside h.size) rfl fun j => ?_
    rw [Array.getElem?_setIfInBounds]
    by_cases hsame : i = j
    · subst hsame
      simp [hinside]
    · rw [if_neg hsame, if_neg (Ne.symm hsame)]

/-! ## All tables -/

/-- Generations go round, and never through zero. -/
theorem nextGeneration_bounds (generation : Nat) :
    0 < nextGeneration generation ∧ nextGeneration generation ≤ generations := by
  unfold nextGeneration generations
  split <;> omega

/-- A table without slots. -/
theorem wellFormed_of_generation {generation : Nat} (hpositive : 0 < generation)
    (hsmall : generation ≤ generations) : WellFormed ⟨generation, #[], []⟩ :=
  ⟨hpositive, hsmall, Nat.zero_le _, fun i => by simp, .nil⟩

theorem Reachable.wellFormed (h : t.Reachable) : t.WellFormed := by
  induction h with
  | empty => exact wellFormed_of_generation (by decide) (by decide)
  | insert _ hstored ih => exact insert_wellFormed ih hstored
  | discard _ handle ih => exact discard_wellFormed ih handle
  | reset _ ih =>
    obtain ⟨hpositive, hsmall⟩ := nextGeneration_bounds _
    exact wellFormed_of_generation hpositive hsmall

/-! ## Many operations in a row -/

/-- Something that is done to a table. -/
inductive Op where
  /-- A buffer is stored and gets a handle. -/
  | insert (buffer : Buffer) (handle : Int32)
  /-- A handle is dropped, live or not. -/
  | discard (handle : Int32)
  deriving Repr, DecidableEq

/-- What operations in a row make of a table. -/
inductive Run : HandleTable → List Op → HandleTable → Prop where
  | nil (t : HandleTable) : Run t [] t
  | insert {t buffer handle t' ops t''} (hstored : t.insert buffer = .ok (handle, t'))
      (hrest : Run t' ops t'') : Run t (.insert buffer handle :: ops) t''
  | discard {t handle ops t'} (hrest : Run (t.discard handle).2 ops t') :
      Run t (.discard handle :: ops) t'

namespace Run

variable {t'' : HandleTable} {ops rest : List Op}

theorem append (h : t.Run ops t') (h' : t'.Run rest t'') : t.Run (ops ++ rest) t'' := by
  induction h with
  | nil _ => exact h'
  | insert hstored _ ih => exact .insert hstored (ih h')
  | discard _ ih => exact .discard (ih h')

/-- A run may be stopped in between. -/
theorem split (h : t.Run (ops ++ rest) t'') : ∃ t', t.Run ops t' ∧ t'.Run rest t'' := by
  induction ops generalizing t with
  | nil => exact ⟨t, .nil t, h⟩
  | cons op ops ih =>
    cases h with
    | insert hstored hfollowing =>
      obtain ⟨t', hbefore, hafter⟩ := ih hfollowing
      exact ⟨t', .insert hstored hbefore, hafter⟩
    | discard hfollowing =>
      obtain ⟨t', hbefore, hafter⟩ := ih hfollowing
      exact ⟨t', .discard hbefore, hafter⟩

theorem wellFormed (hrun : t.Run ops t') (h : t.WellFormed) : t'.WellFormed := by
  induction hrun with
  | nil _ => exact h
  | insert hstored _ ih => exact ih (insert_wellFormed h hstored)
  | discard _ ih => exact ih (discard_wellFormed h _)

/-- A live handle that is not dropped leads where it did. -/
theorem get? (hrun : t.Run ops t') (h : t.WellFormed) (hlive : t.get? handle = some buffer)
    (hheld : .discard handle ∉ ops) : t'.get? handle = some buffer := by
  induction hrun with
  | nil _ => exact hlive
  | insert hstored _ ih =>
    refine ih (insert_wellFormed h hstored) ?_ fun hmember => hheld (.tail _ hmember)
    -- the handle that is given was not live
    obtain ⟨hdead, hleads⟩ := insert_get? h hstored
    rw [hleads, if_neg]
    · exact hlive
    · rintro rfl
      rw [hdead] at hlive
      cases hlive
  | discard _ ih =>
    refine ih (discard_wellFormed h _) ?_ fun hmember => hheld (.tail _ hmember)
    rw [discard_get? h, if_neg]
    · exact hlive
    · rintro rfl
      exact hheld (.head _)

/-- A buffer that was stored and not dropped afterwards is under its handle. -/
theorem stored_get? (hrun : t.Run (ops ++ .insert buffer handle :: rest) t'') (h : t.WellFormed)
    (hheld : .discard handle ∉ rest) : t''.get? handle = some buffer := by
  obtain ⟨t', hbefore, hafter⟩ := hrun.split
  cases hafter with
  | insert hstored hfollowing =>
    have hformed := hbefore.wellFormed h
    refine hfollowing.get? (insert_wellFormed hformed hstored) ?_ hheld
    rw [(insert_get? hformed hstored).2, if_pos rfl]

/-- A live handle is given once more only if it was dropped before. -/
theorem dropped_of_given (hrun : t.Run (ops ++ .insert buffer handle :: rest) t'')
    (h : t.WellFormed) (hlive : (t.get? handle).isSome) : .discard handle ∈ ops := by
  obtain ⟨t', hbefore, hafter⟩ := hrun.split
  obtain ⟨content, hlive⟩ := Option.isSome_iff_exists.mp hlive
  cases hafter with
  | insert hstored hfollowing =>
    -- had it not been dropped, it would be live, and no live handle is given
    refine Decidable.byContradiction fun hheld => ?_
    have hstill := hbefore.get? h hlive hheld
    rw [(insert_get? (hbefore.wellFormed h) hstored).1] at hstill
    cases hstill

end Run

end HandleTable
end SandboxPool
