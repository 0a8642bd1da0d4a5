import SandboxPool.Proofs.Handle.Generations

/-!
# Handles that come to life again

A handle leads nowhere once it was dropped or the table was reset, but its number may be given out
again, and then it leads to another buffer. `accepted_again` says after how many resets that may
happen: after a whole number of rounds through the generations, and after no other number.
`dead_until_refilled` says when it happens without any reset: as soon as as many buffers are live
as before the handle was dropped. The free slots are a stack; the slot of a dropped handle is used
again once everything above it is.
-/

namespace SandboxPool
namespace HandleTable

/-- What requests one after another make of a table, the earliest request first. -/
def after (t : HandleTable) (requests : List Request) : HandleTable :=
  requests.foldl (fun t r => (t.serve r).2) t

/-- The slot that a handle names in its generation. -/
def slot (handle : Int32) : Nat := handle.toNatClampNeg % 65536 - 1

variable {t t' u : HandleTable} {buffer : Buffer} {handle other : Int32} {g i k n : Nat}
  {requests : List Request}

theorem after_cons (t : HandleTable) (r : Request) (later : List Request) :
    t.after (r :: later) = (t.serve r).2.after later := rfl

theorem after_append (t : HandleTable) (earlier later : List Request) :
    t.after (earlier ++ later) = (t.after earlier).after later :=
  List.foldl_append

theorem after_wellFormed (h : t.WellFormed) (requests : List Request) :
    (t.after requests).WellFormed := by
  induction requests generalizing t with
  | nil => exact h
  | cons r later ih => exact ih (serve_wellFormed h r)

/-! ## In other generations -/

/-- Every reset takes a table to the next generation, and nothing else does. -/
theorem after_generation (t : HandleTable) (requests : List Request) :
    (t.after requests).generation = nextGeneration^[requests.count .reset] t.generation := by
  induction requests generalizing t with
  | nil => rfl
  | cons r later ih =>
    rw [after_cons, ih]
    by_cases hreset : r = .reset
    · subst hreset
      rw [List.count_cons_self, Function.iterate_succ_apply]
      rfl
    · rw [List.count_cons_of_ne hreset, serve_generation t hreset]

/-- A handle that was given to a buffer is the one of its slot. -/
theorem given_eq (h : t.WellFormed) (hstored : t.insert buffer = .ok (handle, t')) :
    slot handle < capacity ∧ handle = encode t.generation (slot handle) := by
  -- A handle is the name of its slot, whichever of the two ways the slot was found.
  have hencoded {i : Nat} (hsmall : i < capacity) :
      slot (encode t.generation i) < capacity ∧
        encode t.generation i = encode t.generation (slot (encode t.generation i)) := by
    have hsame : slot (encode t.generation i) = i := by
      unfold slot
      rw [encode_toNat h.generation hsmall]
      unfold capacity at hsmall
      omega
    rw [hsame]
    exact ⟨hsmall, rfl⟩
  rcases insert_cases hstored with ⟨i, free, hfound, rfl, -⟩ | ⟨-, hroom, rfl, -⟩
  · have hspare := (h.free i).mp (hfound ▸ List.mem_cons_self)
    have hinside := (Array.getElem?_eq_some_iff.mp hspare).1
    exact hencoded (Nat.lt_of_lt_of_le hinside h.size)
  · exact hencoded hroom

/-- In its generation a handle leads to what its slot holds. -/
theorem get?_encode (h : t.WellFormed) (hsmall : i < capacity) :
    t.get? (encode t.generation i) = t.slots[i]?.join := by
  unfold get?
  rw [decode?_encode h hsmall, Option.bind_some]

/-- In another generation it leads nowhere. -/
theorem get?_encode_other (hsame : IsGeneration g) (hsmall : i < capacity)
    (hother : t.generation ≠ g) : t.get? (encode g i) = none := by
  have hnumber : (encode g i).toNatClampNeg = g * 65536 + (i + 1) :=
    encode_toNat (t := ⟨g, #[], []⟩) hsame.2 hsmall
  have helsewhere : t.decode? (encode g i) = none := by
    refine if_neg fun hfound => hother ?_
    have hupper := hfound.2.1
    rw [hnumber] at hupper
    unfold capacity at hsmall
    omega
  unfold get?
  rw [helsewhere]
  rfl

/-- A buffer is stored under a handle, and then the table is asked for anything, to be reset `k`
times among it. The table goes through its generations in a circle; unless it has come round to the
generation of the handle it refuses it, and if it has, the handle leads to what its slot holds then.
In that generation it would do so at any time: nothing but the generation tells handles of different
borrows apart. -/
theorem accepted_again (h : t.Reachable) (hstored : t.insert buffer = .ok (handle, t'))
    (requests : List Request) :
    let now := t'.after requests
    let k := requests.count .reset
    now.generation = (t.generation - 1 + k) % generations + 1 ∧
    (¬ generations ∣ k →
      now.resolve handle = refuse (.staleHandle handle) ∧ now.discard handle = (false, now)) ∧
    (generations ∣ k → match now.slots[slot handle]?.join with
      | some content => now.resolve handle = .ok content ∧ (now.discard handle).1 = true
      | none =>
        now.resolve handle = refuse (.staleHandle handle) ∧ now.discard handle = (false, now)) ∧
    (now.inGeneration t.generation).get? handle = now.slots[slot handle]?.join := by
  intro now k
  have hformed := h.wellFormed
  have hformed' := insert_wellFormed hformed hstored
  have hformedNow : now.WellFormed := after_wellFormed hformed' requests
  have hgeneration : now.generation = nextGeneration^[k] t.generation := by
    rw [← insert_generation hstored]
    exact after_generation t' requests
  have hround : now.generation = t.generation ↔ generations ∣ k := by
    rw [hgeneration]
    exact nextGeneration_iterate_eq_self hformed.isGeneration
  obtain ⟨hsmall, hown⟩ := given_eq hformed hstored
  have hrefused (hdead : now.get? handle = none) :
      now.resolve handle = refuse (.staleHandle handle) ∧ now.discard handle = (false, now) :=
    ⟨resolve_of_dead hdead, discard_of_dead hdead⟩
  -- Only the number of resets counts: it decides the generation, and with it which table answers.
  refine ⟨?_, fun hapart => hrefused ?_, fun hwhole => ?_, ?_⟩
  · rw [hgeneration]
    exact nextGeneration_iterate hformed.isGeneration k
  · rw [hown]
    exact get?_encode_other hformed.isGeneration hsmall fun hsame => hapart (hround.mp hsame)
  · have hleads : now.get? handle = now.slots[slot handle]?.join := by
      have hsame := get?_encode hformedNow hsmall
      rwa [hround.mpr hwhole, ← hown] at hsame
    cases hcontent : now.slots[slot handle]?.join with
    | none => exact hrefused (hleads.trans hcontent)
    | some buffer =>
      have hlive := hleads.trans hcontent
      refine ⟨resolve_of_live hlive, ?_⟩
      rw [discard_eq_isSome, hlive]
      rfl
  · have hleads := get?_encode (hformedNow.inGeneration hformed.isGeneration) hsmall
    rwa [show (now.inGeneration t.generation).generation = t.generation from rfl, ← hown] at hleads

/-- A table that is reset over and over has no slots. -/
theorem after_resets (t : HandleTable) (n : Nat) :
    t.after (List.replicate (n + 1) .reset) = ⟨nextGeneration^[n + 1] t.generation, #[], []⟩ := by
  induction n generalizing t with
  | zero => rfl
  | succ n ih =>
    rw [List.replicate_succ, after_cons, ih, Function.iterate_succ_apply _ (n + 1)]
    rfl

/-- After a whole round through the generations the first handle leads to another buffer. -/
theorem accepted_again_round :
    ∃ t', empty.insert ⟨[97], none⟩ = .ok (65537, t') ∧
      let now := t'.after (List.replicate generations .reset ++ [.insert ⟨[98], none⟩])
      now.resolve 65537 = .ok ⟨[98], none⟩ ∧ (now.discard 65537).1 = true := by
  have hstored : empty.insert ⟨[97], none⟩ = .ok (65537, ⟨1, #[some ⟨[97], none⟩], []⟩) := rfl
  refine ⟨_, hstored, ?_⟩
  have hfirst : slot 65537 = 0 := by decide
  have hleads {requests : List Request} (hwhole : requests.count .reset = generations)
      (hnow : after ⟨1, #[some ⟨[97], none⟩], []⟩ requests = ⟨1, #[some ⟨[98], none⟩], []⟩) :
      (after ⟨1, #[some ⟨[97], none⟩], []⟩ requests).resolve 65537 = .ok ⟨[98], none⟩ ∧
        ((after ⟨1, #[some ⟨[97], none⟩], []⟩ requests).discard 65537).1 = true := by
    have hagain := (accepted_again .empty hstored requests).2.2.1
    rw [hwhole, hnow, hfirst] at hagain
    rw [hnow]
    exact hagain dvd_rfl
  have hround : nextGeneration^[32766 + 1] 1 = 1 :=
    (nextGeneration_iterate_eq_self ⟨by decide, by decide⟩).mpr dvd_rfl
  refine hleads ?_ ?_
  -- 32767 resets empty the table and bring its generation back to where it was.
  · rw [List.count_append, List.count_replicate_self]
    rfl
  · have hresets := after_resets ⟨1, #[some ⟨[97], none⟩], []⟩ 32766
    rw [after_append, show generations = 32766 + 1 from rfl, hresets, hround]
    rfl

/-! ## In the same generation -/

/-- A handle is dead because its slot is free: it is used again once everything above it is, and
`n` buffers are live then. -/
structure Buried (handle : Int32) (n : Nat) (u : HandleTable) : Prop where
  formed : u.WellFormed
  place : ∃ i above below, handle = encode u.generation i ∧ u.free = above ++ i :: below ∧
    u.size + above.length + 1 = n

theorem Buried.dead (h : Buried handle n u) : u.get? handle = none := by
  obtain ⟨i, above, below, rfl, hfree, -⟩ := h.place
  have hspare : u.slots[i]? = some none := (h.formed.free i).mp (by simp [hfree])
  have hinside := (Array.getElem?_eq_some_iff.mp hspare).1
  rw [get?_encode h.formed (Nat.lt_of_lt_of_le hinside h.formed.size), hspare]
  rfl

theorem Buried.fewer (h : Buried handle n u) : u.size < n := by
  obtain ⟨i, above, below, -, -, hcount⟩ := h.place
  omega

/-- The slot of the handle that was dropped last is the next one. -/
theorem buried_of_discard (h : t.WellFormed) (hlive : (t.discard handle).1 = true) :
    Buried handle t.size (t.discard handle).2 := by
  have hfewer := discard_size h hlive
  refine ⟨discard_wellFormed h handle, ?_⟩
  rcases discard_cases t handle with ⟨-, hsame⟩ | ⟨i, buffer, hown, -, hchanged⟩
  · rw [hsame] at hlive
    cases hlive
  · refine ⟨i, [], t.free, ?_, ?_, hfewer⟩
    · rw [discard_generation]
      exact hown
    · rw [hchanged]
      rfl

/-- The next buffer gets the slot on top, which is the one of the handle if nothing is above. -/
theorem Buried.insert (h : Buried handle n u) (buffer : Buffer) :
    ∃ given u', u.insert buffer = .ok (given, u') ∧ u'.resolve given = .ok buffer ∧
      (given = handle ∧ u'.size = n ∨ given ≠ handle ∧ Buried handle n u') := by
  obtain ⟨i, above, below, hown, hfree, hcount⟩ := h.place
  -- Whether the slot of the handle lies on top of the free list decides what is given out.
  cases above with
  | nil =>
    have hstored : u.insert buffer = .ok (handle,
        { u with slots := u.slots.setIfInBounds i (some buffer), free := below }) := by
      unfold HandleTable.insert
      rw [hfree, hown]
      rfl
    have hleads := (insert_get? h.formed hstored).2 handle
    rw [if_pos rfl] at hleads
    have hmore := insert_size h.formed hstored
    exact ⟨_, _, hstored, resolve_of_live hleads, .inl ⟨rfl, by simp at hcount; omega⟩⟩
  | cons top above =>
    have hstored : u.insert buffer = .ok (encode u.generation top,
        { u with
          slots := u.slots.setIfInBounds top (some buffer), free := above ++ i :: below }) := by
      unfold HandleTable.insert
      rw [hfree]
      rfl
    have hleads := (insert_get? h.formed hstored).2
    have hmore := insert_size h.formed hstored
    have hformed' := insert_wellFormed h.formed hstored
    have hburied : Buried handle n
        { u with slots := u.slots.setIfInBounds top (some buffer), free := above ++ i :: below } :=
      ⟨hformed', i, above, below, hown, rfl, by simp at hcount; omega⟩
    refine ⟨_, _, hstored, resolve_of_live ((hleads _).trans (if_pos rfl)), .inr ⟨?_, hburied⟩⟩
    -- What is given out is live, and a buried handle is not.
    intro hsame
    have hdead := hburied.dead
    rw [hleads, if_pos hsame.symm] at hdead
    cases hdead

/-- A slot that is freed lies above. -/
theorem Buried.discard (h : Buried handle n u) (other : Int32) :
    Buried handle n (u.discard other).2 := by
  by_cases hlive : (u.discard other).1 = true
  · have hfewer := discard_size h.formed hlive
    obtain ⟨i, above, below, hown, hfree, hcount⟩ := h.place
    refine ⟨discard_wellFormed h.formed other, ?_⟩
    rw [discard_generation]
    -- The slot that is freed now comes to lie above: one more on top, and one fewer in use.
    rcases discard_cases u other with ⟨-, hsame⟩ | ⟨j, buffer, -, -, hchanged⟩
    · rw [hsame] at hlive
      cases hlive
    · refine ⟨i, j :: above, below, hown, ?_, ?_⟩
      · rw [hchanged, hfree]
        rfl
      · rw [List.length_cons]
        omega
  · have hdead : u.get? other = none := by
      rwa [discard_eq_isSome, Option.isSome_iff_ne_none, not_not] at hlive
    rwa [discard_of_dead hdead]

/-- A handle stays dead at a request, or the request has as many buffers live as there were, and
the handle is one of theirs. -/
theorem Buried.serve (h : Buried handle n u) {r : Request} (hstays : r ≠ .reset) :
    Buried handle n (u.serve r).2 ∨
      (u.serve r).2.size = n ∧ ((u.serve r).2.get? handle).isSome := by
  cases r with
  | insert buffer =>
    obtain ⟨given, u', hstored, hleads, hagain | ⟨-, hburied⟩⟩ := h.insert buffer
    · obtain ⟨rfl, hcount⟩ := hagain
      refine .inr ?_
      simp [HandleTable.serve, hstored, hcount, live_of_resolve hleads]
    · refine .inl ?_
      simpa [HandleTable.serve, hstored] using hburied
  | resolve other =>
    have hsame : (u.serve (.resolve other)).2 = u := by
      unfold HandleTable.serve
      dsimp only
      cases u.resolve other <;> rfl
    exact .inl (hsame.symm ▸ h)
  | discard other => exact .inl (h.discard other)
  | reset => exact absurd rfl hstays

/-- A handle stays dead as long as something holds that cannot hold of a table with so many live
buffers that has the handle among them. -/
theorem Buried.after {P : HandleTable → Prop} (h : Buried handle n u)
    (hstays : .reset ∉ requests)
    (hholds : ∀ earlier, earlier <+: requests → P (u.after earlier))
    (hapart : ∀ u, u.size = n → (u.get? handle).isSome → ¬ P u) :
    Buried handle n (u.after requests) := by
  induction requests generalizing u with
  | nil => exact h
  | cons r later ih =>
    have hfirst : r ≠ .reset := fun hsame => hstays (hsame ▸ List.mem_cons_self)
    rcases h.serve hfirst with hburied | ⟨hcount, hlive⟩
    · refine ih hburied (fun hmember => hstays (.tail _ hmember)) fun earlier hbefore => ?_
      exact hholds (r :: earlier) (List.cons_prefix_cons.mpr ⟨rfl, hbefore⟩)
    · exact absurd (hholds [r] (List.cons_prefix_cons.mpr ⟨rfl, List.nil_prefix⟩))
        (hapart _ hcount hlive)

/-- A handle was dropped and the table is not reset. As long as fewer buffers are live than before
the handle was dropped, and no longer, it is refused by everything. The request that has as many
buffers live again stores one, and gives the handle to it. -/
theorem dead_until_refilled (h : t.Reachable) (hlive : (t.discard handle).1 = true)
    (hstays : .reset ∉ requests) :
    let u := (t.discard handle).2
    ((∀ earlier, earlier <+: requests →
        (u.after earlier).resolve handle = refuse (.staleHandle handle) ∧
        (u.after earlier).discard handle = (false, u.after earlier)) ↔
      ∀ earlier, earlier <+: requests → (u.after earlier).size < t.size) ∧
    ((∀ earlier, earlier <+: requests → (u.after earlier).size < t.size) → ∀ buffer,
      ∃ given u', (u.after requests).insert buffer = .ok (given, u') ∧
        (given = handle ↔ u'.size = t.size) ∧ u'.resolve given = .ok buffer) := by
  intro u
  -- Discarding the handle buries it under nothing, with the table one short of its old size.
  have hstart : Buried handle t.size u := buried_of_discard h.wellFormed hlive
  have hfew {requests : List Request} (hstays : .reset ∉ requests)
      (hfewer : ∀ earlier, earlier <+: requests → (u.after earlier).size < t.size) :
      Buried handle t.size (u.after requests) :=
    hstart.after (P := fun v => v.size < t.size) hstays hfewer fun v hcount _ hless =>
      Nat.ne_of_lt hless hcount
  have hpart {earlier : List Request} (hbefore : earlier <+: requests) : .reset ∉ earlier :=
    fun hmember => hstays (hbefore.subset hmember)
  refine ⟨⟨fun hdead earlier hbefore => ?_, fun hfewer earlier hbefore => ?_⟩,
    fun hfewer buffer => ?_⟩
  · have hburied : Buried handle t.size (u.after earlier) := by
      refine hstart.after (P := fun v => v.discard handle = (false, v)) (hpart hbefore)
        (fun first hprior => (hdead first (hprior.trans hbefore)).2) ?_
      intro v _ hlive hrefused
      rw [← discard_eq_isSome, hrefused] at hlive
      cases hlive
    exact hburied.fewer
  · have hdead := (hfew (hpart hbefore) fun first hprior =>
      hfewer first (hprior.trans hbefore)).dead
    exact ⟨resolve_of_dead hdead, discard_of_dead hdead⟩
  · obtain ⟨given, u', hstored, hleads, ⟨hsame, hcount⟩ | ⟨hother, hburied⟩⟩ :=
      (hfew hstays hfewer).insert buffer
    · exact ⟨given, u', hstored, iff_of_true hsame hcount, hleads⟩
    · exact ⟨given, u', hstored, iff_of_false hother (Nat.ne_of_lt hburied.fewer), hleads⟩

/-- The buffer of the first handle is dropped, then that of the second, whose slot is used first;
with the third buffer as many are live as before, and the first handle leads to it. -/
theorem dead_until_refilled_second :
    let t : HandleTable := ⟨1, #[some ⟨[97], none⟩, some ⟨[98], none⟩], []⟩
    let u := (t.discard 65537).2.after [.discard 65538, .insert ⟨[99], none⟩]
    ∃ given u', u.insert ⟨[100], none⟩ = .ok (given, u') ∧ u'.size = t.size ∧ given = 65537 ∧
      u'.resolve 65537 = .ok ⟨[100], none⟩ := by
  intro t u
  have hreached : t.Reachable := .insert (.insert .empty rfl) rfl
  have hfewer : ∀ earlier, earlier <+: [.discard 65538, .insert ⟨[99], none⟩] →
      ((t.discard 65537).2.after earlier).size < t.size := by
    intro earlier hbefore
    rw [← List.mem_inits] at hbefore
    revert earlier
    decide
  obtain ⟨given, u', hstored, hagain, hleads⟩ :=
    (dead_until_refilled hreached (by decide) (by decide)).2 hfewer ⟨[100], none⟩
  have hfull : u'.size = t.size :=
    insert_size (after_wellFormed (discard_wellFormed hreached.wellFormed 65537) _) hstored
  obtain rfl := hagain.mpr hfull
  exact ⟨_, u', hstored, hfull, rfl, hleads⟩

/-- A handle whose buffer was dropped is given to the next one. -/
theorem names_another :
    empty.serveAll [.insert ⟨[97], none⟩, .discard 65537, .insert ⟨[98], none⟩, .resolve 65537] =
      [.stored 65537, .dropped true, .stored 65537, .found ⟨[98], none⟩] := by
  rfl

end HandleTable
end SandboxPool
