import SandboxPool.Proofs.Handle.Table
import Mathlib.Data.Set.Card

/-!
# What a handle table remembers

A handle table is asked to store buffers, to look them up, to drop them and to forget everything.
Whatever it is asked, in whatever order, it acts as a finite map from handles to buffers
(`HandleTable.ActsAs`): under a handle is the buffer that was stored there last, unless the handle
was dropped or the table was reset since (`HandleTable.latest`). Slots, free lists and generations
do not show.
-/

namespace SandboxPool
namespace HandleTable

/-- What a table may be asked for. -/
inductive Request where
  | insert (buffer : Buffer)
  | resolve (handle : Int32)
  | discard (handle : Int32)
  | reset
  deriving Repr, DecidableEq

/-- What a table answers. -/
inductive Answer where
  | stored (handle : Int32)
  | found (buffer : Buffer)
  | dropped (live : Bool)
  | cleared
  | failed (e : Failure)

/-- Answers a request. A table that cannot store a buffer stays as it is. -/
def serve (t : HandleTable) : Request → Answer × HandleTable
  | .insert buffer =>
    match t.insert buffer with
    | .ok (handle, t') => (.stored handle, t')
    | .error e => (.failed e, t)
  | .resolve handle =>
    match t.resolve handle with
    | .ok buffer => (.found buffer, t)
    | .error e => (.failed e, t)
  | .discard handle => (.dropped (t.discard handle).1, (t.discard handle).2)
  | .reset => (.cleared, t.reset)

/-- The refusal of a table that is full. -/
def overflow : Failure :=
  ⟨.callFailed "interop.registerBuffer" (s!"more than {capacity} live buffers"), []⟩

/-! ## The past of a table -/

/-- Something that has been done to a table. -/
inductive Event where
  | done (op : Op)
  | reset
  deriving Repr, DecidableEq

/-- The buffer that was stored last under a handle, unless the handle was dropped or the table was
reset since. The latest event comes first. -/
def latest (handle : Int32) : List Event → Option Buffer
  | [] => none
  | .done (.insert buffer given) :: earlier =>
    if handle = given then some buffer else latest handle earlier
  | .done (.discard dropped) :: earlier =>
    if handle = dropped then none else latest handle earlier
  | .reset :: _ => none

/-- What a request with its answer has done to the table. -/
def Request.event? : Request → Answer → Option Event
  | .insert buffer, .stored handle => some (.done (.insert buffer handle))
  | .discard handle, _ => some (.done (.discard handle))
  | .reset, _ => some .reset
  | _, _ => none

/-- What requests make of the empty table, the latest of them first: everything that was done to
it, the latest event first, and what it is now. -/
def replay : List Request → List Event × HandleTable
  | [] => ([], empty)
  | r :: earlier =>
    let (past, t) := replay earlier
    let (answer, t') := t.serve r
    ((r.event? answer).toList ++ past, t')

/-- A table acts as a finite map from handles to buffers. -/
structure ActsAs (t : HandleTable) (m : Int32 → Option Buffer) : Prop where
  /-- A buffer that is stored gets a positive handle that was not live, and nothing else changes. -/
  insert : ∀ {buffer handle t'}, t.insert buffer = .ok (handle, t') →
    0 < handle ∧ m handle = none ∧ t'.get? = Function.update m handle (some buffer)
  resolve : ∀ handle, t.resolve handle = match m handle with
    | some buffer => .ok buffer
    | none => refuse (.staleHandle handle)
  /-- It tells whether there was a buffer to drop, and drops that one only. -/
  discard : ∀ handle, (t.discard handle).1 = (m handle).isSome ∧
    (t.discard handle).2.get? = Function.update m handle none
  reset : t.reset.get? = fun _ => none
  finite : {handle | (m handle).isSome}.Finite
  size : t.size = {handle | (m handle).isSome}.ncard
  /-- It refuses a buffer exactly when it is full, and stays as it is then. -/
  full : ∀ buffer, t.serve (.insert buffer) = (.failed overflow, t) ↔
    {handle | (m handle).isSome}.ncard = capacity
  room : ∀ buffer, (∃ handle t', t.insert buffer = .ok (handle, t')) ↔
    {handle | (m handle).isSome}.ncard < capacity

variable {t t' : HandleTable} {buffer : Buffer} {handle : Int32} {i : Nat} {past : List Event}

/-! ## Counting live handles -/

/-- A slot that is in use is one of those there may be. -/
theorem used_small (h : t.WellFormed) (hused : (t.slots[i]?.join).isSome) : i < capacity := by
  obtain ⟨buffer, hthere⟩ := Option.isSome_iff_exists.mp hused
  have hinside := (Array.getElem?_eq_some_iff.mp (Option.join_eq_some_iff.mp hthere)).1
  exact Nat.lt_of_lt_of_le hinside h.size

/-- Live handles and slots in use belong together. -/
theorem live_eq_image (h : t.WellFormed) : {handle | (t.get? handle).isSome} =
    encode t.generation '' {i | (t.slots[i]?.join).isSome} := by
  ext handle
  constructor
  -- A handle of another generation leads nowhere, so a live one is the name of a slot in use.
  · intro hlive
    have hlive : ((t.decode? handle).bind fun i => t.slots[i]?.join).isSome := hlive
    cases hfound : t.decode? handle with
    | none =>
      rw [hfound] at hlive
      cases hlive
    | some i =>
      rw [hfound] at hlive
      exact ⟨i, hlive, (eq_encode hfound).symm⟩
  · rintro ⟨i, hused, rfl⟩
    show ((t.decode? _).bind fun i => t.slots[i]?.join).isSome
    rw [decode?_encode h (used_small h hused)]
    exact hused

/-- Different slots have different handles. -/
theorem encode_injOn (h : t.WellFormed) :
    Set.InjOn (encode t.generation) {i | (t.slots[i]?.join).isSome} := by
  intro i hused j hused' hsame
  have hback := decode?_encode h (used_small h hused)
  rw [hsame, decode?_encode h (used_small h hused')] at hback
  exact (Option.some.inj hback).symm

/-- The entries that are there, counted by their places. -/
theorem ncard_used (slots : List (Option Buffer)) :
    {i : Nat | (slots[i]?.join).isSome}.Finite ∧
      {i : Nat | (slots[i]?.join).isSome}.ncard = slots.countP Option.isSome := by
  induction slots using List.reverseRecOn with
  | nil => simp
  | append_singleton slots content ih =>
    obtain ⟨hfinite, hcount⟩ := ih
    have houtside : slots.length ∉ {i : Nat | (slots[i]?.join).isSome} := by simp
    -- the last entry has the last place
    have hplaces : {i : Nat | ((slots ++ [content])[i]?.join).isSome} =
        if content.isSome then Insert.insert slots.length {i : Nat | (slots[i]?.join).isSome}
        else {i : Nat | (slots[i]?.join).isSome} := by
      ext i
      rcases Nat.lt_trichotomy i slots.length with hbefore | rfl | hafter
      · rw [Set.mem_ofPred_eq, List.getElem?_append_left hbefore]
        split <;> simp [Nat.ne_of_lt hbefore]
      · cases content <;> simp
      · have hbeyond : slots.length + 1 ≤ i := hafter
        rw [Set.mem_ofPred_eq, List.getElem?_eq_none (by simpa using hbeyond)]
        split <;> simp [Nat.ne_of_gt hafter, Nat.le_of_lt hafter]
    rw [hplaces, List.countP_append, List.countP_singleton]
    cases content with
    | none => exact ⟨hfinite, hcount⟩
    | some buffer =>
      simp only [Option.isSome_some, if_true]
      exact ⟨hfinite.insert _, by rw [Set.ncard_insert_of_notMem houtside hfinite, hcount]⟩

theorem live_finite (h : t.WellFormed) : {handle | (t.get? handle).isSome}.Finite := by
  rw [live_eq_image h]
  have hused := (ncard_used t.slots.toList).1
  simp only [Array.getElem?_toList] at hused
  exact hused.image _

/-- The size of a table is the number of its live handles. -/
theorem size_eq_ncard (h : t.WellFormed) :
    t.size = {handle | (t.get? handle).isSome}.ncard := by
  have hused := (ncard_used t.slots.toList).2
  simp only [Array.getElem?_toList, Array.countP_toList] at hused
  rw [live_eq_image h, (encode_injOn h).ncard_image, hused]
  rfl

/-- No more handles are live than there are slots. -/
theorem size_le (h : t.WellFormed) : t.size ≤ capacity :=
  Nat.le_trans Array.countP_le_size h.size

/-! ## Storing -/

theorem insert_positive (h : t.WellFormed) (hstored : t.insert buffer = .ok (handle, t')) :
    0 < handle := by
  obtain ⟨-, hleads⟩ := insert_get? h hstored
  have hlive : t'.get? handle = some buffer := by rw [hleads, if_pos rfl]
  -- only positive handles lead anywhere
  unfold get? decode? at hlive
  obtain ⟨i, hfound, -⟩ := Option.bind_eq_some_iff.mp hlive
  simp only [Option.ite_none_right_eq_some] at hfound
  exact hfound.1.1

/-- One more handle is live once a buffer is stored. -/
theorem insert_size (h : t.WellFormed) (hstored : t.insert buffer = .ok (handle, t')) :
    t'.size = t.size + 1 := by
  obtain ⟨hdead, hleads⟩ := insert_get? h hstored
  have hone : {other | (t'.get? other).isSome} =
      Insert.insert handle {other | (t.get? other).isSome} := by
    ext other
    rw [Set.mem_ofPred_eq, hleads, Set.mem_insert_iff, Set.mem_ofPred_eq]
    by_cases hsame : other = handle <;> simp [hsame]
  have houtside : handle ∉ {other | (t.get? other).isSome} := by simp [hdead]
  rw [size_eq_ncard (insert_wellFormed h hstored), hone,
    Set.ncard_insert_of_notMem houtside (live_finite h), size_eq_ncard h]

/-- A buffer can be stored exactly as long as fewer are live than may be. -/
theorem insert_iff_room (h : t.WellFormed) (buffer : Buffer) :
    (∃ handle t', t.insert buffer = .ok (handle, t')) ↔ t.size < capacity := by
  constructor
  · rintro ⟨handle, t', hstored⟩
    have hmore := insert_size h hstored
    have hmost := size_le (insert_wellFormed h hstored)
    omega
  · exact fun hroom => insert_of_room h hroom buffer

/-- What is not stored is refused because the table is full. -/
theorem insert_cases_overflow (t : HandleTable) (buffer : Buffer) :
    (∃ handle t', t.insert buffer = .ok (handle, t')) ∨ t.insert buffer = .error overflow := by
  unfold insert
  split
  · exact .inl ⟨_, _, rfl⟩
  · split
    · exact .inl ⟨_, _, rfl⟩
    · exact .inr rfl

/-- A table that is full, and only such a table, refuses a buffer and stays as it is. -/
theorem serve_overflow_iff (h : t.WellFormed) (buffer : Buffer) :
    t.serve (.insert buffer) = (.failed overflow, t) ↔ t.size = capacity := by
  have hmost := size_le h
  have hroom := insert_iff_room h buffer
  unfold serve
  rcases insert_cases_overflow t buffer with ⟨handle, t', hstored⟩ | hrefused
  · have hsmall := hroom.mp ⟨handle, t', hstored⟩
    simp [hstored, Nat.ne_of_lt hsmall]
  · have hfull : ¬ t.size < capacity := by
      rw [← hroom, hrefused]
      rintro ⟨handle, t', hstored⟩
      cases hstored
    simp [hrefused]
    omega

/-! ## Dropping and forgetting -/

theorem discard_eq_isSome (t : HandleTable) (handle : Int32) :
    (t.discard handle).1 = (t.get? handle).isSome := by
  unfold discard get?
  cases t.decode? handle with
  | none => rfl
  | some i =>
    rw [Option.bind_some]
    cases hheld : t.slots[i]?.join with
    | none => simp [hheld]
    | some buffer => simp [hheld]

theorem discard_of_dead (hdead : t.get? handle = none) : t.discard handle = (false, t) := by
  have hmissing := discard_eq_isSome t handle
  rw [hdead] at hmissing
  rcases discard_cases t handle with ⟨-, hsame⟩ | ⟨i, buffer, -, -, hdropped⟩
  · exact hsame
  · rw [hdropped] at hmissing
    cases hmissing

/-- One handle less is live once a buffer is dropped. -/
theorem discard_size (h : t.WellFormed) (hlive : (t.discard handle).1 = true) :
    (t.discard handle).2.size + 1 = t.size := by
  rw [discard_eq_isSome] at hlive
  have hleads := discard_get? h handle
  have hone : {other | (t.get? other).isSome} =
      Insert.insert handle {other | ((t.discard handle).2.get? other).isSome} := by
    ext other
    rw [Set.mem_ofPred_eq, Set.mem_insert_iff, Set.mem_ofPred_eq, hleads]
    by_cases hsame : other = handle <;> simp [hsame, hlive]
  have hformed := discard_wellFormed h handle
  have houtside : handle ∉ {other | ((t.discard handle).2.get? other).isSome} := by simp [hleads]
  rw [size_eq_ncard h, hone, Set.ncard_insert_of_notMem houtside (live_finite hformed),
    size_eq_ncard hformed]

/-- A table without slots leads nowhere. -/
theorem get?_of_bare (hbare : t.slots = #[]) (handle : Int32) : t.get? handle = none := by
  unfold get?
  rw [hbare]
  cases t.decode? handle <;> rfl

/-! ## Tables act as maps -/

theorem actsAs_get? (h : t.WellFormed) : t.ActsAs t.get? where
  insert {buffer handle t'} hstored := by
    obtain ⟨hdead, hleads⟩ := insert_get? h hstored
    refine ⟨insert_positive h hstored, hdead, funext fun other => ?_⟩
    rw [hleads, Function.update_apply]
  resolve _ := rfl
  discard handle := by
    refine ⟨discard_eq_isSome t handle, funext fun other => ?_⟩
    rw [discard_get? h, Function.update_apply]
  reset := funext fun handle => get?_of_bare rfl handle
  finite := live_finite h
  size := size_eq_ncard h
  full buffer := by rw [← size_eq_ncard h, serve_overflow_iff h]
  room buffer := by rw [← size_eq_ncard h, insert_iff_room h]

/-- What becomes of a table that is asked. -/
theorem serve_cases (t : HandleTable) (r : Request) :
    (∃ buffer handle t', t.insert buffer = .ok (handle, t') ∧ r = .insert buffer ∧
        t.serve r = (.stored handle, t')) ∨
      (∃ handle, r = .discard handle ∧
        t.serve r = (.dropped (t.discard handle).1, (t.discard handle).2)) ∨
      (r = .reset ∧ t.serve r = (.cleared, t.reset)) ∨
      ∃ answer, r.event? answer = none ∧ t.serve r = (answer, t) := by
  cases r with
  | insert buffer =>
    rcases hstored : t.insert buffer with e | ⟨handle, t'⟩
    · exact .inr (.inr (.inr ⟨.failed e, rfl, by simp [serve, hstored]⟩))
    · exact .inl ⟨buffer, handle, t', hstored, rfl, by simp [serve, hstored]⟩
  | resolve handle =>
    refine .inr (.inr (.inr ?_))
    cases hfound : t.resolve handle with
    | error e => exact ⟨.failed e, rfl, by simp [serve, hfound]⟩
    | ok buffer => exact ⟨.found buffer, rfl, by simp [serve, hfound]⟩
  | discard handle => exact .inr (.inl ⟨handle, rfl, rfl⟩)
  | reset => exact .inr (.inr (.inl ⟨rfl, rfl⟩))

theorem serve_wellFormed (h : t.WellFormed) (r : Request) : (t.serve r).2.WellFormed := by
  rcases serve_cases t r with ⟨buffer, handle, t', hstored, -, hsame⟩ | ⟨handle, -, hsame⟩ |
    ⟨-, hsame⟩ | ⟨answer, -, hsame⟩ <;> rw [hsame]
  · exact insert_wellFormed h hstored
  · exact discard_wellFormed h handle
  · obtain ⟨hpositive, hsmall⟩ := nextGeneration_bounds t.generation
    exact wellFormed_of_generation hpositive hsmall
  · exact h

/-- Operations in a row do to a table what is remembered of them. -/
theorem Run.get?_eq_latest {ops : List Op} (hrun : t.Run ops t') (h : t.WellFormed)
    (hknown : ∀ handle, t.get? handle = latest handle past) :
    ∀ handle, t'.get? handle = latest handle ((ops.map Event.done).reverse ++ past) := by
  induction hrun generalizing past with
  | nil _ => exact hknown
  | insert hstored _ ih =>
    rw [List.map_cons, List.reverse_cons, List.append_assoc]
    refine ih (insert_wellFormed h hstored) fun handle => ?_
    rw [(insert_get? h hstored).2, hknown]
    rfl
  | discard _ ih =>
    rw [List.map_cons, List.reverse_cons, List.append_assoc]
    refine ih (discard_wellFormed h _) fun handle => ?_
    rw [discard_get? h, hknown]
    rfl

/-- What a request does to a table is remembered. -/
theorem serve_get?_eq_latest (h : t.WellFormed)
    (hknown : ∀ handle, t.get? handle = latest handle past) (r : Request) :
    ∀ handle, (t.serve r).2.get? handle =
      latest handle ((r.event? (t.serve r).1).toList ++ past) := by
  rcases serve_cases t r with ⟨buffer, handle, t', hstored, rfl, hsame⟩ | ⟨handle, rfl, hsame⟩ |
    ⟨rfl, hsame⟩ | ⟨answer, hnothing, hsame⟩ <;> rw [hsame]
  · exact (Run.insert hstored (.nil t')).get?_eq_latest h hknown
  · exact (Run.discard (.nil (t.discard handle).2)).get?_eq_latest h hknown
  · exact get?_of_bare rfl
  · rw [hnothing]
    exact hknown

theorem replay_remembers (requests : List Request) : (replay requests).2.WellFormed ∧
    ∀ handle, (replay requests).2.get? handle = latest handle (replay requests).1 := by
  induction requests with
  | nil => exact ⟨Reachable.empty.wellFormed, get?_of_bare rfl⟩
  | cons r earlier ih =>
    obtain ⟨hformed, hknown⟩ := ih
    exact ⟨serve_wellFormed hformed r, serve_get?_eq_latest hformed hknown r⟩

/-- Whatever a table was asked, it acts as the map that has, under each handle, the buffer that
was stored there last, unless the handle was dropped or the table was reset since. -/
theorem acts_as_map (requests : List Request) :
    (replay requests).2.ActsAs fun handle => latest handle (replay requests).1 := by
  obtain ⟨hformed, hknown⟩ := replay_remembers requests
  rw [← funext hknown]
  exact actsAs_get? hformed

/-- The slot of a dropped buffer is used again, under the same handle; the handles of the next
generation are others. -/
example : (replay [.insert ⟨[2], none⟩, .reset, .insert ⟨[1], none⟩, .discard 65537,
    .insert ⟨[0], none⟩]).1 = [.done (.insert ⟨[2], none⟩ 131073), .reset,
      .done (.insert ⟨[1], none⟩ 65537), .done (.discard 65537),
      .done (.insert ⟨[0], none⟩ 65537)] := by
  decide

end HandleTable
end SandboxPool
